import Workflow.Batch.Crew
import Workflow.Worker.Timed

/-!
# Workflow.Batch.Timed — a batch in virtual time

The crew of a batch with timed workers.  `step?` lets happen one thing that is due; of several it
takes that of the seat that was launched first.
-/

namespace Workflow

/-- A batch at work in virtual time. -/
abbrev TimedCrew := Crew TimedWorker

/-- Timed workers that start now. -/
def TimedWorker.staff (now : Nat) : Staff TimedWorker := ⟨(start · now), (·.worker.result?)⟩

namespace TimedCrew

/-- When the next thing happens to a seat. -/
def seatDue : Seat TimedWorker → Option Nat
  | .running w => w.due
  | _ => none

/-- The earlier of two times that may not come. -/
def earlier : Option Nat → Option Nat → Option Nat
  | some a, some b => some (min a b)
  | some a, none => some a
  | none, b => b

/-- When the next thing happens in the crew. -/
def due (c : TimedCrew) : Option Nat := (c.seats.map seatDue).foldl earlier none

/-- The batch as it starts now. -/
def assemble (b : Batch) (now : Nat) : TimedCrew × List TaskEvent :=
  Crew.assemble (TimedWorker.staff now) b

/-- What one step of a crew gave. -/
structure Stepped where
  crew : TimedCrew
  counts : PollCounts
  events : List TaskEvent
  trace : List TraceEntry

/-- One thing that is due happens; none if nothing is due. -/
def step? (c : TimedCrew) (now : Nat) (counts : PollCounts) : Option Stepped := do
  let i ← c.seats.findIdx? fun seat => (seatDue seat).any (· ≤ now)
  let w ← c.worker? i
  let fired := w.fire now counts
  let (crew, events) := c.update (TimedWorker.staff now) i fired.worker fired.events
  some ⟨crew, fired.counts, events, fired.trace⟩

/-- Lets everything happen that is due before `limit`, in at most `fuel` steps. -/
def run (limit : Nat) : Nat → TimedCrew → PollCounts → Timeline → TimedCrew × Timeline
  | 0, c, _, past => (c, past)
  | fuel + 1, c, counts, past =>
    match due c with
    | none => (c, past)
    | some now =>
      if limit ≤ now then (c, past)
      else
        match step? c now counts with
        | none => (c, past)
        | some s => run limit fuel s.crew s.counts (past.extend now s.events s.trace)

/-- A batch from time 0 on. -/
def runAlone (b : Batch) (limit fuel : Nat) : TimedCrew × Timeline :=
  let (c, events) := assemble b 0
  run limit fuel c .empty (Timeline.empty.extend 0 events [])

end TimedCrew

end Workflow
