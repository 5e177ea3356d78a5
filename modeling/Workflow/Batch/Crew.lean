import Workflow.Worker.Machine

/-!
# Workflow.Batch.Crew — the workers of a batch and their permits

Every launch has a seat.  While permits are free the waiting seats start in launch order; a worker
holds its permit until it has its result.  Once every seat has its result the crew reports
`completed`.  A crew is the same whatever its workers are, so it serves bare and timed ones.
-/

namespace Workflow

/-- What a crew has to know of its workers. -/
structure Staff (W : Type) where
  /-- A launch's worker as it starts, and the events that it reports. -/
  start : Launch → W × List TaskEvent
  /-- A worker's result, once it has one. -/
  result? : W → Option TaskResult

/-- One launch of a batch. -/
inductive Seat (W : Type) where
  | waiting (launch : Launch)
  | running (worker : W)
  | finished (result : TaskResult)

/-- Whether the seat has its result. -/
def Seat.isFinished {W : Type} : Seat W → Bool
  | finished _ => true
  | _ => false

/-- A batch at work. -/
structure Crew (W : Type) where
  seats : List (Seat W)
  /-- Permits that nobody holds; none if the batch is not throttled. -/
  permits : Option Nat
  /-- Results in order of completion. -/
  results : List TaskResult

namespace Crew

variable {W : Type}

/-- What filling seats gave. -/
structure Filled (W : Type) where
  seats : List (Seat W)
  permits : Option Nat
  results : List TaskResult
  events : List TaskEvent

/-- Starts waiting seats from the left as long as there are permits.  A worker that is done as soon
as it starts gives its permit back at once. -/
def fill (staff : Staff W) : Option Nat → List (Seat W) → Filled W
  | permits, [] => ⟨[], permits, [], []⟩
  | permits, .waiting launch :: rest =>
    if permits = some 0 then ⟨.waiting launch :: rest, permits, [], []⟩
    else
      let (worker, events) := staff.start launch
      match staff.result? worker with
      | some r =>
        let f := fill staff permits rest
        ⟨.finished r :: f.seats, f.permits, r :: f.results, events ++ f.events⟩
      | none =>
        let f := fill staff (permits.map (· - 1)) rest
        ⟨.running worker :: f.seats, f.permits, f.results, events ++ f.events⟩
  | permits, seat :: rest =>
    let f := fill staff permits rest
    { f with seats := seat :: f.seats }

/-- Whether every seat has its result. -/
def isDone (c : Crew W) : Bool := c.seats.all Seat.isFinished

/-- The crew with its seats filled, which reports `completed` if nothing is left to do. -/
def refill (staff : Staff W) (c : Crew W) : Crew W × List TaskEvent :=
  let f := fill staff c.permits c.seats
  let c : Crew W := ⟨f.seats, f.permits, c.results ++ f.results⟩
  (c, f.events ++ if c.isDone then [.completed] else [])

/-- The crew of a batch as it starts, with as many permits as its policy says.  A semaphore holds no
more than `2 ^ 61 - 1` of them: a policy that says more is not one that a batch is run with. -/
def assemble (staff : Staff W) (b : Batch) : Crew W × List TaskEvent :=
  refill staff ⟨b.launches.map .waiting, b.policy.maxConcurrency.map UInt64.toNat, []⟩

/-- The running worker of a seat. -/
def worker? (c : Crew W) (i : Nat) : Option W :=
  match c.seats[i]? with
  | some (.running w) => some w
  | _ => none

/-- Puts the worker of a running seat into its new state, with the events that it reported.  A
worker that is done gives its permit to the next waiting launch. -/
def update (staff : Staff W) (c : Crew W) (i : Nat) (worker : W) (events : List TaskEvent) :
    Crew W × List TaskEvent :=
  match staff.result? worker with
  | none => ({ c with seats := c.seats.set i (.running worker) }, events)
  | some r =>
    let (c, more) := refill staff
      ⟨c.seats.set i (.finished r), c.permits.map (· + 1), c.results ++ [r]⟩
    (c, events ++ more)

/-- A bare worker's seat gets a signal. -/
def deliver (staff : Staff Worker) (c : Crew Worker) (i : Nat) (signal : Worker.Signal) :
    Crew Worker × List TaskEvent :=
  match c.worker? i with
  | some w =>
    let (w, events) := w.react signal
    c.update staff i w events
  | none => (c, [])

end Crew

/-- Workers without timers. -/
def Worker.staff : Staff Worker := ⟨Worker.start, Worker.result?⟩

end Workflow
