import Workflow.Batch.Timed
import Workflow.Step.Body
import Workflow.Step.Listener

/-!
# Workflow.Flow.Activation — the tasks that a step launched, and the listener to their events

The crew sends its events to an inbox.  The listener hears them one at a time; what is to be
recorded of an event is saved before the next one is heard, and a decision is told when all of it
is saved.
-/

namespace Workflow

/-- Launched tasks at work. -/
structure Activation where
  step : String
  /-- The epoch of the driver as of the launch. -/
  epoch : Nat
  crew : TimedCrew
  /-- Whether the crew was sent home before it was done. -/
  aborted : Bool
  /-- Events that were not heard yet. -/
  inbox : List TaskEvent
  listener : Listener
  /-- What is to be saved. -/
  updates : List StepUpdate
  /-- Why something could not be saved, until this is told. -/
  failure : Option FlowError
  /-- Whether the listener's decision was told. -/
  told : Bool

namespace Activation

/-- A launch takes effect: the crew starts. -/
def start (step : String) (epoch now : Nat) (launch : StepLaunch) : Activation :=
  let (crew, events) := TimedCrew.assemble launch.batch now
  ⟨step, epoch, crew, false, events, .ofHandler launch.handler, [], none, false⟩

/-- When the next thing happens to the crew. -/
def due (a : Activation) : Option Nat := if a.aborted then none else a.crew.due

/-- Whether no more events will come. -/
def isClosed (a : Activation) : Bool := a.aborted || a.crew.isDone

/-- Sends the crew home. -/
def abort (a : Activation) : Activation := { a with aborted := true }

/-- One thing that is due happens in the crew. -/
def work? (a : Activation) (now : Nat) (polls : PollCounts) :
    Option (Activation × PollCounts × List TraceEntry) :=
  if a.aborted then none
  else
    (a.crew.step? now polls).map fun s =>
      ({ a with crew := s.crew, inbox := a.inbox ++ s.events }, s.counts, s.trace)

/-- The listener hears the next event. -/
def hear? (a : Activation) : Option Activation :=
  match a.updates, a.listener.decision, a.inbox with
  | [], none, event :: inbox =>
    let (listener, updates) := a.listener.hear event
    some { a with listener := listener, inbox := inbox, updates := updates }
  | _, _, _ => none

/-- The decision that is to be told: a failure to save, what the listener has decided, or that every
task reported without a decision. -/
def decision? (a : Activation) : Option Decision :=
  match a.failure with
  | some e => some (.error e)
  | none =>
    if a.told || !a.updates.isEmpty then none
    else
      match a.listener.decision with
      | some d => some d
      | none =>
        if a.inbox.isEmpty && a.isClosed then some (.error (.invalidState (.noTransition a.step)))
        else none

/-- The activation once its decision was told.  After a failure to save the listener goes on. -/
def tell (a : Activation) : Activation :=
  match a.failure with
  | some _ => { a with failure := none }
  | none => { a with told := true }

end Activation

end Workflow
