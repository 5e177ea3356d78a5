import Workflow.Flow.World
import Workflow.Rollout.Definition

/-!
# Workflow.Rollout.Report — running a rollout, and what is told of it

The report has a line for the flow, one for each log entry, and one for the last error if there is
one.
-/

namespace Workflow

namespace Rollout

/-- A world in which the rollout has just been started. -/
def start (r : Rollout) (ids : IdSource) : Except Refusal World :=
  match r.definition with
  | .error e => .error e
  | .ok definition =>
    let w := World.empty
    let w := { w with services := { w.services with ids := ids } }
    .ok ((w.create definition 0).2.perform 0 .start)

/-- How many polls were made. -/
def pollCount (trace : List TraceEntry) : Nat :=
  trace.countP fun e => match e.mark with
    | .poll _ => true
    | _ => false

/-- The share of the flow that is done, in percent without decimal places. -/
def percent (d : Driver) : String := (d.progress.mul (.ofNat 100)).rounded

/-- The line of a log entry. -/
def logLine (log : StepLog) (entry : LogEntry) : String :=
  let task := (log.task.map fun t => t.text ++ ": ").getD ""
  "  [" ++ log.step ++ "] " ++ task ++ entry.message

/-- What is told of a flow. -/
def reportLines (d : Driver) (polls : Nat) : List String :=
  let r := d.record
  let flow := "flow " ++ r.flow.text ++ ": state=" ++ d.published.name ++ " result="
    ++ r.result.name ++ " progress=" ++ percent d ++ "% polls=" ++ toString polls
  let log := r.log.flatMap fun l => l.entries.map (logLine l)
  let error := r.lastError.toList.map fun e => "last error in '" ++ e.step ++ "': " ++ e.message
  flow :: log ++ error

/-- What is told of a rollout. -/
def report (w : World) : List String :=
  w.drivers.flatMap fun d => reportLines d (pollCount w.services.trace)

/-- A rollout in virtual time, until it is over. -/
def run (fuel : Nat) (r : Rollout) (ids : IdSource) : Except Refusal World :=
  (r.start ids).map fun w => (w.await (World.settled? 0) none fuel).2

end Rollout

end Workflow
