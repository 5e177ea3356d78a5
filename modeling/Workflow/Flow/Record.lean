import Workflow.Step.Transition
import Workflow.Table
import Workflow.Task.Result
import Workflow.Time.Instant

/-!
# Workflow.Flow.Record — the persisted state of one flow

A record changes only through the operations below: completed steps and tasks are kept once each, a
second result of a task takes the place of the first, and empty log blocks are not kept.
-/

namespace Workflow

namespace Instant

def toJson (t : Instant) : Json := .string t.text

def ofJson? (j : Json) : Option Instant := (Json.text? j).bind ofText?

end Instant

/-- Log lines of one step, perhaps about one of its tasks. -/
structure StepLog where
  step : String
  task : Option TaskId
  entries : List LogEntry
  loggedAt : Instant
deriving DecidableEq, Inhabited

namespace StepLog

def toJson (l : StepLog) : Json :=
  .object (("step", .string l.step) :: Json.optionalMember "task_id" Id.toJson l.task
    ++ [("entries", .array (l.entries.map LogEntry.toJson)), ("logged_at", l.loggedAt.toJson)])

def ofJson? (j : Json) : Option StepLog :=
  match Json.members? ["step", "task_id", "entries", "logged_at"] j with
  | some [step, task, entries, loggedAt] => do
    some {
      step := ← step.required Json.text?
      task := ← task.orElse (Json.nullable? Id.ofJson?) none
      entries := ← entries.required (Json.list? LogEntry.ofJson?)
      loggedAt := ← loggedAt.required Instant.ofJson? }
  | _ => none

end StepLog

/-- The last error that a flow saw. -/
structure LastError where
  step : String
  message : String
  cause : Option String
deriving DecidableEq, Inhabited, Repr

namespace LastError

def toJson (e : LastError) : Json :=
  .object ([("step", .string e.step), ("message", .string e.message)]
    ++ Json.optionalMember "cause" .string e.cause)

def ofJson? (j : Json) : Option LastError :=
  match Json.members? ["step", "message", "cause"] j with
  | some [step, message, cause] => do
    some {
      step := ← step.required Json.text?
      message := ← message.required Json.text?
      cause := ← cause.orElse (Json.nullable? Json.text?) none }
  | _ => none

end LastError

/-- Everything that is known of a flow. -/
structure Record where
  flow : FlowId
  flowType : String
  currentStep : Option String
  state : FlowState
  result : FlowResult
  /-- Results per step in order of arrival, one per task. -/
  stepResults : Table String (List TaskResult)
  /-- Launched tasks per step in order of creation. -/
  stepTasks : Table String (List TaskId)
  log : List StepLog
  /-- Steps that took an edge, in order of completion. -/
  completedSteps : List String
  lastError : Option LastError
  createdAt : Instant
  updatedAt : Instant
deriving Inhabited, BEq

namespace Record

/-- A flow that has not started. -/
def create (flow : FlowId) (flowType : String) (now : Instant) : Record :=
  ⟨flow, flowType, none, .created, .unknown, .empty, .empty, [], [], none, now, now⟩

/-- Enter the running state; a flow without a current step is put on the first one. -/
def start (r : Record) (firstStep : String) : Record :=
  { r with currentStep := some (r.currentStep.getD firstStep), state := .running }

/-- Make `step` the current one. -/
def advanceTo (r : Record) (step : String) : Record := { r with currentStep := some step }

def pause (r : Record) : Record := { r with state := .paused }

def complete (r : Record) (result : FlowResult) : Record :=
  { r with state := .completed, result := result }

def setResult (r : Record) (result : FlowResult) : Record := { r with result := result }

/-- Note a completed step, once. -/
def markCompleted (r : Record) (step : String) : Record :=
  if step ∈ r.completedSteps then r
  else { r with completedSteps := r.completedSteps ++ [step] }

def isCompleted (r : Record) (step : String) : Bool := step ∈ r.completedSteps

/-- The tasks launched by a step. -/
def tasks (r : Record) (step : String) : List TaskId := (r.stepTasks.get? step).getD []

/-- The results of a step's tasks. -/
def results (r : Record) (step : String) : List TaskResult := (r.stepResults.get? step).getD []

/-- Note a launched task, once. -/
def recordTask (r : Record) (step : String) (task : TaskId) : Record :=
  let tasks := r.tasks step
  { r with stepTasks := r.stepTasks.put step (if task ∈ tasks then tasks else tasks ++ [task]) }

/-- Keep a task's result in the place of an earlier one. -/
def saveResult (r : Record) (step : String) (result : TaskResult) : Record :=
  { r with stepResults := r.stepResults.put step (result.store (r.results step)) }

/-- Keep log lines, if there are any. -/
def appendLog (r : Record) (step : String) (task : Option TaskId) (entries : List LogEntry)
    (at_ : Instant) : Record :=
  if entries.isEmpty then r else { r with log := r.log ++ [⟨step, task, entries, at_⟩] }

/-- The log of one step. -/
def logsOf (r : Record) (step : String) : List StepLog := r.log.filter (·.step = step)

def recordError (r : Record) (step message : String) (cause : Option String) : Record :=
  { r with lastError := some ⟨step, message, cause⟩ }

/-- Note the time of the latest change. -/
def touch (r : Record) (now : Instant) : Record := { r with updatedAt := now }

/-! ## Written form -/

def tableToJson {ν : Type} (write : ν → Json) (t : Table String (List ν)) : Json :=
  .object (t.entries.map fun e => (e.1, .array (e.2.map write)))

def tableOfJson? {ν : Type} (read : Json → Option ν) : Json → Option (Table String (List ν))
  | .object members => do
    let entries ← members.mapM fun m => (Json.list? read m.2).map (m.1, ·)
    some (Table.ofList entries)
  | _ => none

def toJson (r : Record) : Json :=
  .object ([("flow_id", r.flow.toJson), ("flow_type", .string r.flowType),
      ("current_step", Json.ofOption .string r.currentStep), ("state", r.state.toJson),
      ("result", r.result.toJson), ("step_results", tableToJson TaskResult.toJson r.stepResults),
      ("step_tasks", tableToJson Id.toJson r.stepTasks),
      ("log", .array (r.log.map StepLog.toJson)),
      ("completed_steps", .array (r.completedSteps.map .string))]
    ++ Json.optionalMember "last_error" LastError.toJson r.lastError
    ++ [("created_at", r.createdAt.toJson), ("updated_at", r.updatedAt.toJson)])

def ofJson? (j : Json) : Option Record :=
  match Json.members? ["flow_id", "flow_type", "current_step", "state", "result", "step_results",
      "step_tasks", "log", "completed_steps", "last_error", "created_at", "updated_at"] j with
  | some [flow, flowType, currentStep, state, result, stepResults, stepTasks, log, completedSteps,
      lastError, createdAt, updatedAt] => do
    some {
      flow := ← flow.required Id.ofJson?
      flowType := ← flowType.required Json.text?
      currentStep := ← currentStep.optional Json.text?
      state := ← state.required FlowState.ofJson?
      result := ← result.required FlowResult.ofJson?
      stepResults := ← stepResults.orElse (tableOfJson? TaskResult.ofJson?) .empty
      stepTasks := ← stepTasks.orElse (tableOfJson? Id.ofJson?) .empty
      log := ← log.orElse (Json.list? StepLog.ofJson?) []
      completedSteps := ← completedSteps.orElse (Json.list? Json.text?) []
      lastError := ← lastError.orElse (Json.nullable? LastError.ofJson?) none
      createdAt := ← createdAt.required Instant.ofJson?
      updatedAt := ← updatedAt.required Instant.ofJson? }
  | _ => none

/-- The record with other values for some members of its written form, if that can be read. -/
def overwrite? (r : Record) (members : List (String × Json)) : Option Record :=
  match r.toJson with
  | .object old => ofJson? (Json.object (old ++ members)).canonical
  | _ => none

end Record

end Workflow
