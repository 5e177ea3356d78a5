import Workflow.Flow.State
import Workflow.Number.Decimal
import Workflow.Task.Result

/-!
# Workflow.Error — what can go wrong, and how it is told

Every error is a cause; `message` gives its wording.  A task's error never leaves its worker, a
store or lock error becomes a flow error, and a flow error is routed by the step in which it arose.
-/

namespace Workflow

/-- Why a task or a poll gave no result. -/
inductive TaskError where
  | execution (detail : String)
  | unsupported (detail : String)
  /-- The call broke off instead of answering. -/
  | crashed (detail : String)
deriving DecidableEq, Inhabited, Repr

def TaskError.message : TaskError → String
  | execution detail => "task execution failed: " ++ detail
  | unsupported detail => "operation not supported: " ++ detail
  | crashed detail => "task worker crashed: " ++ detail

/-- Why a store did not answer. -/
inductive StoreError where
  | unavailable (detail : String)
  | operationFailed (detail : String)
deriving DecidableEq, Inhabited, Repr

def StoreError.message : StoreError → String
  | unavailable detail => "store unavailable: " ++ detail
  | operationFailed detail => "store operation failed: " ++ detail

/-- Why a lease was not given or taken back. -/
inductive LockError where
  | held (flow : FlowId)
  | backend (detail : String)
deriving DecidableEq, Inhabited, Repr

def LockError.message : LockError → String
  | held flow => "flow " ++ flow.text ++ " is locked by another runner"
  | backend detail => "lock service failed: " ++ detail

/-- Why a setting is refused. -/
inductive PolicyError where
  | backoff (multiplier : Double)
  | zeroInterval
  | zeroConcurrency
deriving DecidableEq, Inhabited, Repr

def PolicyError.message : PolicyError → String
  | backoff multiplier =>
    "backoff_multiplier must be a finite number >= 1.0, got " ++ multiplier.plain
  | zeroInterval => "monitor_interval_ms must be greater than 0"
  | zeroConcurrency => "max_concurrency must be greater than 0"

/-- Why a flow cannot do what is asked of it in its state. -/
inductive StateFault where
  /-- A step's own complaint. -/
  | other (detail : String)
  | notCreated (flow : FlowId) (state : FlowState)
  | alreadyRunning (flow : FlowId)
  | neverStarted (flow : FlowId)
  | alreadySucceeded (flow : FlowId)
  | cannotPause (flow : FlowId) (state : FlowState)
  | mustPauseFirst (flow : FlowId)
  | noCurrentStep (flow : FlowId)
  /-- Every task reported, and there was no edge to take. -/
  | noTransition (step : String)
  /-- An edge that leads nowhere and ends nothing. -/
  | aimlessEdge (step : String)
  | otherType (flow : FlowId) (stored expected : String)
deriving DecidableEq, Inhabited, Repr

def StateFault.message : StateFault → String
  | other detail => detail
  | notCreated flow state => "flow " ++ flow.text ++ " is " ++ state.name ++ ", expected Created"
  | alreadyRunning flow => "flow " ++ flow.text ++ " is already running"
  | neverStarted flow => "flow " ++ flow.text ++ " was never started"
  | alreadySucceeded flow => "flow " ++ flow.text ++ " already completed successfully"
  | cannotPause flow state => "cannot pause flow " ++ flow.text ++ " in state " ++ state.name
  | mustPauseFirst flow => "pause flow " ++ flow.text ++ " before moving it"
  | noCurrentStep flow => "running flow " ++ flow.text ++ " has no current step"
  | noTransition step => "tasks of step '" ++ step ++ "' finished without a transition"
  | aimlessEdge step =>
    "step '" ++ step ++ "' returned an edge with neither a target step nor a final state"
  | otherType flow stored expected =>
    "flow " ++ flow.text ++ " is a '" ++ stored ++ "' flow, not '" ++ expected ++ "'"

/-- What a step, an aggregation or a collaborator of a flow can fail with. -/
inductive FlowError where
  | stepNotFound (step : String)
  | noSuchFlow (flow : FlowId)
  /-- Raised by the logic of a step. -/
  | stepFailed (step detail : String)
  /-- The most severe result was an error and nothing is mapped to its status. -/
  | aggregation (status : Status) (detail : String) (cause : Option String)
  | invalidState (fault : StateFault)
  | config (detail : String)
  | store (error : StoreError)
  | lock (error : LockError)
deriving DecidableEq, Inhabited, Repr

namespace FlowError

/-- The name of the kind of error. -/
def kind : FlowError → String
  | stepNotFound _ => "StepNotFound"
  | noSuchFlow _ => "NoSuchFlow"
  | stepFailed _ _ => "StepExecution"
  | aggregation _ _ _ => "Aggregation"
  | invalidState _ => "InvalidState"
  | config _ => "Config"
  | store _ => "Store"
  | lock _ => "Lock"

def message : FlowError → String
  | stepNotFound step => "step not found: " ++ step
  | noSuchFlow flow => "no such flow: " ++ flow.text
  | stepFailed step detail => "step '" ++ step ++ "' failed: " ++ detail
  | aggregation status detail _ => status.name ++ " result with no matching transition: " ++ detail
  | invalidState fault => "invalid flow state: " ++ fault.message
  | config detail => "invalid configuration: " ++ detail
  | store error => error.message
  | lock error => error.message

/-- The detail behind the message that a record keeps. -/
def cause : FlowError → Option String
  | aggregation _ _ cause => cause
  | _ => none

/-- A refused setting. -/
def ofPolicy (error : PolicyError) : FlowError := config error.message

end FlowError

end Workflow
