import Workflow.Step.Body

/-!
# Workflow.Step.Draft — a step before it is checked

A draft becomes a step if it has a name, a limit that a batch can run with, and a body; its handler
is completed by the step's settings.  `BuildError` also names what can be wrong between steps.
-/

namespace Workflow

/-- Why a step or a flow definition is refused. -/
inductive BuildError where
  | noSteps (flowType : String)
  | emptyStepId
  | missingExecution (step : String)
  | duplicateStep (step : String)
  | multipleFirstSteps (steps : List String)
  | unknownTarget (step target : String)
  | invalidPolicy (step : String) (error : PolicyError)
deriving DecidableEq, Inhabited, Repr

namespace BuildError

/-- The name of the kind of error. -/
def kind : BuildError → String
  | noSteps _ => "NoSteps"
  | emptyStepId => "EmptyStepId"
  | missingExecution _ => "MissingExecution"
  | duplicateStep _ => "DuplicateStep"
  | multipleFirstSteps _ => "MultipleFirstSteps"
  | unknownTarget _ _ => "UnknownTarget"
  | invalidPolicy _ _ => "InvalidOption"

def message : BuildError → String
  | noSteps flowType => "Flow '" ++ flowType ++ "' declares no steps."
  | emptyStepId => "A step was declared with an empty id."
  | missingExecution step => "Step '" ++ step ++ "' has no execution. Use run_to, park_in_state, "
    ++ "execute or one of the execute_async_* methods."
  | duplicateStep step => "Step '" ++ step ++ "' is declared more than once."
  | multipleFirstSteps steps =>
    "More than one step is flagged as first step: " ++ Text.shownList (steps.map Text.quoted) ++ "."
  | unknownTarget step target =>
    "Step '" ++ step ++ "' refers to unknown step '" ++ target ++ "'."
  | invalidPolicy step error =>
    "Step '" ++ step ++ "' has an invalid option: " ++ (FlowError.ofPolicy error).message

end BuildError

/-- A step as it is declared. -/
structure StepDraft where
  properties : StepProperties
  body : Option StepBody
  handler : Option Handler
  policy : BatchPolicy

namespace StepDraft

def ofProperties (properties : StepProperties) : StepDraft := ⟨properties, none, none, .unbounded⟩

def named (id : String) : StepDraft := ofProperties (.named id)

/-- The draft with changed settings. -/
def adjust (d : StepDraft) (change : StepProperties → StepProperties) : StepDraft :=
  { d with properties := change d.properties }

def describe (d : StepDraft) (desc : String) : StepDraft := d.adjust ({ · with desc := desc })

def weigh (d : StepDraft) (weight : UInt32) : StepDraft := d.adjust ({ · with weight := weight })

def logging (d : StepDraft) (keep : Bool) : StepDraft := d.adjust ({ · with logging := keep })

def asFirst (d : StepDraft) : StepDraft := d.adjust ({ · with firstStep := true })

def asErrorStep (d : StepDraft) : StepDraft := d.adjust ({ · with isErrorStep := true })

def onSuccess (d : StepDraft) (step : String) : StepDraft :=
  d.adjust ({ · with onSuccess := some step })

def onElse (d : StepDraft) (step : String) : StepDraft := d.adjust ({ · with onElse := some step })

/-- Errors of the step lead to another one. -/
def onException (d : StepDraft) (step : String) : StepDraft :=
  d.adjust ({ · with onException := some step })

/-- The draft with a body, in the place of an earlier one. -/
def withBody (d : StepDraft) (body : StepBody) : StepDraft := { d with body := some body }

def runTo (d : StepDraft) (step : String) : StepDraft := d.withBody (.fixed (.runTo step))

def park (d : StepDraft) (state : FlowState) (result : FlowResult) (message : Option String) :
    StepDraft := d.withBody (.fixed (.park state result message))

/-- Sets the handler, or merges one into the handler that is set. -/
def callback (d : StepDraft) (handler : Handler) : StepDraft :=
  { d with handler := some (match d.handler with
    | some h => h.merge handler
    | none => handler) }

/-- Success leads to one step, everything else to another with a failed flow. -/
def onResult (d : StepDraft) (onSuccess onElse : String) : StepDraft :=
  d.callback (.ofRoutes (.onResult onSuccess onElse))

def withPolicy (d : StepDraft) (policy : BatchPolicy) : StepDraft := { d with policy := policy }

/-- Routes completed by settings: where a status is not mapped, success leads to `onSuccess`, and
everything else to `onElse` with a failed flow. -/
def completeRoutes (p : StepProperties) (r : Routes) : Routes :=
  let r := match p.onSuccess with
    | some step => r.mapIfUnmapped .success (.runTo step)
    | none => r
  match p.onElse with
  | some step =>
    let t := (Transition.runTo step).withResult .failed
    (Status.all.filter (· ≠ .success)).foldl (·.mapIfUnmapped · t) r
  | none => r

/-- The handler of the step's tasks. -/
def completeHandler (d : StepDraft) : Handler :=
  let h := d.handler.getD .empty
  { h with routes := completeRoutes d.properties h.routes }

/-- The step of a draft. -/
def build (d : StepDraft) : Except BuildError Step :=
  let id := d.properties.id
  if id.isEmpty then .error .emptyStepId
  else
    match d.policy.validate with
    | .error e => .error (.invalidPolicy id e)
    | .ok _ =>
      match d.body with
      | none => .error (.missingExecution id)
      | some body => .ok ⟨d.properties, body, d.completeHandler, d.policy⟩

end StepDraft

end Workflow
