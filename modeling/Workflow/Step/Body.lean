import Workflow.Step.Handler
import Workflow.Step.Properties
import Workflow.Flow.Record
import Workflow.Task.Batch

/-!
# Workflow.Step.Body — what a step does when the flow is on it

A step either answers with a transition at once, or launches tasks and answers with no edge; then
the handler of the launched tasks decides where the flow goes.  The executions of one step are
numbered by turns from 1 on, so that a step may do something else each time.
-/

namespace Workflow

/-- What a step sees: its own name, and the record as it was when the step's turn began. -/
structure StepContext where
  step : String
  record : Record

namespace StepContext

/-- How many results of a step are known. -/
def resultCount (c : StepContext) (step : String) : Nat := (c.record.results step).length

/-- What the step sees, on one line: its flow, how many results `source` has, how many steps are
completed, and whether it launches tasks itself. -/
def summary (c : StepContext) (source : String) (launches : Bool) : String :=
  c.step ++ " of " ++ c.record.flow.text ++ " (" ++ c.record.flowType ++ "): "
    ++ toString (c.resultCount source) ++ " result(s), " ++ toString c.record.completedSteps.length
    ++ " completed, launch " ++ Text.shownBool launches

end StepContext

/-- Tasks to launch, with the handler of their events. -/
structure StepLaunch where
  batch : Batch
  handler : Handler

/-- The answer of a step, perhaps with tasks to launch. -/
structure StepAnswer where
  outcome : Except FlowError Transition
  launch : Option StepLaunch

namespace StepAnswer

/-- An answer without tasks. -/
def plain (outcome : Except FlowError Transition) : StepAnswer := ⟨outcome, none⟩

/-- Tasks with no answer of the step's own. -/
def ofLaunch (batch : Batch) (handler : Handler) : StepAnswer := ⟨.ok .noop, some ⟨batch, handler⟩⟩

end StepAnswer

/-- One execution of a step. -/
structure StepWork where
  /-- Milliseconds until the step answers. -/
  delay : Nat
  /-- The answer, which may draw identifiers for tasks. -/
  answer : IdStream .task → StepAnswer × IdStream .task

/-- An execution that answers at once and draws nothing. -/
def StepWork.atOnce (answer : StepAnswer) : StepWork := ⟨0, (answer, ·)⟩

/-- Makes something for the given turn of a step, or fails. -/
abbrev Factory (α : Type) :=
  Nat → StepContext → IdStream .task → Except FlowError α × IdStream .task

/-- The ways a step can work. -/
inductive StepBody where
  /-- Always the same transition. -/
  | fixed (transition : Transition)
  | custom (work : Nat → StepContext → StepWork)
  /-- Tasks that are submitted. -/
  | tasks (make : Factory (List Task))
  /-- Tasks that are submitted and then polled. -/
  | polled (monitor : Monitor) (make : Factory (List Task))
  | batch (make : Factory Batch)

namespace StepBody

/-- Whether the step only launches tasks, so that its handler decides. -/
def isAsync : StepBody → Bool
  | fixed _ => false
  | custom _ => false
  | _ => true

/-- A batch of tasks of one kind. -/
def uniform (policy : BatchPolicy) (kind : WorkerKind) (make : Factory (List Task)) :
    Factory Batch := fun turn context ids =>
  match make turn context ids with
  | (.ok made, ids) =>
    let (launched, ids) := Batch.ofTasks policy (made.map (·, kind)) ids
    (.ok launched, ids)
  | (.error e, ids) => (.error e, ids)

/-- Launches what is made, with a handler that has heard nothing. -/
def launching (handler : Handler) (make : Factory Batch) (turn : Nat) (context : StepContext) :
    StepWork :=
  ⟨0, fun ids =>
    match make turn context ids with
    | (.ok made, ids) => (.ofLaunch made handler.fresh, ids)
    | (.error e, ids) => (.plain (.error e), ids)⟩

/-- One execution, with the limit and the handler of tasks that are launched. -/
def execute (policy : BatchPolicy) (handler : Handler) :
    StepBody → Nat → StepContext → StepWork
  | fixed t => fun _ _ => .atOnce (.plain (.ok t))
  | custom work => work
  | tasks make => launching handler (uniform policy .submit make)
  | polled monitor make => launching handler (uniform policy (.poll monitor) make)
  | batch make => launching handler make

end StepBody

/-- A step of a flow. -/
structure Step where
  properties : StepProperties
  body : StepBody
  /-- Reduces the results of launched tasks. -/
  handler : Handler
  /-- How many of the tasks may run at once. -/
  policy : BatchPolicy

namespace Step

def id (s : Step) : String := s.properties.id

/-- The steps that the body leads to, as far as this is known beforehand: the target of a fixed
transition, or the targets of the handler. -/
def declaredTargets (s : Step) : List String :=
  match s.body with
  | .fixed t => t.target.toList
  | .custom _ => []
  | _ => s.handler.routes.targets

/-- Every step that is known to be led to. -/
def targets (s : Step) : List String := s.properties.targets ++ s.declaredTargets

/-- The share of the flow's progress that the step stands for. -/
def weight (s : Step) : Nat := if s.properties.isErrorStep then 0 else s.properties.weight.toNat

/-- The given turn of the step. -/
def execute (s : Step) (turn : Nat) (record : Record) : StepWork :=
  s.body.execute s.policy s.handler turn ⟨s.id, record⟩

/-- The step on one line. -/
def shown (s : Step) : String :=
  Text.shownRecord "Step" [("properties", s.properties.shown),
    ("declared_targets", Text.shownList (s.declaredTargets.map Text.quoted))]

end Step

end Workflow
