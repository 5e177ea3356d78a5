import Workflow.Error
import Workflow.Step.Transition
import Workflow.Task.Event
import Workflow.Text.Shown

/-!
# Workflow.Step.Handler — reducing the results of a step's tasks to one transition

`Routes` say where each status leads.  The most severe of the results decides, the first of several
equally severe ones: its status is looked up, an error that is not mapped is an aggregation error,
and anything else that is not mapped takes the default.  A handler keeps one result per task and may
have a processor of its own in the place of this reduction.
-/

namespace Workflow

/-- Where results lead. -/
structure Routes where
  mapping : Status → Option Transition
  fallback : Option Transition

namespace Routes

def empty : Routes := ⟨fun _ => none, none⟩

instance : Inhabited Routes := ⟨empty⟩

/-- Maps statuses to a transition. -/
def mapTo (r : Routes) (t : Transition) (statuses : List Status) : Routes :=
  { r with mapping := fun s => if s ∈ statuses then some t else r.mapping s }

/-- Maps a status that is not mapped yet. -/
def mapIfUnmapped (r : Routes) (status : Status) (t : Transition) : Routes :=
  { r with mapping := fun s => if s = status then (r.mapping s).or (some t) else r.mapping s }

/-- Sets the default, unless there is one. -/
def orDefault (r : Routes) (t : Transition) : Routes :=
  { r with fallback := r.fallback.or (some t) }

/-- Takes over the mappings of `other`, and its default if it has one. -/
def merge (r other : Routes) : Routes :=
  ⟨fun s => (other.mapping s).or (r.mapping s), other.fallback.or r.fallback⟩

/-- Success leads to one step, everything else to another with a failed flow. -/
def onResult (onSuccess onElse : String) : Routes :=
  let other := (Transition.runTo onElse).withResult .failed
  let routes : Routes := ⟨fun _ => none, some other⟩
  (routes.mapTo other Status.all).mapTo (.runTo onSuccess) [.success]

/-- Success leads to one step; failed, timeout and canceled to another. -/
def mapResult (r : Routes) (onSuccess onElse : String) : Routes :=
  (r.mapTo (.runTo onSuccess) [.success]).mapTo (.runTo onElse) [.failed, .timeout, .canceled]

/-- The default, or to stay. -/
def default (r : Routes) : Transition := r.fallback.getD .noop

/-- The transitions that a result may lead to. -/
def transitions (r : Routes) : List Transition :=
  Status.all.filterMap r.mapping ++ r.fallback.toList

/-- Every step that a result may lead to, sorted and once each. -/
def targets (r : Routes) : List String :=
  ((r.transitions.filterMap Transition.target).mergeSort fun a b => !(b < a)).eraseReps

/-- The most severe of the results, the first of several equally severe ones. -/
def worst : List TaskResult → Option TaskResult :=
  List.foldl (fun worst r =>
    match worst with
    | none => some r
    | some w => if r.moreSevere w then some r else some w) none

/-- The transition that the results lead to. -/
def reduce (routes : Routes) (results : List TaskResult) : Except FlowError Transition :=
  match worst results with
  | none => .ok routes.default
  | some r =>
    match routes.mapping r.status with
    | some t => .ok (t.withLog r.messageOrEmpty r.cause)
    | none =>
      if r.isError then .error (.aggregation r.status r.messageOrEmpty r.cause)
      else .ok routes.default

end Routes

/-- What may take the place of the reduction by severity. -/
abbrev Processor := Routes → List TaskResult → Except FlowError Transition

namespace Processor

/-- With more than half of the results a success the flow is led to one step, otherwise it has
failed and is led to another. -/
def quorum (won lost : String) : Processor := fun _ results =>
  let votes := results.countP (·.status = .success)
  .ok (if results.length < 2 * votes then
      (Transition.runTo won).withLog (toString votes ++ " votes") none
    else (Transition.runTo lost).withResult .failed)

end Processor

/-- How a step reacts to the events of its tasks. -/
structure Handler where
  routes : Routes
  processor : Option Processor
  /-- Results in order of arrival, one per task. -/
  results : List TaskResult

namespace Handler

def ofRoutes (routes : Routes) : Handler := ⟨routes, none, []⟩

def empty : Handler := ofRoutes .empty

instance : Inhabited Handler := ⟨empty⟩

/-- Takes over the routes of `other`, and its processor if it has one. -/
def merge (h other : Handler) : Handler :=
  { h with routes := h.routes.merge other.routes, processor := other.processor.or h.processor }

/-- The same configuration without results. -/
def fresh (h : Handler) : Handler := { h with results := [] }

/-- The transition that results lead to. -/
def decide (h : Handler) (results : List TaskResult) : Except FlowError Transition :=
  match h.processor with
  | some processor => processor h.routes results
  | none => h.routes.reduce results

/-- The reaction to one event. -/
def handle (h : Handler) : TaskEvent → Except FlowError Transition × Handler
  | .created _ => (.ok .noop, h)
  | .submitted task => (.ok (.logOnly ("task " ++ task.text ++ " submitted") none), h)
  | .result _ r =>
    (.ok (.logOnly (r.status.name ++ ": " ++ r.messageOrEmpty) r.cause),
      { h with results := r.store h.results })
  | .completed => (h.decide h.results, h)

/-! ## Shown on one line -/

end Handler

def LogEntry.shown (e : LogEntry) : String :=
  Text.shownRecord "LogEntry" [("message", Text.quoted e.message),
    ("detail", Text.shownOption (e.detail.map Text.quoted))]

def Transition.shown (t : Transition) : String :=
  Text.shownRecord "StepTransition" [("target_step", Text.shownOption (t.target.map Text.quoted)),
    ("flow_state", Text.shownOption (t.state.map FlowState.name)),
    ("flow_result", Text.shownOption (t.result.map FlowResult.name)),
    ("log", Text.shownList (t.log.map LogEntry.shown)), ("is_edge", Text.shownBool t.isEdge)]

def Handler.shown (h : Handler) : String :=
  let mapping := Status.all.filterMap fun s =>
    (h.routes.mapping s).map fun t => (s.name, t.shown)
  Text.shownRecord "StepCallbackHandler" [("mapping", Text.shownTable mapping),
    ("default", Text.shownOption (h.routes.fallback.map Transition.shown)),
    ("custom_processor", Text.shownBool h.processor.isSome),
    ("results", toString h.results.length)]

end Workflow
