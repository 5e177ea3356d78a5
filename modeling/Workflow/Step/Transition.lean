import Workflow.Flow.State

/-!
# Workflow.Step.Transition — where a step leads, with the log lines written on the way

An edge moves the flow to a step or puts it into a state; a transition that is no edge leaves it
where it is and may still carry log lines.
-/

namespace Workflow

/-- One log line. -/
structure LogEntry where
  message : String
  detail : Option String
deriving DecidableEq, Inhabited, Repr

namespace LogEntry

def toJson (e : LogEntry) : Json :=
  .object (("message", .string e.message) :: Json.optionalMember "detail" .string e.detail)

def ofJson? (j : Json) : Option LogEntry :=
  match Json.members? ["message", "detail"] j with
  | some [message, detail] => do
    some {
      message := ← message.required Json.text?
      detail := ← detail.orElse (Json.nullable? Json.text?) none }
  | _ => none

end LogEntry

/-- What a step or the handler of its tasks answers. -/
structure Transition where
  target : Option String
  state : Option FlowState
  result : Option FlowResult
  log : List LogEntry
  isEdge : Bool
deriving DecidableEq, Repr

namespace Transition

/-- Stay, and write nothing. -/
def noop : Transition := ⟨none, none, none, [], false⟩

instance : Inhabited Transition := ⟨noop⟩

/-- Move to a step. -/
def runTo (step : String) : Transition := ⟨some step, none, none, [], true⟩

/-- Stop in a state with a result. -/
def park (state : FlowState) (result : FlowResult) (message : Option String) : Transition :=
  ⟨none, some state, some result, message.toList.map (⟨·, none⟩), true⟩

/-- Stay, and write one line. -/
def logOnly (message : String) (detail : Option String) : Transition :=
  { noop with log := [⟨message, detail⟩] }

def withResult (t : Transition) (result : FlowResult) : Transition :=
  { t with result := some result }

/-- One more log line. -/
def withLog (t : Transition) (message : String) (detail : Option String) : Transition :=
  { t with log := t.log ++ [⟨message, detail⟩] }

/-- Whether the flow is over once the transition is taken. -/
def completesFlow (t : Transition) : Bool := t.state = some .completed

def toJson (t : Transition) : Json :=
  .object ([("target_step", Json.ofOption .string t.target),
      ("flow_state", Json.ofOption FlowState.toJson t.state),
      ("flow_result", Json.ofOption FlowResult.toJson t.result)]
    ++ (if t.log.isEmpty then [] else [("log", .array (t.log.map LogEntry.toJson))])
    ++ [("is_edge", .bool t.isEdge)])

def ofJson? (j : Json) : Option Transition :=
  match Json.members? ["target_step", "flow_state", "flow_result", "log", "is_edge"] j with
  | some [target, state, result, log, isEdge] => do
    some {
      target := ← target.optional Json.text?
      state := ← state.optional FlowState.ofJson?
      result := ← result.optional FlowResult.ofJson?
      log := ← log.orElse (Json.list? LogEntry.ofJson?) []
      isEdge := ← isEdge.required Json.flag? }
  | _ => none

end Transition

end Workflow
