import Workflow.Step.Handler

/-!
# Workflow.Step.Listener — listening to the events of a step's tasks

A listener feeds events to a handler one at a time and tells what is to be recorded, until the
handler fails or gives an edge.  From then on it hears nothing: later events leave no trace.
-/

namespace Workflow

/-- What is to be recorded of a step's tasks. -/
inductive StepUpdate where
  | taskCreated (task : TaskId)
  | taskResult (result : TaskResult) (log : List LogEntry)
  | log (task : Option TaskId) (log : List LogEntry)
deriving Inhabited

/-- The decision of a handler: where the flow goes, or what went wrong. -/
abbrev Decision := Except FlowError Transition

/-- What came of one event. -/
structure Heard where
  handler : Handler
  updates : List StepUpdate
  decision : Option Decision

/-- The handler hears one event.  A result is recorded with the line that was logged for it, a
transition that is no edge with its log lines, and an edge or an error is the decision. -/
def Handler.hear (h : Handler) (event : TaskEvent) : Heard :=
  let created := match event with
    | .created task => [StepUpdate.taskCreated task]
    | _ => []
  match h.handle event with
  | (.error e, h) => ⟨h, created, some (.error e)⟩
  | (.ok t, h) =>
    let recorded := match event with
      | .result _ r => [StepUpdate.taskResult r t.log]
      | _ => if !t.isEdge && !t.log.isEmpty then [.log event.task? t.log] else []
    ⟨h, created ++ recorded, if t.isEdge then some (.ok t) else none⟩

/-- A listener and what it has decided. -/
structure Listener where
  handler : Handler
  decision : Option Decision

namespace Listener

/-- A listener that has heard nothing. -/
def ofHandler (h : Handler) : Listener := ⟨h, none⟩

def isDecided (l : Listener) : Bool := l.decision.isSome

/-- One event; a listener that has decided ignores it. -/
def hear (l : Listener) (event : TaskEvent) : Listener × List StepUpdate :=
  match l.decision with
  | some _ => (l, [])
  | none =>
    let heard := l.handler.hear event
    (⟨heard.handler, heard.decision⟩, heard.updates)

/-- A run of events, with all that is to be recorded of them. -/
def hearAll (l : Listener) : List TaskEvent → Listener × List StepUpdate
  | [] => (l, [])
  | event :: rest =>
    let (l, updates) := l.hear event
    let (l, more) := l.hearAll rest
    (l, updates ++ more)

end Listener

end Workflow
