import Workflow.Task.Result

/-!
# Workflow.Task.Event — what the workers of a batch tell the step that launched them
-/

namespace Workflow

/-- Life of a task as its step sees it. -/
inductive TaskEvent where
  /-- The task is with a worker and about to be submitted. -/
  | created (task : TaskId)
  /-- The task was accepted; polling starts. -/
  | submitted (task : TaskId)
  /-- The task's terminal result. -/
  | result (task : TaskId) (result : TaskResult)
  /-- Every task of the batch has delivered its terminal result. -/
  | completed
deriving Inhabited

namespace TaskEvent

def task? : TaskEvent → Option TaskId
  | created task => some task
  | submitted task => some task
  | result task _ => some task
  | completed => none

def kind : TaskEvent → String
  | created _ => "created"
  | submitted _ => "submitted"
  | result _ _ => "result"
  | completed => "completed"

end TaskEvent

end Workflow
