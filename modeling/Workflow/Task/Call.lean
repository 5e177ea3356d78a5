import Workflow.Task.Policy

/-!
# Workflow.Task.Call — calls into tasks and monitors

A call takes some time, perhaps for ever, and then answers, fails, or breaks off.  A `Job` says what
its n-th attempt does, a `Monitor` what its n-th poll does.
-/

namespace Workflow

/-- How a call ends. -/
inductive Reply where
  | answer (r : Except TaskError TaskResult)
  /-- The call broke off, with the text it left behind. -/
  | broke (detail : String)

/-- What the caller makes of the end of a call: one that broke off has crashed. -/
def Reply.outcome : Reply → Except TaskError TaskResult
  | answer r => r
  | broke detail => .error (.crashed detail)

/-- The n-th element of a script, counted from 1; beyond its end the last one is used again. -/
def nthOf {α : Type} (script : List α) (n : Nat) : Option α := script[n - 1]?.or script.getLast?

/-- One call. -/
structure Call where
  /-- Milliseconds until it ends; none if it never does. -/
  time : Option Nat
  reply : Reply

namespace Call

/-- A call that succeeds at once. -/
def succeeds (task : TaskId) : Call := ⟨some 0, .answer (.ok (.success task))⟩

end Call

/-- One unit of remote work. -/
structure Job where
  id : TaskId
  policy : TaskPolicy
  /-- The n-th attempt, counted from 1. -/
  attempt : Nat → Call

instance : Inhabited Job := ⟨⟨default, default, fun _ => .succeeds default⟩⟩

/-- What a monitor does when it is asked for a poll. -/
inductive PollAttempt where
  | refused (error : TaskError)
  /-- The monitor itself breaks off. -/
  | broke (detail : String)
  | started (call : Call)

/-- How a poll-capable task is checked for progress. -/
structure Monitor where
  /-- Which monitor this is; polls are counted per monitor and task. -/
  key : List Nat
  policy : PollPolicy
  /-- The n-th poll of a task, counted from 1, after the latest answer. -/
  poll : Nat → TaskId → TaskResult → PollAttempt
  /-- What a successful answer means: a result, or none while the task is in progress.  The text is
  that of a monitor that breaks off. -/
  interpret : TaskId → TaskResult → Except String (Option TaskResult)

end Workflow
