import Workflow.Task.Batch
import Workflow.Task.Event
import Workflow.Worker.Retry

/-!
# Workflow.Worker.Machine — one worker, from submission to its only result

A worker submits its job until an attempt succeeds or the retry budget is used up, then, if its job
is polled, polls until the monitor has a complete result or the budget of the polls is used up.  A
deadline may cut all of it short.  The machine is pure: `start` and `react` say which events it
reports and what it waits for next; a signal that it does not wait for changes nothing.
-/

namespace Workflow

namespace Worker

/-- What a worker waits for.  Failures and polls are counted exactly: which of these numbers fit
into 32 bits is said in `Workflow.Proofs.Worker.Counters`, and that the upper bits of the number of
polls are of no account in `Workflow.Proofs.Worker.PollNumbers`. -/
inductive Phase where
  /-- The answer to an attempt, after so many failed ones. -/
  | calling (failures : Nat)
  /-- The end of the delay in front of the next attempt. -/
  | backingOff (failures : Nat) (delay : Span)
  /-- The outcome of poll number `polls`, which was asked for after the answer `last`. -/
  | polling (last : TaskResult) (failures polls : Nat)
  /-- The end of the interval in front of the next poll. -/
  | resting (last : TaskResult) (failures polls : Nat)
  | done (result : TaskResult)

/-- How a poll ended. -/
inductive PollOutcome where
  /-- No poll was made, or it gave no answer. -/
  | failed (error : TaskError)
  /-- An answer, and what the monitor made of it if it is no error. -/
  | answered (answer : TaskResult) (verdict : Option TaskResult)

/-- What reaches a worker. -/
inductive Signal where
  /-- The attempt has ended. -/
  | answered (outcome : Except TaskError TaskResult)
  /-- The delay or interval is over. -/
  | elapsed
  | polled (outcome : PollOutcome)
  /-- The monitor broke off and took the worker with it. -/
  | monitorBroke (detail : String)
  /-- The deadline has passed. -/
  | expired

end Worker

open Worker in
/-- A worker at its job. -/
structure Worker where
  task : TaskId
  policy : TaskPolicy
  /-- The policy of the monitor, if the job is polled. -/
  pollPolicy : Option PollPolicy
  phase : Phase

namespace Worker

/-- The worker's result, once it has one. -/
def result? (w : Worker) : Option TaskResult :=
  match w.phase with
  | .done r => some r
  | _ => none

/-- The worker in another phase, reporting nothing. -/
def goto (w : Worker) (phase : Phase) : Worker × List TaskEvent := ({ w with phase := phase }, [])

/-- The worker done, reporting its result. -/
def finish (w : Worker) (r : TaskResult) : Worker × List TaskEvent :=
  ({ w with phase := .done r }, [.result w.task r])

/-- A worker reports the task and makes its first attempt, unless the policy allows none. -/
def start (launch : Launch) : Worker × List TaskEvent :=
  let job := launch.job
  let pollPolicy := match launch.kind with
    | .submit => none
    | .poll monitor => some monitor.policy
  let w : Worker := ⟨job.id, job.policy, pollPolicy, .calling 0⟩
  match job.policy.validate with
  | .ok _ => (w, [.created job.id])
  | .error e =>
    let (w, events) := w.finish (.failed job.id (FlowError.ofPolicy e).message)
    (w, .created job.id :: events)

/-- After an answer without error: the result, or the first poll. -/
def accepted (w : Worker) (answer : TaskResult) : Worker × List TaskEvent :=
  let answer := { answer with task := w.task }
  match w.pollPolicy with
  | none => w.finish answer
  | some p =>
    let (w, events) := match p.validate with
      | .ok _ => w.goto (.polling answer 0 1)
      | .error e => w.finish (.failed w.task (FlowError.ofPolicy e).message)
    (w, .submitted w.task :: events)

/-- After a failed attempt, the last of `failures`, with the cause that its answer gave. -/
def attemptFailed (w : Worker) (failures : Nat) (error : String) (cause : Option String) :
    Worker × List TaskEvent :=
  match (RetryBudget.forRequest w.policy).decide failures error with
  | .retry delay _ => w.goto (.backingOff failures delay)
  | .giveUp reason => w.finish ((TaskResult.failed w.task reason).withCause (cause.getD error))

/-- After a failed poll, the last of `failures`. -/
def pollFailed (w : Worker) (p : PollPolicy) (last : TaskResult) (failures polls : Nat)
    (error : String) : Worker × List TaskEvent :=
  match (RetryBudget.forPoll p).decide failures error with
  | .retry _ _ => w.goto (.resting last failures polls)
  | .giveUp reason => w.finish ((TaskResult.failed w.task reason).withCause error)

/-- After a poll. -/
def polled (w : Worker) (p : PollPolicy) (last : TaskResult) (failures polls : Nat) :
    PollOutcome → Worker × List TaskEvent
  | .failed e => w.pollFailed p last (failures + 1) polls e.message
  | .answered answer verdict =>
    if answer.isError then w.pollFailed p last (failures + 1) polls answer.errorText
    else
      match verdict with
      | some r =>
        if r.isComplete then w.finish { r with task := w.task }
        else w.goto (.resting answer failures polls)
      | none => w.goto (.resting answer failures polls)

/-- The result of a worker whose deadline has passed. -/
def timedOut (w : Worker) : TaskResult :=
  .timeout w.task ("task timed out after " ++ toString w.policy.timeoutMs.toNat ++ " ms")

/-- The worker after a signal, and the events that it reports. -/
def react (w : Worker) (signal : Signal) : Worker × List TaskEvent :=
  match w.phase, signal with
  | .done _, _ => (w, [])
  | _, .expired => if w.policy.hasTimeout then w.finish w.timedOut else (w, [])
  | .calling failures, .answered (.ok answer) =>
    if answer.isError then w.attemptFailed (failures + 1) answer.errorText answer.cause
    else w.accepted answer
  | .calling failures, .answered (.error e) => w.attemptFailed (failures + 1) e.message none
  | .backingOff failures _, .elapsed => w.goto (.calling failures)
  | .polling last failures polls, .polled outcome =>
    match w.pollPolicy with
    | some p => w.polled p last failures polls outcome
    | none => (w, [])
  | .polling _ _ _, .monitorBroke detail =>
    w.finish (.failed w.task (TaskError.crashed detail).message)
  | .resting last failures polls, .elapsed => w.goto (.polling last failures (polls + 1))
  | _, _ => (w, [])

end Worker

end Workflow
