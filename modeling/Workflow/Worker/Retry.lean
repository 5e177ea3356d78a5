import Workflow.Task.Policy

/-!
# Workflow.Worker.Retry — what to do after a failed attempt

A budget is a pure function of the number of failures so far, so one type serves submission and
polling, each with a count of its own.  The delay grows geometrically up to a cap.
-/

namespace Workflow

/-- The phase of a worker that a failure belongs to. -/
inductive RetryPhase where
  | request
  | poll
deriving DecidableEq, Repr

def RetryPhase.name : RetryPhase → String
  | request => "request"
  | poll => "poll"

/-- The next action after a failure. -/
inductive RetryDecision where
  /-- Try again after a delay. -/
  | retry (delay : Span) (reason : String)
  /-- The budget is used up. -/
  | giveUp (reason : String)
deriving DecidableEq, Repr

/-- Retries of one phase. -/
structure RetryBudget where
  phase : RetryPhase
  /-- Retries after the first attempt. -/
  maxRetry : UInt32
  /-- Delay in front of the first retry. -/
  base : Span
  /-- Factor on the delay for every further retry. -/
  multiplier : Double

namespace RetryBudget

def forRequest (p : TaskPolicy) : RetryBudget := ⟨.request, p.maxRetry, p.retryDelay, p.backoff⟩

/-- Failed polls are retried at the pace of polling. -/
def forPoll (p : PollPolicy) : RetryBudget := ⟨.poll, p.maxRetry, p.interval, Double.one⟩

/-- No delay grows beyond an hour. -/
def maxDelay : Span := .ofSecs 3600

/-- The factor in use: one below 1 or not finite counts as 1. -/
def growth (b : RetryBudget) : Double :=
  if b.multiplier.isFinite && b.multiplier.atLeastOne then b.multiplier else Double.one

/-- Delay in front of the retry that follows the `failures`-th failure:
`base * growth ^ (failures - 1)`, capped at an hour, or at the base delay if that is longer. -/
def nextDelay (b : RetryBudget) (failures : Nat) : Span :=
  let exponent := min (failures - 1) (Nat.pow 2 31 - 1)
  let cap := max maxDelay b.base
  match Span.ofSeconds? (b.base.toSeconds.mul (b.growth.pow exponent)) with
  | some delay => min delay cap
  | none => cap

/-- The decision after the `failures`-th failure of the phase, counted from 1. -/
def decide (b : RetryBudget) (failures : Nat) (lastError : String) : RetryDecision :=
  if b.maxRetry.toNat < failures then
    .giveUp (b.phase.name ++ " retry limit reached, last error: " ++ lastError)
  else
    let delay := b.nextDelay failures
    .retry delay (b.phase.name ++ " retry " ++ toString failures ++ "/" ++ toString b.maxRetry.toNat
      ++ " after " ++ delay.shown ++ ": " ++ lastError)

end RetryBudget

end Workflow
