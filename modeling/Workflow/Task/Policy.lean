import Workflow.Error
import Workflow.Text.Shown
import Workflow.Time.Span

/-!
# Workflow.Task.Policy — retries, deadlines, polling and fan-out limits

Each policy is read with a value of its own for every member that is left out.  `validate` names the
setting that no worker can run with.
-/

namespace Workflow

/-- Retry and deadline budget of a single task. -/
structure TaskPolicy where
  /-- Retries after the first attempt. -/
  maxRetry : UInt32
  /-- Delay in front of the first retry. -/
  retryDelayMs : UInt64
  /-- Deadline of the whole task from its first submission; 0 is none. -/
  timeoutMs : UInt64
  /-- Factor on the delay for every further retry. -/
  backoff : Double
deriving DecidableEq, Repr

namespace TaskPolicy

instance : Inhabited TaskPolicy := ⟨⟨0, 0, 0, Double.one⟩⟩

def hasTimeout (p : TaskPolicy) : Bool := p.timeoutMs ≠ 0

def timeout? (p : TaskPolicy) : Option Span :=
  if p.hasTimeout then some (.ofMs p.timeoutMs.toNat) else none

def retryDelay (p : TaskPolicy) : Span := .ofMs p.retryDelayMs.toNat

/-- The factor is a finite number of at least 1. -/
def validate (p : TaskPolicy) : Except PolicyError Unit :=
  if p.backoff.isFinite && p.backoff.atLeastOne then .ok () else .error (.backoff p.backoff)

def toJson (p : TaskPolicy) : Json :=
  .object [("max_retry", .ofNat p.maxRetry.toNat), ("retry_delay_ms", .ofNat p.retryDelayMs.toNat),
    ("timeout_ms", .ofNat p.timeoutMs.toNat), ("backoff_multiplier", .double p.backoff)]

/-- Members left out are those of `base`. -/
def ofJsonOver? (base : TaskPolicy) (j : Json) : Option TaskPolicy :=
  match Json.members? ["max_retry", "retry_delay_ms", "timeout_ms", "backoff_multiplier"] j with
  | some [maxRetry, retryDelay, timeout, backoff] => do
    some {
      maxRetry := ← maxRetry.orElse Json.word32? base.maxRetry
      retryDelayMs := ← retryDelay.orElse Json.word64? base.retryDelayMs
      timeoutMs := ← timeout.orElse Json.word64? base.timeoutMs
      backoff := ← backoff.orElse Json.number? base.backoff }
  | _ => none

def ofJson? (j : Json) : Option TaskPolicy := ofJsonOver? default j

end TaskPolicy

/-- Cadence and error budget of polling. -/
structure PollPolicy where
  intervalMs : UInt64
  /-- Failed polls that are forgiven. -/
  maxRetry : UInt32
deriving DecidableEq, Repr

namespace PollPolicy

instance : Inhabited PollPolicy := ⟨⟨1000, 0⟩⟩

def interval (p : PollPolicy) : Span := .ofMs p.intervalMs.toNat

def validate (p : PollPolicy) : Except PolicyError Unit :=
  if p.intervalMs = 0 then .error .zeroInterval else .ok ()

def toJson (p : PollPolicy) : Json :=
  .object [("monitor_interval_ms", .ofNat p.intervalMs.toNat),
    ("max_poll_retry", .ofNat p.maxRetry.toNat)]

def ofJson? (j : Json) : Option PollPolicy :=
  match Json.members? ["monitor_interval_ms", "max_poll_retry"] j with
  | some [interval, maxRetry] => do
    some {
      intervalMs := ← interval.orElse Json.word64? (default : PollPolicy).intervalMs
      maxRetry := ← maxRetry.orElse Json.word32? (default : PollPolicy).maxRetry }
  | _ => none

/-- The policy on one line. -/
def shown (p : PollPolicy) : String :=
  Text.shownRecord "MonitorOption" [("monitor_interval_ms", toString p.intervalMs.toNat),
    ("max_poll_retry", toString p.maxRetry.toNat)]

end PollPolicy

/-- How many tasks of a batch may run at once; none is all of them. -/
structure BatchPolicy where
  maxConcurrency : Option UInt64
deriving DecidableEq, Repr

namespace BatchPolicy

def unbounded : BatchPolicy := ⟨none⟩

instance : Inhabited BatchPolicy := ⟨unbounded⟩

def validate (p : BatchPolicy) : Except PolicyError Unit :=
  if p.maxConcurrency = some 0 then .error .zeroConcurrency else .ok ()

def toJson (p : BatchPolicy) : Json :=
  .object [("max_concurrency", Json.ofOption (fun n => .ofNat n.toNat) p.maxConcurrency)]

def ofJson? (j : Json) : Option BatchPolicy :=
  match Json.members? ["max_concurrency"] j with
  | some [maxConcurrency] => do
    some { maxConcurrency := ← maxConcurrency.orElse (Json.nullable? Json.word64?) none }
  | _ => none

end BatchPolicy

end Workflow
