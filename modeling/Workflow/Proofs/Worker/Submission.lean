import Mathlib.Data.Nat.Find
import Workflow.Proofs.Worker.Termination

/-!
# Workflow.Proofs.Worker.Submission — how often a job is attempted, and what comes of it

A worker that nobody disturbs makes one attempt after the other until one succeeds or the retries of
its job are used up.  `Job.Submits` says how many attempts that takes and which result it gives,
`Job.attemptStart` and `Job.attemptEnd` when each of them takes place.  The main statement is
`submission_phase`: the whole run of a worker is what these say.
-/

namespace Workflow

/-! ### A worker alone -/

/-- A worker alone, the polls that were asked for so far, and all that has happened. -/
structure Alone where
  worker : TimedWorker
  counts : PollCounts
  past : Timeline

/-- A launch whose worker starts now, after whatever has happened. -/
def Launch.alone (l : Launch) (now : Nat) (counts : PollCounts) (past : Timeline) : Alone :=
  ⟨(TimedWorker.start l now).1, counts, past.extend now (TimedWorker.start l now).2 []⟩

namespace Alone

/-- What has come of the worker once everything has happened that is due before `limit`, in at most
`fuel` steps. -/
def run (x : Alone) (limit fuel : Nat) : TimedWorker × Timeline :=
  x.worker.run limit fuel x.counts x.past

/-- The worker comes from one state to another, and all that happens on the way is due at a time or
before. -/
def Reaches (time : Nat) (x y : Alone) : Prop :=
  ∃ n, ∀ limit fuel, time < limit → x.run limit (fuel + n) = y.run limit fuel

/-- What a timer that has fired leaves. -/
def ofFired (now : Nat) (past : Timeline) (f : TimedWorker.Fired) : Alone :=
  ⟨f.worker, f.counts, past.extend now f.events f.trace⟩

variable {x y z : Alone} {time later now : Nat}

theorem Reaches.refl (x : Alone) (time : Nat) : x.Reaches time x := ⟨0, fun _ _ _ => rfl⟩

theorem Reaches.trans (h : x.Reaches time y) (hle : time ≤ later) (h' : y.Reaches later z) :
    x.Reaches later z := by
  obtain ⟨n, hn⟩ := h
  obtain ⟨m, hm⟩ := h'
  refine ⟨m + n, fun limit fuel before => ?_⟩
  rw [← Nat.add_assoc, hn limit (fuel + m) (by omega), hm limit fuel before]

/-- One step: what is due next happens. -/
theorem reaches_fire (due : x.worker.due = some now) :
    x.Reaches now (ofFired now x.past (x.worker.fire now x.counts)) := by
  refine ⟨1, fun limit fuel before => ?_⟩
  simp only [run, TimedWorker.run, due, if_neg (Nat.not_le_of_lt before)]
  rfl

/-- A worker to which nothing more happens stays as it is. -/
theorem run_of_not_due (h : x.worker.due = none) (limit fuel : Nat) :
    x.run limit fuel = (x.worker, x.past) := by
  cases fuel with
  | zero => rfl
  | succ fuel => simp only [run, TimedWorker.run, h]

/-- Once a worker has come to an end nothing more happens. -/
theorem Reaches.run_eq (h : x.Reaches time y) (ended : y.worker.due = none) :
    ∃ n, ∀ limit fuel, time < limit → n ≤ fuel → x.run limit fuel = (y.worker, y.past) := by
  obtain ⟨n, hn⟩ := h
  refine ⟨n, fun limit fuel before enough => ?_⟩
  rw [show fuel = fuel - n + n by omega, hn limit _ before, run_of_not_due ended]

end Alone

namespace Timeline

variable (past : Timeline) (now : Nat)

theorem extend_nil : past.extend now [] [] = past := by
  simp [extend]

theorem extend_trace (later : Nat) (events : List TaskEvent) (trace more : List TraceEntry) :
    (past.extend now [] trace).extend later events more =
      past.extend later events (trace ++ more) := by
  simp [extend]

end Timeline

/-! ### Attempts -/

theorem TaskResult.isError_iff (r : TaskResult) : r.isError = true ↔ r.status ≠ .success := by
  simp [isError, Status.isError]

namespace Reply

/-- The answer of a call that has succeeded. -/
def success? (r : Reply) : Option TaskResult :=
  match r.outcome with
  | .ok result => if result.status = .success then some result else none
  | .error _ => none

/-- What is said of a call that has failed: the message of its answer, or the name of its status
where there is none, or the text of its error. -/
def reason (r : Reply) : String :=
  match r.outcome with
  | .ok result => result.message.getD result.status.name
  | .error e => e.message

/-- The cause that the answer of a call has given. -/
def cause? (r : Reply) : Option String :=
  match r.outcome with
  | .ok result => result.cause
  | .error _ => none

theorem status_of_success {r : Reply} {result : TaskResult} (h : r.success? = some result) :
    result.status = .success := by
  unfold success? at h
  split at h
  · simp only [Option.ite_none_right_eq_some, Option.some.injEq] at h
    obtain ⟨fine, rfl⟩ := h
    exact fine
  · cases h

end Reply

namespace Job

variable (job : Job)

/-- How long an attempt takes, if it ends. -/
def attemptTime (n : Nat) : Nat := (job.attempt n).time.getD 0

/-- The delay after the n-th failed attempt. -/
def delayAfter (n : Nat) : Span := (RetryBudget.forRequest job.policy).nextDelay n

/-- When attempt number `n + 1` starts, if the first one starts at `start`. -/
def attemptStart (start : Nat) : Nat → Nat
  | 0 => start
  | n + 1 => attemptStart start n + job.attemptTime (n + 1) + (job.delayAfter (n + 1)).timerMs

/-- When attempt number `n + 1` ends. -/
def attemptEnd (start n : Nat) : Nat := job.attemptStart start n + job.attemptTime (n + 1)

/-- What attempt number `n + 1` leaves in the trace: its start, and its end unless it broke off. -/
def attemptTrace (start n : Nat) : List TraceEntry :=
  ⟨job.attemptStart start n, job.id, .call (n + 1)⟩ ::
    match (job.attempt (n + 1)).reply with
    | .answer _ => [⟨job.attemptEnd start n, job.id, .callEnd (n + 1)⟩]
    | .broke _ => []

/-- What the first `k` attempts leave in the trace. -/
def attemptsTrace (start k : Nat) : List TraceEntry :=
  (List.range k).flatMap (job.attemptTrace start)

theorem attemptsTrace_succ (start k : Nat) :
    job.attemptsTrace start (k + 1) = job.attemptsTrace start k ++ job.attemptTrace start k := by
  simp [attemptsTrace, List.range_succ]

/-- The result of a job whose retries are used up: the task has failed for what is said of its last
attempt, and the cause is that of the last answer, or what is said of it. -/
def exhausted (last : Reply) : TaskResult where
  task := job.id
  status := .failed
  message := some ("request retry limit reached, last error: " ++ last.reason)
  cause := some (last.cause?.getD last.reason)
  payload := .null

/-- After how many attempts the submission of a job has which result. -/
inductive Submits : Nat → TaskResult → Prop
  /-- The first attempt to succeed is within the retries. -/
  | succeeds {n : Nat} {answer : TaskResult}
    (failed : ∀ i < n, (job.attempt (i + 1)).reply.success? = none)
    (within : n ≤ job.policy.maxRetry.toNat)
    (success : (job.attempt (n + 1)).reply.success? = some answer) :
    Submits (n + 1) { answer with task := job.id }
  /-- Every attempt that the retries allow has failed. -/
  | givesUp
    (failed : ∀ i ≤ job.policy.maxRetry.toNat, (job.attempt (i + 1)).reply.success? = none) :
    Submits (job.policy.maxRetry.toNat + 1)
      (job.exhausted (job.attempt (job.policy.maxRetry.toNat + 1)).reply)

end Job

/-! ### One attempt -/

theorem RetryBudget.decide_retry (b : RetryBudget) {failures : Nat} (error : String)
    (h : failures ≤ b.maxRetry.toNat) :
    ∃ reason, b.decide failures error = .retry (b.nextDelay failures) reason := by
  rw [decide, if_neg (Nat.not_lt_of_le h)]
  exact ⟨_, rfl⟩

theorem RetryBudget.decide_giveUp (b : RetryBudget) {failures : Nat} (error : String)
    (h : b.maxRetry.toNat < failures) : b.decide failures error =
      .giveUp (b.phase.name ++ " retry limit reached, last error: " ++ error) :=
  if_pos h

namespace Worker

variable {w : Worker} {n : Nat} {reply : Reply}

theorem react_failed (calling : w.phase = .calling n) (failed : reply.success? = none) :
    w.react (.answered reply.outcome) = w.attemptFailed (n + 1) reply.reason reply.cause? := by
  unfold Reply.success? at failed
  unfold Reply.reason Reply.cause?
  cases outcome : reply.outcome with
  | error e => simp [react, calling]
  | ok answer =>
    have error : answer.status ≠ .success := by simpa [outcome] using failed
    rw [react_answered calling, if_pos (answer.isError_iff.2 error)]
    rfl

theorem react_succeeded (calling : w.phase = .calling n) {answer : TaskResult}
    (success : reply.success? = some answer) :
    w.react (.answered reply.outcome) = w.accepted answer := by
  unfold Reply.success? at success
  cases outcome : reply.outcome with
  | error e => simp [outcome] at success
  | ok result =>
    simp only [outcome, Option.ite_none_right_eq_some, Option.some.injEq] at success
    obtain ⟨fine, rfl⟩ := success
    rw [react_answered calling, if_neg fun error => result.isError_iff.1 error fine]

end Worker

namespace Launch

/-- The worker of a launch without deadline that is about to make attempt number `n + 1`. -/
def attempting (l : Launch) (n now : Nat) : TimedWorker :=
  { l.timed none (.calling n) with wake := some (now, .begin (n + 1) (l.job.attempt (n + 1))) }

/-- The worker of a launch in a phase whose call, number `n`, is under way. -/
def inCall (l : Launch) (phase : Worker.Phase) (n : Nat) (reply : Reply) (ends : Nat) :
    TimedWorker :=
  { l.timed none phase with wake := some (ends, .reply n reply) }

/-- The worker of a launch that waits until its phase is over. -/
def waiting (l : Launch) (phase : Worker.Phase) (until_ : Nat) : TimedWorker :=
  { l.timed none phase with wake := some (until_, .elapsed) }

section Attempt

variable {l : Launch} {n : Nat} (start : Nat) (counts : PollCounts) (past : Timeline)

/-- An attempt starts. -/
theorem fire_attempting {time : Nat} (takes : (l.job.attempt (n + 1)).time = some time)
    (set now : Nat) : (l.attempting n set).fire now counts =
      ⟨l.inCall (.calling n) (n + 1) (l.job.attempt (n + 1)).reply (now + time), counts, [],
        [⟨now, l.job.id, .call (n + 1)⟩]⟩ := by
  simp [TimedWorker.fire, attempting, inCall, timed, TimedWorker.deadlineFirst,
    TimedWorker.isPolling, takes]

/-- An attempt ends: the worker gets its outcome. -/
theorem fire_calling (reply : Reply) (set now : Nat) :
    (l.inCall (.calling n) (n + 1) reply set).fire now counts =
      (l.timed none (.calling n)).signal now counts (.answered reply.outcome)
        (match reply with
          | .answer _ => [⟨now, l.job.id, .callEnd (n + 1)⟩]
          | .broke _ => []) := rfl

theorem ofFired_arrange (w : TimedWorker) (now later : Nat) (events : List TaskEvent)
    (trace more : List TraceEntry) :
    Alone.ofFired later (past.extend now [] trace) (w.arrange later counts events more) =
      Alone.ofFired later past (w.arrange later counts events (trace ++ more)) := by
  unfold TimedWorker.arrange Alone.ofFired
  split
  · simp [Timeline.extend_trace]
  · simp [Timeline.extend_trace]
  · split <;> simp [Timeline.extend_trace, List.append_assoc]
  · simp [Timeline.extend_trace]
  · simp [Timeline.extend_trace]

/-- An attempt that ends: the worker gets its outcome. -/
theorem reaches_answer (answers : (l.job.attempt (n + 1)).time ≠ none) :
    Alone.Reaches (l.job.attemptEnd start n)
      ⟨l.attempting n (l.job.attemptStart start n), counts, past⟩
      (.ofFired (l.job.attemptEnd start n) past
        ((l.timed none (.calling n)).signal (l.job.attemptEnd start n) counts
          (.answered (l.job.attempt (n + 1)).reply.outcome) (l.job.attemptTrace start n))) := by
  obtain ⟨time, ends⟩ := Option.ne_none_iff_exists'.1 answers
  have hend : l.job.attemptEnd start n = l.job.attemptStart start n + time := by
    simp [Job.attemptEnd, Job.attemptTime, ends]
  -- the worker while the call is under way
  let calling : TimedWorker := l.inCall (.calling n) (n + 1) (l.job.attempt (n + 1)).reply
    (l.job.attemptEnd start n)
  let call : TraceEntry := ⟨l.job.attemptStart start n, l.job.id, .call (n + 1)⟩
  have begins : Alone.Reaches (l.job.attemptStart start n)
      ⟨l.attempting n (l.job.attemptStart start n), counts, past⟩
      ⟨calling, counts, past.extend (l.job.attemptStart start n) [] [call]⟩ := by
    have fires : Alone.Reaches (l.job.attemptStart start n)
        ⟨l.attempting n (l.job.attemptStart start n), counts, past⟩ _ := Alone.reaches_fire rfl
    rw [fire_attempting counts ends, ← hend] at fires
    exact fires
  refine begins.trans (by omega) ?_
  have fires : Alone.Reaches (l.job.attemptEnd start n)
      ⟨calling, counts, past.extend (l.job.attemptStart start n) [] [call]⟩ _ :=
    Alone.reaches_fire rfl
  have ended : Alone.ofFired (l.job.attemptEnd start n)
      (past.extend (l.job.attemptStart start n) [] [call])
      (calling.fire (l.job.attemptEnd start n) counts) =
      .ofFired (l.job.attemptEnd start n) past
        ((l.timed none (.calling n)).signal (l.job.attemptEnd start n) counts
          (.answered (l.job.attempt (n + 1)).reply.outcome) (l.job.attemptTrace start n)) := by
    exact ofFired_arrange ..
  rwa [ended] at fires

/-- An attempt within the retries has failed: the worker backs off. -/
theorem signal_failed {reply : Reply} (failed : reply.success? = none)
    (within : n + 1 ≤ l.job.policy.maxRetry.toNat) (now : Nat) (trace : List TraceEntry) :
    (l.timed none (.calling n)).signal now counts (.answered reply.outcome) trace =
      ⟨l.waiting (.backingOff (n + 1) (l.job.delayAfter (n + 1)))
        (now + (l.job.delayAfter (n + 1)).timerMs), counts, [], trace⟩ := by
  obtain ⟨reason, decision⟩ := RetryBudget.decide_retry (.forRequest l.job.policy)
    reply.reason within
  rw [TimedWorker.signal, Worker.react_failed rfl failed, Worker.attemptFailed]
  simp only [timed, decision]
  rfl

/-- A delay is over: the next attempt is made. -/
theorem fire_backingOff (delay : Span) (set now : Nat) :
    (l.waiting (.backingOff n delay) set).fire now counts =
      ⟨l.attempting n now, counts, [], []⟩ := rfl

/-- A failed attempt within the retries: the next one starts when its delay is over. -/
theorem reaches_retry (answers : (l.job.attempt (n + 1)).time ≠ none)
    (failed : (l.job.attempt (n + 1)).reply.success? = none)
    (within : n + 1 ≤ l.job.policy.maxRetry.toNat) :
    Alone.Reaches (l.job.attemptStart start (n + 1))
      ⟨l.attempting n (l.job.attemptStart start n), counts, past⟩
      ⟨l.attempting (n + 1) (l.job.attemptStart start (n + 1)), counts,
        past.extend (l.job.attemptEnd start n) [] (l.job.attemptTrace start n)⟩ := by
  have answered := reaches_answer start counts past answers
  rw [signal_failed counts failed within] at answered
  refine answered.trans (Nat.le_add_right ..) ?_
  have fires : Alone.Reaches (l.job.attemptStart start (n + 1))
      ⟨l.waiting (.backingOff (n + 1) (l.job.delayAfter (n + 1)))
          (l.job.attemptStart start (n + 1)), counts,
        past.extend (l.job.attemptEnd start n) [] (l.job.attemptTrace start n)⟩ _ :=
    Alone.reaches_fire rfl
  rwa [fire_backingOff, Alone.ofFired, Timeline.extend_nil] at fires

/-- The first `n` attempts, if they have failed and the retries allow one more. -/
theorem reaches_attempts (answers : ∀ i, (l.job.attempt i).time ≠ none)
    (failed : ∀ i < n, (l.job.attempt (i + 1)).reply.success? = none)
    (within : n ≤ l.job.policy.maxRetry.toNat) :
    Alone.Reaches (l.job.attemptStart start n) ⟨l.attempting 0 start, counts, past⟩
      ⟨l.attempting n (l.job.attemptStart start n), counts,
        past.extend start [] (l.job.attemptsTrace start n)⟩ := by
  induction n with
  | zero =>
    have nothing : past.extend start [] (l.job.attemptsTrace start 0) = past :=
      past.extend_nil start
    rw [nothing]
    exact .refl _ _
  | succ n ih =>
    have before := ih (fun i hi => failed i (by omega)) (by omega)
    have next := reaches_retry start counts (past.extend start [] (l.job.attemptsTrace start n))
      (answers _) (failed n (by omega)) within
    refine before.trans ?_ ?_
    · exact Nat.le_trans (Nat.le_add_right ..) (Nat.le_add_right ..)
    · simpa [Timeline.extend, Job.attemptsTrace_succ] using next

/-- The first attempts have failed, and the next one ends: the worker gets its outcome. -/
theorem reaches_last (answers : ∀ i, (l.job.attempt i).time ≠ none)
    (failed : ∀ i < n, (l.job.attempt (i + 1)).reply.success? = none)
    (within : n ≤ l.job.policy.maxRetry.toNat) :
    Alone.Reaches (l.job.attemptEnd start n) ⟨l.attempting 0 start, counts, past⟩
      (.ofFired (l.job.attemptEnd start n) past
        ((l.timed none (.calling n)).signal (l.job.attemptEnd start n) counts
          (.answered (l.job.attempt (n + 1)).reply.outcome)
          (l.job.attemptsTrace start (n + 1)))) := by
  have before := reaches_attempts start counts past answers failed within
  have last := reaches_answer start counts
    (past.extend start [] (l.job.attemptsTrace start n)) (answers (n + 1))
  rw [Job.attemptsTrace_succ]
  rw [TimedWorker.signal, ofFired_arrange] at last
  exact before.trans (Nat.le_add_right ..) last

end Attempt

/-! ### The end of the attempts -/

/-- The worker of a launch without deadline that waits for the outcome of its next poll, number `n`
of its monitor. -/
def awaiting (l : Launch) (monitor : Monitor) (last : TaskResult) (failures polls n now : Nat) :
    TimedWorker :=
  { l.timed none (.polling last failures polls) with
    wake := some (now, (monitor.poll n l.job.id last).wake n) }

section Ends

variable {l : Launch} {n : Nat} {r : TaskResult} {counts : PollCounts}

theorem arrange_awaiting {monitor : Monitor} (polled : l.kind = .poll monitor) (last : TaskResult)
    (failures polls now : Nat) {asked : Nat} (hn : counts.asked (monitor.key, l.job.id) + 1 = asked)
    (events : List TaskEvent) (trace : List TraceEntry) :
    (l.timed none (.polling last failures polls)).arrange now counts events trace =
      ⟨l.awaiting monitor last failures polls asked now,
        counts.put (monitor.key, l.job.id) asked, events,
        trace ++ [⟨now, l.job.id, .createPoll asked last⟩]⟩ := by
  subst hn
  obtain ⟨job, kind⟩ := l
  obtain rfl : kind = .poll monitor := polled
  rfl

section Outcome

variable {answer : TaskResult} (now : Nat) (trace : List TraceEntry)

/-- The last attempt allowed has failed: the worker is done. -/
theorem signal_exhausted {reply : Reply} (failed : reply.success? = none)
    (spent : l.job.policy.maxRetry.toNat < n + 1) (hr : l.job.exhausted reply = r) :
    (l.timed none (.calling n)).signal now counts (.answered reply.outcome) trace =
      ⟨l.timed none (.done r), counts, [.result l.job.id r], trace⟩ := by
  have decision := RetryBudget.decide_giveUp (.forRequest l.job.policy) reply.reason spent
  rw [TimedWorker.signal, Worker.react_failed rfl failed, Worker.attemptFailed]
  simp only [timed, decision, ← hr]
  simp only [TimedWorker.arrange, Worker.finish, Job.exhausted, RetryBudget.forRequest,
    RetryPhase.name]
  rfl

/-- An attempt has succeeded, and its job is not polled: the worker is done. -/
theorem signal_succeeded {reply : Reply} (success : reply.success? = some answer)
    (submitted : l.kind = .submit) (hr : { answer with task := l.job.id } = r) :
    (l.timed none (.calling n)).signal now counts (.answered reply.outcome) trace =
      ⟨l.timed none (.done r), counts, [.result l.job.id r], trace⟩ := by
  rw [TimedWorker.signal, Worker.react_succeeded rfl success, Worker.accepted]
  simp [TimedWorker.arrange, Worker.finish, timed, submitted, WorkerKind.pollPolicy, ← hr]

/-- An attempt has succeeded, and its job is polled: the first poll is asked for with the answer. -/
theorem signal_polling {reply : Reply} (success : reply.success? = some answer)
    {monitor : Monitor} (polled : l.kind = .poll monitor)
    (valid : monitor.policy.validate = .ok ()) (hr : { answer with task := l.job.id } = r)
    {asked : Nat} (hasked : counts.asked (monitor.key, l.job.id) + 1 = asked) :
    (l.timed none (.calling n)).signal now counts (.answered reply.outcome) trace =
      ⟨l.awaiting monitor r 0 1 asked now, counts.put (monitor.key, l.job.id) asked,
        [.submitted l.job.id], trace ++ [⟨now, l.job.id, .createPoll asked r⟩]⟩ := by
  rw [TimedWorker.signal, Worker.react_succeeded rfl success]
  have goes : (l.timed none (.calling n)).worker.accepted answer =
      ((l.timed none (.polling r 0 1)).worker, [.submitted l.job.id]) := by
    simp [Worker.accepted, timed, polled, WorkerKind.pollPolicy, valid, Worker.goto, ← hr]
  rw [goes]
  exact arrange_awaiting polled r 0 1 now hasked _ _

end Outcome

end Ends

/-- How a worker without deadline starts. -/
theorem alone_eq (l : Launch) (untimed : l.job.policy.hasTimeout = false)
    (valid : l.job.policy.validate = .ok ()) (now : Nat) (counts : PollCounts) (past : Timeline) :
    l.alone now counts past =
      ⟨l.attempting 0 now, counts, past.extend now [.created l.job.id] []⟩ := by
  simp [alone, TimedWorker.start, Worker.start, valid, TaskPolicy.timeout?, untimed,
    TimedWorker.arrange, attempting, timed]
  rfl

/-- A worker whose policy is not valid is done as it starts. -/
theorem alone_invalid (l : Launch) {e : PolicyError} (invalid : l.job.policy.validate = .error e)
    {r : TaskResult} (hr : .failed l.job.id (FlowError.ofPolicy e).message = r) (now : Nat)
    (counts : PollCounts) (past : Timeline) : l.alone now counts past =
      ⟨l.timed none (.done r), counts,
        past.extend now [.created l.job.id, .result l.job.id r] []⟩ := by
  subst hr
  simp [alone, TimedWorker.start, Worker.start, invalid, Worker.finish, timed,
    TimedWorker.arrange]
  cases l.kind <;> rfl

end Launch

/-! ### Main result -/

theorem Job.exists_submits (job : Job) : ∃ k r, job.Submits k r := by
  classical
  by_cases failed : ∀ i ≤ job.policy.maxRetry.toNat, (job.attempt (i + 1)).reply.success? = none
  · exact ⟨_, _, .givesUp failed⟩
  · simp only [not_forall] at failed
    obtain ⟨i, hi, succeeded⟩ := failed
    have found : ∃ i, (job.attempt (i + 1)).reply.success? ≠ none := ⟨i, succeeded⟩
    obtain ⟨answer, success⟩ := Option.ne_none_iff_exists'.1 (Nat.find_spec found)
    exact ⟨_, _, .succeeds (fun j hj => not_not.1 (Nat.find_min found hj))
      (Nat.le_trans (Nat.find_min' found succeeded) hi) success⟩

theorem Job.Submits.le {job : Job} {k : Nat} {r : TaskResult} (h : job.Submits k r) :
    k ≤ job.policy.maxRetry.toNat + 1 := by
  cases h with
  | succeeds _ within => exact Nat.succ_le_succ within
  | givesUp => exact Nat.le_refl _

/-- The attempts of a polled job of which one succeeds: then its first poll is asked for. -/
theorem Launch.reaches_awaiting {l : Launch} (answers : ∀ n, (l.job.attempt n).time ≠ none)
    (untimed : l.job.policy.hasTimeout = false) (valid : l.job.policy.validate = .ok ())
    {monitor : Monitor} (polled : l.kind = .poll monitor)
    (known : monitor.policy.validate = .ok ()) {k : Nat} {r : TaskResult}
    (submits : l.job.Submits k r) (success : r.status = .success) {counts : PollCounts}
    {asked : Nat} (hasked : counts.asked (monitor.key, l.job.id) + 1 = asked) (now : Nat)
    (past : Timeline) :
    (l.alone now counts past).Reaches (l.job.attemptEnd now (k - 1))
      ⟨l.awaiting monitor r 0 1 asked (l.job.attemptEnd now (k - 1)),
        counts.put (monitor.key, l.job.id) asked,
        ⟨past.events ++ [(now, .created l.job.id),
          (l.job.attemptEnd now (k - 1), .submitted l.job.id)],
        past.trace ++ l.job.attemptsTrace now k ++
          [⟨l.job.attemptEnd now (k - 1), l.job.id, .createPoll asked r⟩]⟩⟩ := by
  rw [l.alone_eq untimed valid]
  cases submits with
  | @succeeds n answer failed within success' =>
    have last := reaches_last now counts (past.extend now [.created l.job.id] []) answers failed
      within
    rw [signal_polling _ _ success' polled known rfl hasked] at last
    simpa [Alone.ofFired, Timeline.extend] using last
  | givesUp failed => cases success

/-- **How a job is submitted.**  A worker starts at some time; nobody disturbs it, its job has no
deadline, and every attempt ends somehow: with an answer of any status in the name of any task, with
an error, or by breaking off.

* If its policy is not valid no attempt is made, and the result says why.
* Otherwise the submission has one of two outcomes.  Either some attempt within the retries is the
  first to succeed: then the worker makes the attempts up to this one, and its answer is the result,
  in the name of the task.  Or every attempt that the retries allow fails: then it makes all of
  them, and the result tells of the last one.
* It makes exactly these attempts, each when the delay after the one before is over, which the
  clock shows in whole milliseconds.  A job that is polled goes on to its first poll with a
  successful result; any other result is the worker's, and it reports it when the last attempt ends.
-/
theorem submission_phase (l : Launch) (answers : ∀ n, (l.job.attempt n).time ≠ none)
    (untimed : l.job.policy.hasTimeout = false)
    (small : l.job.policy.maxRetry.toNat < UInt32.size - 1)
    (now : Nat) (counts : PollCounts) (past : Timeline) :
    (∀ e r, l.job.policy.validate = .error e →
      r = ⟨l.job.id, .failed, some ("invalid configuration: " ++ e.message), none, .null⟩ →
      ∀ limit fuel,
      (l.alone now counts past).run limit fuel = (l.timed none (.done r),
        ⟨past.events ++ [(now, .created l.job.id), (now, .result l.job.id r)], past.trace⟩)) ∧
    (l.job.policy.validate = .ok () → (∃ k r, l.job.Submits k r) ∧
      ∀ k r, l.job.Submits k r → k < UInt32.size ∧
        (l.kind = .submit ∨ r.status ≠ .success →
          ∃ n, ∀ limit fuel, l.job.attemptEnd now (k - 1) < limit → n ≤ fuel →
            (l.alone now counts past).run limit fuel = (l.timed none (.done r),
              ⟨past.events ++ [(now, .created l.job.id),
                (l.job.attemptEnd now (k - 1), .result l.job.id r)],
              past.trace ++ l.job.attemptsTrace now k⟩)) ∧
        (∀ monitor asked, l.kind = .poll monitor → monitor.policy.validate = .ok () →
          r.status = .success → counts.asked (monitor.key, l.job.id) + 1 = asked →
          (l.alone now counts past).Reaches (l.job.attemptEnd now (k - 1))
            ⟨l.awaiting monitor r 0 1 asked (l.job.attemptEnd now (k - 1)),
              counts.put (monitor.key, l.job.id) asked,
              ⟨past.events ++ [(now, .created l.job.id),
                (l.job.attemptEnd now (k - 1), .submitted l.job.id)],
              past.trace ++ l.job.attemptsTrace now k ++
                [⟨l.job.attemptEnd now (k - 1), l.job.id, .createPoll asked r⟩]⟩⟩)) ∧
    (∀ n, l.job.attemptStart now (n + 1) = l.job.attemptEnd now n +
      ((RetryBudget.forRequest l.job.policy).nextDelay (n + 1)).timerMs) := by
  refine ⟨fun e r invalid hr limit fuel => ?_, fun valid => ⟨l.job.exists_submits, ?_⟩,
    fun n => rfl⟩
  · rw [l.alone_invalid invalid hr.symm, Alone.run_of_not_due rfl]
    simp [Timeline.extend]
  · intro k r submits
    refine ⟨Nat.lt_of_le_of_lt submits.le (Nat.add_lt_of_lt_sub small), fun ends => ?_,
      fun monitor asked polled known success hasked => ?_⟩
    · rw [Launch.alone_eq l untimed valid]
      cases submits with
      | @succeeds n answer failed within success =>
        have submitted : l.kind = .submit :=
          ends.resolve_right fun unsuccessful =>
            unsuccessful (show answer.status = .success from Reply.status_of_success success)
        have last := Launch.reaches_last now counts (past.extend now [.created l.job.id] [])
          answers failed within
        rw [Launch.signal_succeeded _ _ success submitted rfl] at last
        obtain ⟨n, run⟩ := last.run_eq rfl
        refine ⟨n, fun limit fuel before enough => ?_⟩
        rw [run limit fuel before enough]
        simp [Alone.ofFired, Timeline.extend]
      | givesUp failed =>
        have last := Launch.reaches_last now counts (past.extend now [.created l.job.id] []) answers
          (fun i hi => failed i (Nat.le_of_lt hi)) (Nat.le_refl _)
        rw [Launch.signal_exhausted _ _ (failed _ (Nat.le_refl _)) (Nat.lt_succ_self _) rfl] at last
        obtain ⟨n, run⟩ := last.run_eq rfl
        refine ⟨n, fun limit fuel before enough => ?_⟩
        rw [run limit fuel before enough]
        simp [Alone.ofFired, Timeline.extend]
    · exact Launch.reaches_awaiting answers untimed valid polled known submits success hasked now
        past

/-- A job that is refused, breaks off, and then succeeds in the name of another task. -/
def Job.flaky : Job where
  id := .ofNat 1
  policy := ⟨2, 100, 0, Double.one⟩
  attempt
    | 1 => ⟨some 10, .answer (.ok (.canceled (.ofNat 9) "busy"))⟩
    | 2 => ⟨some 20, .broke "lost"⟩
    | _ => ⟨some 5, .answer (.ok (.success (.ofNat 9)))⟩

theorem Job.flaky_answers (n : Nat) : (Job.flaky.attempt n).time ≠ none := by
  unfold Job.flaky
  simp only
  split <;> simp

theorem Job.flaky_submits : Job.flaky.Submits 3 (.success (.ofNat 1)) := by
  have failed : ∀ i < 2, (Job.flaky.attempt (i + 1)).reply.success? = none := by
    rintro (_ | _ | i) hi
    · rfl
    · rfl
    · omega
  exact .succeeds failed (by decide) rfl

theorem Job.flaky_trace : Job.flaky.attemptEnd 0 2 = 235 ∧ Job.flaky.attemptsTrace 0 3 =
    [⟨0, .ofNat 1, .call 1⟩, ⟨10, .ofNat 1, .callEnd 1⟩, ⟨110, .ofNat 1, .call 2⟩,
      ⟨230, .ofNat 1, .call 3⟩, ⟨235, .ofNat 1, .callEnd 3⟩] := by
  have second : Job.flaky.attemptStart 0 1 = 110 := by decide +kernel
  have third : Job.flaky.attemptStart 0 2 = 230 := by decide +kernel
  have ends : Job.flaky.attemptEnd 0 2 = 235 := by decide +kernel
  refine ⟨ends, ?_⟩
  simp only [Job.attemptsTrace, List.range, List.range.loop, List.flatMap_cons, List.flatMap_nil,
    Job.attemptTrace, second, third, ends]
  rfl

/-- A job that breaks off, and when it is tried again ends in a given way. -/
def Job.failing (last : Reply) : Job where
  id := .ofNat 1
  policy := ⟨1, 100, 0, Double.one⟩
  attempt
    | 1 => ⟨some 10, .broke "lost"⟩
    | _ => ⟨some 20, last⟩

theorem Job.failing_answers (last : Reply) (n : Nat) :
    ((Job.failing last).attempt n).time ≠ none := by
  unfold Job.failing
  simp only
  split <;> simp

/-- Both attempts that the policy allows fail. -/
theorem Job.failing_submits {last : Reply} (failed : last.success? = none) :
    (Job.failing last).Submits 2 ⟨.ofNat 1, .failed,
      some ("request retry limit reached, last error: " ++ last.reason),
      some (last.cause?.getD last.reason), .null⟩ :=
  .givesUp fun i _ => by
    cases i with
    | zero => rfl
    | succ i => exact failed

theorem Job.failing_attemptEnd (last : Reply) : (Job.failing last).attemptEnd 0 1 = 130 := by
  have pause : ((Job.failing last).delayAfter 1).timerMs = 100 := by
    show ((RetryBudget.forRequest ⟨1, 100, 0, Double.one⟩).nextDelay 1).timerMs = 100
    decide +kernel
  show 0 + 10 + ((Job.failing last).delayAfter 1).timerMs + 20 = 130
  rw [pause]

/-- The flaky job, with a factor that no policy may have. -/
def Job.unruly : Job := { Job.flaky with policy := ⟨2, 100, 0, .ofNat 0⟩ }

/-- Driven alone the job fails at some time with a message and perhaps a cause. -/
def Job.Fails (job : Job) (time : Nat) (message : String) (cause : Option String) : Prop :=
  ∃ n, ∀ limit fuel, time < limit → n ≤ fuel →
    (TimedWorker.runAlone ⟨job, .submit⟩ limit fuel).2.events = [(0, .created job.id),
      (time, .result job.id ⟨job.id, .failed, some message, cause, .null⟩)]

/-- The first job is attempted three times, a tenth of a second after each failure.  The others
fail: for the status of an answer that says nothing, for the message of an answer that may give a
cause, for the error of a task, because an attempt has broken off, and because the policy is
refused. -/
theorem submission_phase_flaky : Job.flaky.Submits 3 (.success (.ofNat 1)) ∧
    (∃ n, ∀ limit fuel, 235 < limit → n ≤ fuel →
      TimedWorker.runAlone ⟨.flaky, .submit⟩ limit fuel =
        (Launch.timed ⟨.flaky, .submit⟩ none (.done (.success (.ofNat 1))),
          ⟨[(0, .created (.ofNat 1)), (235, .result (.ofNat 1) (.success (.ofNat 1)))],
            [⟨0, .ofNat 1, .call 1⟩, ⟨10, .ofNat 1, .callEnd 1⟩, ⟨110, .ofNat 1, .call 2⟩,
              ⟨230, .ofNat 1, .call 3⟩, ⟨235, .ofNat 1, .callEnd 3⟩]⟩)) ∧
    (Job.failing (.answer (.ok (.ofStatus (.ofNat 9) .timeout)))).Fails 130
      "request retry limit reached, last error: Timeout" (some "Timeout") ∧
    (Job.failing (.answer (.ok (.canceled (.ofNat 9) "busy")))).Fails 130
      "request retry limit reached, last error: busy" (some "busy") ∧
    (Job.failing (.answer (.ok ((TaskResult.canceled (.ofNat 9) "busy").withCause "rain")))).Fails
      130 "request retry limit reached, last error: busy" (some "rain") ∧
    (Job.failing (.answer (.error (.execution "full")))).Fails 130
      "request retry limit reached, last error: task execution failed: full"
      (some "task execution failed: full") ∧
    (Job.failing (.broke "lost")).Fails 130
      "request retry limit reached, last error: task worker crashed: lost"
      (some "task worker crashed: lost") ∧
    Job.unruly.Fails 0
      "invalid configuration: backoff_multiplier must be a finite number >= 1.0, got 0" none := by
  obtain ⟨-, valid, -⟩ := submission_phase ⟨.flaky, .submit⟩
    Job.flaky_answers rfl (by decide) 0 .empty .empty
  obtain ⟨-, runs, -⟩ := (valid (by decide)).2 _ _ Job.flaky_submits
  rw [Job.flaky_trace.1, Job.flaky_trace.2] at runs
  -- whatever the last attempt ends in, as long as it has failed
  have fails (last : Reply) (failed : last.success? = none) : (Job.failing last).Fails 130
      ("request retry limit reached, last error: " ++ last.reason)
      (some (last.cause?.getD last.reason)) := by
    have small : (1 : UInt32).toNat < UInt32.size - 1 := by decide
    have known : TaskPolicy.validate ⟨1, 100, 0, Double.one⟩ = .ok () := by decide
    obtain ⟨-, valid, -⟩ := submission_phase ⟨.failing last, .submit⟩ (Job.failing_answers last)
      rfl small 0 .empty .empty
    obtain ⟨-, runs, -⟩ := (valid known).2 _ _ (Job.failing_submits failed)
    rw [Job.failing_attemptEnd] at runs
    obtain ⟨n, runs⟩ := runs (.inl rfl)
    exact ⟨n, fun limit fuel late enough => congrArg (·.2.events) (runs limit fuel late enough)⟩
  have refuses (job : Job) (answers : ∀ n, (job.attempt n).time ≠ none)
      (untimed : job.policy.hasTimeout = false)
      (small : job.policy.maxRetry.toNat < UInt32.size - 1) (e : PolicyError)
      (invalid : job.policy.validate = .error e) :
      job.Fails 0 ("invalid configuration: " ++ e.message) none := by
    obtain ⟨refused, -, -⟩ := submission_phase ⟨job, .submit⟩ answers untimed small 0 .empty .empty
    exact ⟨0, fun limit fuel _ _ => congrArg (·.2.events) (refused e _ invalid rfl limit fuel)⟩
  have text : "invalid configuration: " ++ (PolicyError.backoff (.ofNat 0)).message =
      "invalid configuration: backoff_multiplier must be a finite number >= 1.0, got 0" := by
    decide +kernel
  exact ⟨Job.flaky_submits, runs (.inl rfl), fails _ rfl, fails _ rfl, fails _ rfl, fails _ rfl,
    fails _ rfl, text ▸ refuses .unruly Job.flaky_answers rfl (by decide) _ (by decide +kernel)⟩

end Workflow
