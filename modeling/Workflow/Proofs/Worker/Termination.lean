import Workflow.Proofs.Batch.Runs
import Workflow.Proofs.Worker.Course

/-!
# Workflow.Proofs.Worker.Termination — a worker whose calls answer comes to an end

A worker whose attempts and polls all end, and whose monitor does not stay in progress for ever, has
its result after a bounded number of steps, whenever these are made and however many polls others
ask of the same monitor in between (`Launch.Answers.ends`).  Failed attempts use up the retries of
the task, failed polls those of the monitor, and answers in progress are bounded by assumption;
a deadline only makes it shorter.
-/

namespace Workflow

/-! ### Polls asked for -/

namespace PollCounts

/-- How many polls were asked for. -/
def asked (counts : PollCounts) (key : List Nat × TaskId) : Nat := (counts.get? key).getD 0

/-- What the counts may be later. -/
structure Grown (counts later : PollCounts) : Prop where
  asked : ∀ key, counts.asked key ≤ later.asked key

variable {counts later last : PollCounts}

theorem Grown.refl (counts : PollCounts) : counts.Grown counts := ⟨fun _ => Nat.le_refl _⟩

theorem Grown.trans (h : counts.Grown later) (more : later.Grown last) : counts.Grown last :=
  ⟨fun key => Nat.le_trans (h.asked key) (more.asked key)⟩

theorem empty_grown (later : PollCounts) : Grown .empty later := ⟨fun _ => Nat.zero_le _⟩

@[simp] theorem asked_put_self (counts : PollCounts) (key : List Nat × TaskId) (n : Nat) :
    asked (counts.put key n) key = n := by
  simp [asked]

theorem grown_put {key : List Nat × TaskId} {n : Nat} (h : counts.asked key ≤ n) :
    counts.Grown (counts.put key n) := by
  refine ⟨fun other => ?_⟩
  by_cases same : other = key
  · subst same
    rwa [asked_put_self]
  · simp [asked, Table.get?_put_of_ne counts n same]

end PollCounts

theorem RetryBudget.le_of_retry {b : RetryBudget} {failures : Nat} {error reason : String}
    {delay : Span} (h : b.decide failures error = .retry delay reason) :
    failures ≤ b.maxRetry.toNat := by
  unfold decide at h
  split at h
  · cases h
  · omega

theorem Worker.react_answered {w : Worker} {failures : Nat} (calling : w.phase = .calling failures)
    (answer : TaskResult) : w.react (.answered (.ok answer)) =
      if answer.isError then w.attemptFailed (failures + 1) answer.errorText answer.cause
      else w.accepted answer := by
  simp [react, calling]

/-- A worker starts with its first attempt, unless its policy allows none. -/
theorem Worker.start_calling (l : Launch) :
    (start l).1 = ⟨l.job.id, l.job.policy, l.kind.pollPolicy, .calling 0⟩ ∨
      (start l).1.result? ≠ none := by
  unfold start
  simp only
  split
  · exact .inl rfl
  · exact .inr (by simp [finish, result?])

/-- A deadline that has passed ends the worker. -/
theorem Worker.react_expired {w : Worker} (h : w.policy.hasTimeout) :
    (w.react .expired).1.result? ≠ none := by
  cases hp : w.phase <;> simp [react, result?, finish, hp, h]

namespace TimedWorker

theorem arrange_grown (w : TimedWorker) (now : Nat) (counts : PollCounts)
    (events : List TaskEvent) (trace : List TraceEntry) :
    counts.Grown (w.arrange now counts events trace).counts := by
  have arranges := w.arrange_arranges now counts events trace
  generalize w.arrange now counts events trace = fired at arranges
  cases arranges with
  | waits => exact .refl counts
  | polls _ _ _ _ _ asked => exact asked ▸ PollCounts.grown_put (Nat.le_succ _)
  | ends => exact .refl counts

theorem fire_grown (w : TimedWorker) (now : Nat) (counts : PollCounts) :
    counts.Grown (w.fire now counts).counts := by
  have fires := w.fire_fires now counts
  generalize w.fire now counts = fired at fires
  cases fires with
  | idle => exact .refl counts
  | begins => exact .refl counts
  | signals => exact arrange_grown ..

/-! ### Steps of a worker -/

/-- In at most so many steps from these counts on the worker has its result, and until then there is
always a next step. -/
inductive EndsWithin : TimedWorker → Nat → PollCounts → Prop
  | ended {w : TimedWorker} {n : Nat} {counts : PollCounts} (h : w.worker.result? ≠ none) :
    EndsWithin w n counts
  | fires {w : TimedWorker} {n : Nat} {counts : PollCounts} (due : w.due ≠ none)
    (next : ∀ now later, counts.Grown later →
      EndsWithin (w.fire now later).worker n (w.fire now later).counts) :
    EndsWithin w (n + 1) counts

section EndsWithin

variable {w : TimedWorker} {n : Nat} {counts : PollCounts}

theorem EndsWithin.mono (h : w.EndsWithin n counts) {m : Nat} (hm : n ≤ m) :
    w.EndsWithin m counts := by
  induction h generalizing m with
  | ended h => exact .ended h
  | @fires w n counts due _ ih =>
    obtain ⟨m, rfl⟩ : ∃ k, m = k + 1 := ⟨m - 1, by omega⟩
    exact .fires due fun now later grown => ih now later grown (by omega)

theorem EndsWithin.later (h : w.EndsWithin n counts) {later : PollCounts}
    (grown : counts.Grown later) : w.EndsWithin n later := by
  cases h with
  | ended h => exact .ended h
  | fires due next => exact .fires due fun now last more => next now last (grown.trans more)

end EndsWithin

/-- The worker's phase is one from which it ends in at most so many steps, as soon as its timer is
set. -/
def Leads (w : TimedWorker) (n : Nat) (counts : PollCounts) : Prop :=
  ∀ now later events trace, counts.Grown later →
    (w.arrange now later events trace).worker.EndsWithin n (w.arrange now later events trace).counts

theorem Leads.later {w : TimedWorker} {n : Nat} {counts later : PollCounts}
    (h : w.Leads n counts) (grown : counts.Grown later) : w.Leads n later :=
  fun now last events trace more => h now last events trace (grown.trans more)

end TimedWorker

/-! ### Calls that answer -/

/-- A poll is answered without error, and the monitor has no complete result yet. -/
structure Monitor.InProgress (m : Monitor) (task : TaskId) (n : Nat) (last answer : TaskResult) :
    Prop where
  answered : ∃ call, m.poll n task last = .started call ∧ call.reply = .answer (.ok answer)
  success : answer.isError = false
  incomplete : ∃ verdict, m.interpret task answer = .ok verdict ∧
    ∀ r, verdict = some r → r.isComplete = false

theorem Reply.outcome_ok {reply : Reply} {answer : TaskResult} (h : reply.outcome = .ok answer) :
    reply = .answer (.ok answer) := by
  cases reply with
  | answer r => exact congrArg Reply.answer h
  | broke detail => cases h

/-- What the end of a poll is to the worker that asked for it. -/
inductive Monitor.Heard (m : Monitor) (task : TaskId) (reply : Reply) : Worker.Signal → Prop
  | failed (e : TaskError) : Heard m task reply (.polled (.failed e))
  | refused {answer : TaskResult} (error : answer.isError) :
    Heard m task reply (.polled (.answered answer none))
  | answered {answer : TaskResult} {verdict : Option TaskResult}
    (outcome : reply.outcome = .ok answer) (success : answer.isError = false)
    (interpreted : m.interpret task answer = .ok verdict) :
    Heard m task reply (.polled (.answered answer verdict))
  | broke (detail : String) : Heard m task reply (.monitorBroke detail)

/-- After so many polls of a task, of which the latest gave this answer, at most `more` further ones
are in progress, whichever of the coming polls of the monitor they are. -/
def Monitor.SettlesWithin (m : Monitor) (task : TaskId) : Nat → Nat → TaskResult → Prop
  | 0, polls, last => ∀ n answer, polls < n → ¬ m.InProgress task n last answer
  | more + 1, polls, last => ∀ n answer, polls < n → m.InProgress task n last answer →
    m.SettlesWithin task more n answer

theorem Monitor.SettlesWithin.later {m : Monitor} {task : TaskId} {more polls polls' : Nat}
    {last : TaskResult} (h : m.SettlesWithin task more polls last) (hp : polls ≤ polls') :
    m.SettlesWithin task more polls' last := by
  cases more with
  | zero => exact fun n answer hn => h n answer (Nat.lt_of_le_of_lt hp hn)
  | succ more => exact fun n answer hn => h n answer (Nat.lt_of_le_of_lt hp hn)

/-- A monitor that is in progress only at polls up to some number settles. -/
theorem Monitor.SettlesWithin.of_bound {m : Monitor} {task : TaskId} {bound : Nat}
    (h : ∀ n last answer, m.InProgress task n last answer → n ≤ bound) (more : Nat) {polls : Nat}
    (hmore : bound ≤ polls + more) (last : TaskResult) : m.SettlesWithin task more polls last := by
  induction more generalizing polls last with
  | zero =>
    intro n answer before inProgress
    have late := h n last answer inProgress
    omega
  | succ more ih =>
    intro n answer before _
    exact ih (by omega) answer

/-- Every attempt and every poll of a launch ends, and its monitor is in progress only finitely
often. -/
structure Launch.Answers (l : Launch) : Prop where
  attempts : ∀ n, (l.job.attempt n).time ≠ none
  polls : ∀ monitor, l.kind = .poll monitor → ∀ n last call,
    monitor.poll n l.job.id last = .started call → call.time ≠ none
  settles : ∀ monitor, l.kind = .poll monitor → ∀ n answer,
    (l.job.attempt n).reply = .answer (.ok answer) → answer.isError = false →
    ∃ more, monitor.SettlesWithin l.job.id more 0 { answer with task := l.job.id }

/-- A job without polls whose attempts end answers. -/
theorem Launch.Answers.of_submit {job : Job} (h : ∀ n, (job.attempt n).time ≠ none) :
    Launch.Answers ⟨job, .submit⟩ :=
  ⟨h, by simp, by simp⟩

/-! ### What leads to an end -/

/-- The signal that a worker gets when its timer fires, if no call starts or ends then. -/
def Wake.signal? : Wake → Option Worker.Signal
  | elapsed => some .elapsed
  | refused e => some (.polled (.failed e))
  | broke detail => some (.monitorBroke detail)
  | _ => none

namespace TimedWorker

/-- The worker after a signal, before its timer is set anew. -/
def reacted (w : TimedWorker) (s : Worker.Signal) : TimedWorker :=
  { w with worker := (w.worker.react s).1 }

section Leads

variable {w : TimedWorker} {n : Nat} {counts : PollCounts}

theorem leads_done (h : w.worker.result? ≠ none) : w.Leads n counts := by
  intro now later events trace _
  refine .ended ?_
  rwa [(arrange_events w now later events trace).1]

/-- A monitor that breaks off ends the worker. -/
theorem leads_broke {last : TaskResult} {failures polls : Nat}
    (polling : w.worker.phase = .polling last failures polls) (detail : String) :
    (w.reacted (.monitorBroke detail)).Leads n counts :=
  leads_done (by simp [reacted, Worker.react, polling, Worker.finish, Worker.result?])

/-- What a signal leads to. -/
theorem Leads.signal {s : Worker.Signal} (h : (w.reacted s).Leads n counts) (now : Nat)
    {later : PollCounts} (grown : counts.Grown later) (trace : List TraceEntry) :
    (w.signal now later s trace).worker.EndsWithin n (w.signal now later s trace).counts :=
  h now later _ trace grown

theorem deadline_of_deadlineFirst (h : w.deadlineFirst = true) : w.deadline ≠ none := by
  unfold deadlineFirst at h
  split at h <;> simp_all

theorem due_of_wake {at_ : Nat × Wake} (h : w.wake = some at_) : w.due ≠ none := by
  unfold due
  cases hd : w.deadline <;> simp [h]

theorem fire_begin (first : w.deadlineFirst = false) {at_ k time : Nat} {call : Call}
    (timer : w.wake = some (at_, .begin k call)) (ends : call.time = some time) (now : Nat)
    (counts : PollCounts) :
    (w.fire now counts).worker = { w with wake := some (now + time, .reply k call.reply) } ∧
      (w.fire now counts).counts = counts := by
  simp [fire, first, timer, ends]

/-- One step of a worker whose timer is set: its deadline has passed and it ends, or it is the timer
that fires. -/
theorem endsWithin_of_wake {at_ : Nat × Wake} (timer : w.wake = some at_)
    (timeout : w.deadline ≠ none → w.worker.policy.hasTimeout)
    (next : ∀ now later, counts.Grown later → w.deadlineFirst = false →
      (w.fire now later).worker.EndsWithin n (w.fire now later).counts) :
    w.EndsWithin (n + 1) counts := by
  refine .fires (due_of_wake timer) fun now later grown => ?_
  cases first : w.deadlineFirst with
  | false => exact next now later grown first
  | true =>
    have expired : (w.worker.react .expired).1.result? ≠ none :=
      Worker.react_expired (timeout (deadline_of_deadlineFirst first))
    have fires : w.fire now later = w.signal now later .expired [] := if_pos first
    rw [fires]
    exact (leads_done expired).signal now grown []

/-- A step in which the worker gets a signal at once. -/
theorem endsWithin_of_signal {at_ : Nat} {wake : Wake} {s : Worker.Signal}
    (timer : w.wake = some (at_, wake)) (told : wake.signal? = some s)
    (timeout : w.deadline ≠ none → w.worker.policy.hasTimeout) (h : (w.reacted s).Leads n counts) :
    w.EndsWithin (n + 1) counts := by
  refine endsWithin_of_wake timer timeout fun now later grown first => ?_
  have fires : w.fire now later = w.signal now later s [] := by
    cases wake <;> cases told <;> simp [fire, first, timer]
  rw [fires]
  exact h.signal now grown []

end Leads

end TimedWorker

/-! ### One step from each phase -/

/-- The timer that is set when poll number `n` was asked for. -/
def PollAttempt.wake (n : Nat) : PollAttempt → Wake
  | refused e => .refused e
  | broke detail => .broke detail
  | started call => .begin n call

/-- The worker of a launch in a phase, before its timer is set. -/
def Launch.timed (l : Launch) (deadline : Option Nat) (phase : Worker.Phase) : TimedWorker :=
  ⟨l, ⟨l.job.id, l.job.policy, l.kind.pollPolicy, phase⟩, none, deadline⟩

namespace TimedWorker

section Phases

variable {l : Launch} {deadline : Option Nat} (timeout : deadline ≠ none → l.job.policy.hasTimeout)
  {n : Nat} {counts : PollCounts}

include timeout

theorem leads_backingOff {failures : Nat} (delay : Span)
    (h : (l.timed deadline (.calling failures)).Leads n counts) :
    (l.timed deadline (.backingOff failures delay)).Leads (n + 1) counts := by
  intro now later events trace grown
  exact endsWithin_of_signal rfl rfl timeout (h.later grown)

theorem leads_resting {last : TaskResult} {failures polls : Nat}
    (h : (l.timed deadline (.polling last failures (polls + 1))).Leads n counts) :
    (l.timed deadline (.resting last failures polls)).Leads (n + 1) counts := by
  intro now later events trace grown
  exact endsWithin_of_signal rfl rfl timeout (h.later grown)

/-- A call that answers: it starts, and when it ends the worker gets its signal. -/
theorem endsWithin_begin {phase : Worker.Phase} {at_ k : Nat} {call : Call}
    (answers : call.time ≠ none)
    (h : ((l.timed deadline phase).reacted
      ((l.timed deadline phase).replySignal call.reply)).Leads n counts) :
    ({ l.timed deadline phase with wake := some (at_, .begin k call) } : TimedWorker).EndsWithin
      (n + 2) counts := by
  obtain ⟨time, ends⟩ := Option.ne_none_iff_exists'.1 answers
  refine endsWithin_of_wake rfl timeout fun now later grown first => ?_
  obtain ⟨hworker, hcounts⟩ := fire_begin first rfl ends now later
  rw [hworker, hcounts]
  refine endsWithin_of_wake rfl timeout fun now' last more first' => ?_
  rw [fire, if_neg (by simp [first'])]
  exact Leads.signal h now' (grown.trans more) _

theorem leads_calling {failures : Nat} (answers : (l.job.attempt (failures + 1)).time ≠ none)
    (h : ((l.timed deadline (.calling failures)).reacted
      (.answered (l.job.attempt (failures + 1)).reply.outcome)).Leads n counts) :
    (l.timed deadline (.calling failures)).Leads (n + 2) counts := by
  intro now later events trace grown
  exact (endsWithin_begin timeout answers h).later grown

/-- A failed attempt leads to the next one, if the task has a retry left. -/
theorem leads_attemptFailed (failures : Nat) {failed : Nat} (error : String) (cause : Option String)
    (retry : failed ≤ l.job.policy.maxRetry.toNat →
      (l.timed deadline (.calling failed)).Leads n counts) :
    ({ l.timed deadline (.calling failures) with
      worker := ((l.timed deadline (.calling failures)).worker.attemptFailed failed error
        cause).1 } : TimedWorker).Leads (n + 1) counts := by
  unfold Worker.attemptFailed
  cases hd : (RetryBudget.forRequest
      (l.timed deadline (.calling failures)).worker.policy).decide failed error with
  | retry delay _ => exact leads_backingOff timeout delay (retry (RetryBudget.le_of_retry hd))
  | giveUp reason => exact leads_done (by simp [Worker.finish, Worker.result?])

/-- A failed poll leads to the next one, if the monitor forgives it. -/
theorem leads_pollFailed {p : PollPolicy} {last : TaskResult} {failures failed polls : Nat}
    (error : String) (retry : failed ≤ p.maxRetry.toNat →
      (l.timed deadline (.polling last failed (polls + 1))).Leads n counts) :
    ({ l.timed deadline (.polling last failures polls) with
      worker := ((l.timed deadline (.polling last failures polls)).worker.pollFailed p last failed
        polls error).1 } : TimedWorker).Leads (n + 1) counts := by
  unfold Worker.pollFailed
  cases hd : (RetryBudget.forPoll p).decide failed error with
  | retry delay _ => exact leads_resting timeout (retry (RetryBudget.le_of_retry hd))
  | giveUp reason => exact leads_done (by simp [Worker.finish, Worker.result?])

section Polling

variable {monitor : Monitor} (polled : l.kind = .poll monitor) {last : TaskResult}
  {failures polls : Nat}

include polled

omit timeout in
theorem react_polled (outcome : Worker.PollOutcome) :
    (l.timed deadline (.polling last failures polls)).worker.react (.polled outcome) =
      (l.timed deadline (.polling last failures polls)).worker.polled monitor.policy last failures
        polls outcome := by
  simp [Worker.react, Launch.timed, polled, WorkerKind.pollPolicy]

/-- A poll that failed, or was not made. -/
theorem leads_failed (error : TaskError)
    (fails : failures + 1 ≤ monitor.policy.maxRetry.toNat →
      (l.timed deadline (.polling last (failures + 1) (polls + 1))).Leads n counts) :
    ((l.timed deadline (.polling last failures polls)).reacted (.polled (.failed error))).Leads
      (n + 1) counts := by
  rw [reacted, react_polled polled]
  exact leads_pollFailed timeout _ fails

omit timeout in
theorem replySignal_heard (reply : Reply) :
    monitor.Heard l.job.id reply
      ((l.timed deadline (.polling last failures polls)).replySignal reply) := by
  simp only [replySignal, Launch.timed, polled]
  cases outcome : reply.outcome with
  | error e => exact .failed e
  | ok answer =>
    by_cases error : answer.isError
    · simp only [error, if_true]
      exact .refused error
    · simp only [error]
      cases interpreted : monitor.interpret l.job.id answer with
      | ok verdict => exact .answered outcome (by simpa using error) interpreted
      | error detail => exact .broke detail

/-- A poll that has ended: it failed, it is in progress, or the worker is done. -/
theorem leads_heard {k : Nat} {call : Call}
    (started : monitor.poll k l.job.id last = .started call) {s : Worker.Signal}
    (heard : monitor.Heard l.job.id call.reply s)
    (fails : failures + 1 ≤ monitor.policy.maxRetry.toNat →
      (l.timed deadline (.polling last (failures + 1) (polls + 1))).Leads n counts)
    (goes : ∀ answer, monitor.InProgress l.job.id k last answer →
      (l.timed deadline (.polling answer failures (polls + 1))).Leads n counts) :
    ((l.timed deadline (.polling last failures polls)).reacted s).Leads (n + 1) counts := by
  cases heard with
  | failed e => exact leads_failed timeout polled e fails
  | refused error =>
    rw [reacted, react_polled polled, Worker.polled, if_pos error]
    exact leads_pollFailed timeout _ fails
  | @answered answer verdict outcome success interpreted =>
    have rests (h : ∀ r, verdict = some r → r.isComplete = false) :
        (l.timed deadline (.resting answer failures polls)).Leads (n + 1) counts :=
      leads_resting timeout
        (goes answer ⟨⟨call, started, Reply.outcome_ok outcome⟩, success, verdict, interpreted, h⟩)
    rw [reacted, react_polled polled]
    cases verdict with
    | none =>
      rw [Worker.polled, if_neg (by simp [success])]
      exact rests (by simp)
    | some r =>
      rw [Worker.polled, if_neg (by simp [success])]
      cases complete : r.isComplete with
      | true => exact leads_done (by simp [Worker.finish, Worker.result?])
      | false => exact rests (by simpa using complete)
  | broke detail => exact leads_broke rfl detail

omit timeout in
theorem arrange_polling (now : Nat) {k : Nat}
    (hk : counts.asked (monitor.key, l.job.id) + 1 = k) (events : List TaskEvent)
    (trace : List TraceEntry) :
    ((l.timed deadline (.polling last failures polls)).arrange now counts events trace).worker =
      { l.timed deadline (.polling last failures polls) with
        wake := some (now, (monitor.poll k l.job.id last).wake k) } ∧
    ((l.timed deadline (.polling last failures polls)).arrange now counts events trace).counts =
      counts.put (monitor.key, l.job.id) k := by
  subst hk
  unfold arrange
  simp only [Launch.timed, PollAttempt.wake, PollCounts.asked]
  rw [polled]
  exact ⟨rfl, rfl⟩

/-- The next poll of a worker whose monitor answers. -/
theorem leads_polling
    (answers : ∀ k call, monitor.poll k l.job.id last = .started call → call.time ≠ none)
    (fails : failures + 1 ≤ monitor.policy.maxRetry.toNat → ∀ later, counts.Grown later →
      (l.timed deadline (.polling last (failures + 1) (polls + 1))).Leads n later)
    (goes : ∀ k answer later, counts.asked (monitor.key, l.job.id) < k →
      later.asked (monitor.key, l.job.id) = k → monitor.InProgress l.job.id k last answer →
      (l.timed deadline (.polling answer failures (polls + 1))).Leads n later) :
    (l.timed deadline (.polling last failures polls)).Leads (n + 3) counts := by
  intro now later events trace grown
  obtain ⟨k, hk⟩ : ∃ k, later.asked (monitor.key, l.job.id) + 1 = k := ⟨_, rfl⟩
  rw [(arrange_polling polled now hk events trace).1,
    (arrange_polling polled now hk events trace).2]
  obtain ⟨put, hput⟩ : ∃ put : PollCounts, later.put (monitor.key, l.job.id) k = put := ⟨_, rfl⟩
  rw [hput]
  have asked : put.asked (monitor.key, l.job.id) = k := hput ▸ PollCounts.asked_put_self ..
  have grown' : counts.Grown put := grown.trans (hput ▸ PollCounts.grown_put (by omega))
  cases attempt : monitor.poll k l.job.id last with
  | refused e =>
    have failed := leads_failed timeout polled e fun h => fails h put grown'
    refine EndsWithin.mono ?_ (by omega : n + 2 ≤ n + 3)
    exact endsWithin_of_signal rfl rfl timeout failed
  | broke detail =>
    exact endsWithin_of_signal rfl rfl timeout (leads_broke rfl detail)
  | started call =>
    have before := grown.asked (monitor.key, l.job.id)
    refine endsWithin_begin timeout (answers k call attempt) ?_
    exact leads_heard timeout polled attempt (replySignal_heard polled _)
      (fun h => fails h put grown') fun answer => goes k answer put (by omega) asked

/-- A worker that polls comes to an end: what is left of the retries and of the answers in progress
gets less with every poll. -/
theorem leads_settling (answers : l.Answers) (left : Nat) {more : Nat}
    (hleft : monitor.policy.maxRetry.toNat - failures + more ≤ left)
    (settles : monitor.SettlesWithin l.job.id more (counts.asked (monitor.key, l.job.id)) last) :
    (l.timed deadline (.polling last failures polls)).Leads (3 * left + 3) counts := by
  induction left generalizing more failures polls last counts with
  | zero =>
    refine leads_polling timeout polled (fun k => answers.polls monitor polled k last)
      (fun retry => by omega) fun k answer later before _ inProgress => ?_
    obtain rfl : more = 0 := by omega
    exact absurd inProgress (settles k answer before)
  | succ left ih =>
    refine leads_polling timeout polled (fun k => answers.polls monitor polled k last)
      (fun retry later grown => ih (by omega) (settles.later (grown.asked _)))
      fun k answer later before now inProgress => ?_
    cases more with
    | zero => exact absurd inProgress (settles k answer before)
    | succ more =>
      have next := settles k answer before inProgress
      exact ih (by omega) (now.symm ▸ next)

end Polling

end Phases

end TimedWorker

/-! ### From the start on -/

namespace Launch

/-- From this phase on the worker of a launch ends in at most so many steps, whatever its deadline
and whatever polls were asked for. -/
def EndsFrom (l : Launch) (phase : Worker.Phase) (n : Nat) : Prop :=
  ∀ deadline, (deadline ≠ none → l.job.policy.hasTimeout) →
    ∀ counts, (l.timed deadline phase).Leads n counts

namespace Answers

variable {l : Launch} (h : l.Answers)

include h

/-- A successful attempt leads to the end, at once or through polls. -/
theorem accepted {k : Nat} {answer : TaskResult}
    (reply : (l.job.attempt k).reply = .answer (.ok answer)) (success : answer.isError = false) :
    ∃ n, ∀ deadline, (deadline ≠ none → l.job.policy.hasTimeout) → ∀ failures counts,
      ({ l.timed deadline (.calling failures) with
        worker := ((l.timed deadline (.calling failures)).worker.accepted answer).1 } :
        TimedWorker).Leads n counts := by
  cases kind : l.kind with
  | submit =>
    refine ⟨0, fun deadline _ failures counts => TimedWorker.leads_done ?_⟩
    simp [timed, Worker.accepted, kind, WorkerKind.pollPolicy, Worker.finish, Worker.result?]
  | poll monitor =>
    obtain ⟨more, settles⟩ := h.settles monitor kind k answer reply success
    cases valid : monitor.policy.validate with
    | error e =>
      refine ⟨0, fun deadline _ failures counts => TimedWorker.leads_done ?_⟩
      simp [timed, Worker.accepted, kind, WorkerKind.pollPolicy, valid, Worker.finish,
        Worker.result?]
    | ok _ =>
      refine ⟨3 * (monitor.policy.maxRetry.toNat - 0 + more) + 3,
        fun deadline timeout failures counts => ?_⟩
      have first : ((l.timed deadline (.calling failures)).worker.accepted answer).1 =
          (l.timed deadline (.polling { answer with task := l.job.id } 0 1)).worker := by
        simp [timed, Worker.accepted, kind, WorkerKind.pollPolicy, valid, Worker.goto]
      rw [first]
      exact TimedWorker.leads_settling timeout kind h _ (Nat.le_refl _)
        (settles.later (Nat.zero_le _))

/-- An attempt leads to the end, if a failed one leads there. -/
theorem attempt {failures n : Nat}
    (retry : failures + 1 ≤ l.job.policy.maxRetry.toNat → l.EndsFrom (.calling (failures + 1)) n) :
    ∃ n, l.EndsFrom (.calling failures) n := by
  -- what follows if the attempt fails
  have failed (deadline : Option Nat) (timeout : deadline ≠ none → l.job.policy.hasTimeout)
      (error : String) (cause : Option String) (counts : PollCounts) :=
    TimedWorker.leads_attemptFailed timeout failures error cause
      fun h => retry h deadline timeout counts
  cases outcome : (l.job.attempt (failures + 1)).reply.outcome with
  | error e =>
    refine ⟨n + 3, fun deadline timeout counts =>
      TimedWorker.leads_calling timeout (h.attempts _) ?_⟩
    rw [outcome]
    exact failed deadline timeout e.message none counts
  | ok answer =>
    cases error : answer.isError with
    | true =>
      refine ⟨n + 3, fun deadline timeout counts =>
        TimedWorker.leads_calling timeout (h.attempts _) ?_⟩
      rw [outcome, TimedWorker.reacted, Worker.react_answered rfl, if_pos error]
      exact failed deadline timeout answer.errorText answer.cause counts
    | false =>
      obtain ⟨m, accepted⟩ := h.accepted (Reply.outcome_ok outcome) error
      refine ⟨m + 2, fun deadline timeout counts =>
        TimedWorker.leads_calling timeout (h.attempts _) ?_⟩
      rw [outcome, TimedWorker.reacted, Worker.react_answered rfl, if_neg (by simp [error])]
      exact accepted deadline timeout failures counts

/-- Attempts come to an end: each failed one uses up a retry. -/
theorem retries (left failures : Nat)
    (hleft : l.job.policy.maxRetry.toNat - failures ≤ left) :
    ∃ n, l.EndsFrom (.calling failures) n := by
  induction left generalizing failures with
  | zero => exact h.attempt (n := 0) fun retry => by omega
  | succ left ih =>
    obtain ⟨n, next⟩ := ih (failures + 1) (by omega)
    exact h.attempt fun _ => next

/-- **A worker whose calls answer has its result after a bounded number of steps**, whenever it
starts and whatever polls were asked for. -/
theorem ends : ∃ n, ∀ now counts, (TimedWorker.start l now).1.EndsWithin n counts := by
  obtain ⟨n, next⟩ := h.retries _ 0 (Nat.le_refl _)
  refine ⟨n, fun now counts => ?_⟩
  have started : (TimedWorker.start l now).1 = ((⟨l, (Worker.start l).1, none,
      (Worker.start l).1.policy.timeout?.map (now + ·.timerMs)⟩ : TimedWorker).arrange now .empty
        (Worker.start l).2 []).worker := rfl
  rw [started]
  rcases Worker.start_calling l with calling | ended
  · rw [calling]
    have leads := next (l.job.policy.timeout?.map (now + ·.timerMs)) (fun timed => ?_) .empty
    · exact (leads now .empty (Worker.start l).2 [] (.refl _)).later (PollCounts.empty_grown counts)
    · unfold TaskPolicy.timeout? at timed
      split at timed
      · assumption
      · simp at timed
  · refine .ended ?_
    rwa [(TimedWorker.arrange_events ..).1]

end Answers

end Launch

end Workflow
