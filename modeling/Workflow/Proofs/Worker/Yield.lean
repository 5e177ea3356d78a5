import Workflow.Proofs.Worker.Polling

/-!
# Workflow.Proofs.Worker.Yield — workers whose result does not depend on time

A worker yields a result if it comes to it whenever its steps are made, and whatever is polled on
behalf of other tasks in between.  Then it also makes a known number of polls, and none of its calls
has a number of more than 32 bits.  A job that is submitted yields the result of its submission
(`Launch.yields_of_submits`), and a polled one that of its polls (`Launch.yields_of_polls`).
-/

namespace Workflow

/-! ### Traces and counts -/

namespace TraceEntry

/-- Whether a poll is made. -/
def isPoll (e : TraceEntry) : Bool :=
  match e.mark with
  | .poll _ => true
  | _ => false

/-- How many polls are made. -/
def polls (trace : List TraceEntry) : Nat := trace.countP isPoll

/-- The numbers of all attempts and polls have at most 32 bits. -/
def Fits (trace : List TraceEntry) : Prop := ∀ e ∈ trace, e.mark.number < UInt32.size

theorem polls_append (trace more : List TraceEntry) :
    polls (trace ++ more) = polls trace + polls more := List.countP_append

theorem Fits.append {trace more : List TraceEntry} (h : Fits trace) (h' : Fits more) :
    Fits (trace ++ more) := fun e he => (List.mem_append.1 he).elim (h e) (h' e)

theorem Fits.nil : Fits [] := by simp [Fits]

end TraceEntry

namespace PollCounts

/-- Later on as many polls were asked for on behalf of a task. -/
structure SameFor (task : TaskId) (counts later : PollCounts) : Prop where
  asked : ∀ key, later.asked (key, task) = counts.asked (key, task)

variable {task : TaskId} {counts later last : PollCounts}

theorem SameFor.refl (task : TaskId) (counts : PollCounts) : SameFor task counts counts :=
  ⟨fun _ => rfl⟩

theorem SameFor.trans (h : SameFor task counts later) (h' : SameFor task later last) :
    SameFor task counts last := ⟨fun key => (h'.asked key).trans (h.asked key)⟩

end PollCounts

namespace TimedWorker

/-- A worker polls for its own task only. -/
theorem arrange_sameFor (w : TimedWorker) {task : TaskId} (other : task ≠ w.worker.task)
    (now : Nat) (counts : PollCounts) (events : List TaskEvent) (trace : List TraceEntry) :
    PollCounts.SameFor task counts (w.arrange now counts events trace).counts := by
  have arranges := w.arrange_arranges now counts events trace
  generalize w.arrange now counts events trace = fired at arranges
  cases arranges with
  | waits => exact .refl _ _
  | polls =>
    refine ⟨fun key => ?_⟩
    simp only [PollCounts.asked]
    rw [Table.get?_put_of_ne]
    exact fun same => other (Prod.mk.inj same).2
  | ends => exact .refl _ _

theorem fire_sameFor (w : TimedWorker) {task : TaskId} (other : task ≠ w.worker.task) (now : Nat)
    (counts : PollCounts) : PollCounts.SameFor task counts (w.fire now counts).counts := by
  have fires := w.fire_fires now counts
  generalize w.fire now counts = fired at fires
  cases fires with
  | idle => exact .refl _ _
  | begins => exact .refl _ _
  | signals s =>
    refine arrange_sameFor _ (fun same => other (same.trans ?_)) ..
    exact Worker.react_task w.worker s

/-! ### Workers that yield a result -/

/-- Whenever its steps are made, and whatever is polled for other tasks meanwhile, the worker comes
to this result, and makes so many polls until then. -/
inductive Yields (r : TaskResult) : TimedWorker → Nat → PollCounts → Prop
  | ended {w : TimedWorker} {counts : PollCounts} (h : w.worker.result? = some r) :
    Yields r w 0 counts
  | fires {w : TimedWorker} {made more : Nat} {counts : PollCounts}
    (going : w.worker.result? = none)
    (traced : ∀ now later, PollCounts.SameFor w.worker.task counts later →
      TraceEntry.polls (w.fire now later).trace = made ∧ TraceEntry.Fits (w.fire now later).trace)
    (next : ∀ now later, PollCounts.SameFor w.worker.task counts later →
      Yields r (w.fire now later).worker more (w.fire now later).counts) :
    Yields r w (made + more) counts

/-- What a timer leaves that has fired: so many polls, and a worker that yields a result. -/
structure Fired.Leads (f : Fired) (r : TaskResult) (made more : Nat) : Prop where
  polls : TraceEntry.polls f.trace = made
  fits : TraceEntry.Fits f.trace
  yields : f.worker.Yields r more f.counts

theorem Yields.of_fire {w : TimedWorker} {r : TaskResult} {made more : Nat} {counts : PollCounts}
    (going : w.worker.result? = none)
    (fires : ∀ now later, PollCounts.SameFor w.worker.task counts later →
      (w.fire now later).Leads r made more) : w.Yields r (made + more) counts :=
  .fires going (fun now later same => ⟨(fires now later same).polls, (fires now later same).fits⟩)
    fun now later same => (fires now later same).yields

theorem Yields.later {w : TimedWorker} {r : TaskResult} {polls : Nat} {counts later : PollCounts}
    (h : w.Yields r polls counts) (same : PollCounts.SameFor w.worker.task counts later) :
    w.Yields r polls later := by
  cases h with
  | ended h => exact .ended h
  | fires going traced next =>
    exact .fires going (fun now last more => traced now last (same.trans more))
      fun now last more => next now last (same.trans more)

end TimedWorker

/-- Whenever it starts, the worker of a launch that was not polled before yields this result, after
so many polls. -/
def Launch.Yields (l : Launch) (r : TaskResult) (polls : Nat) : Prop :=
  ∀ now counts, (∀ key, counts.asked (key, l.job.id) = 0) →
    (TimedWorker.start l now).1.Yields r polls counts

/-! ### Submissions -/

namespace Launch

section Submission

variable {l : Launch} {r : TaskResult} {n polls : Nat} {counts : PollCounts}

theorem start_attempting (untimed : l.job.policy.hasTimeout = false)
    (valid : l.job.policy.validate = .ok ()) (now : Nat) :
    (TimedWorker.start l now).1 = l.attempting 0 now :=
  congrArg Alone.worker (l.alone_eq untimed valid now .empty .empty)

/-- A worker that is done makes no more polls. -/
theorem leads_done (counts : PollCounts) (events : List TaskEvent) {trace : List TraceEntry}
    (quiet : TraceEntry.polls trace = 0) (fits : TraceEntry.Fits trace) :
    TimedWorker.Fired.Leads ⟨l.timed none (.done r), counts, events, trace⟩ r 0 0 :=
  ⟨quiet, fits, .ended rfl⟩

/-- An attempt leads to what comes of its outcome. -/
theorem yields_attempting (answers : (l.job.attempt (n + 1)).time ≠ none)
    (small : n + 1 < UInt32.size)
    (ends : ∀ now later trace, PollCounts.SameFor l.job.id counts later →
      TraceEntry.polls trace = 0 → TraceEntry.Fits trace →
      ((l.timed none (.calling n)).signal now later
        (.answered (l.job.attempt (n + 1)).reply.outcome) trace).Leads r 0 polls) (set : Nat) :
    (l.attempting n set).Yields r polls counts := by
  obtain ⟨time, takes⟩ := Option.ne_none_iff_exists'.1 answers
  rw [← Nat.zero_add polls]
  refine .of_fire rfl fun now later same => ?_
  rw [fire_attempting later takes, ← Nat.zero_add polls]
  refine ⟨rfl, by simpa [TraceEntry.Fits, Mark.number] using small,
    .of_fire rfl fun now last more => ?_⟩
  rw [fire_calling]
  refine ends now last _ (same.trans more) ?_ ?_
  · cases (l.job.attempt (n + 1)).reply <;> rfl
  · cases (l.job.attempt (n + 1)).reply with
    | answer _ => simpa [TraceEntry.Fits, Mark.number] using small
    | broke _ => exact .nil

/-- All attempts but the last one fail: the worker yields what the last one leads to. -/
theorem yields_attempts (answers : ∀ i, (l.job.attempt i).time ≠ none)
    (small : l.job.policy.maxRetry.toNat < UInt32.size - 1) {last : Nat}
    (within : last ≤ l.job.policy.maxRetry.toNat)
    (failed : ∀ i < last, (l.job.attempt (i + 1)).reply.success? = none)
    (ends : ∀ now later trace, PollCounts.SameFor l.job.id counts later →
      TraceEntry.polls trace = 0 → TraceEntry.Fits trace →
      ((l.timed none (.calling last)).signal now later
        (.answered (l.job.attempt (last + 1)).reply.outcome) trace).Leads r 0 polls)
    {more : Nat} (hn : n + more = last) (set : Nat) :
    (l.attempting n set).Yields r polls counts := by
  induction more generalizing n set with
  | zero =>
    obtain rfl : n = last := hn
    exact yields_attempting (answers _) (by omega) ends set
  | succ more ih =>
    refine yields_attempting (answers _) (by omega) (fun now later trace same quiet fits => ?_) set
    rw [signal_failed later (failed n (by omega)) (by omega), ← Nat.zero_add polls]
    refine ⟨quiet, fits, .of_fire rfl fun now last more => ?_⟩
    rw [fire_backingOff]
    exact ⟨rfl, .nil, (ih (by omega) now).later (same.trans more)⟩

/-- **A job that is submitted yields the result of its submission**, without polls. -/
theorem yields_of_submits (submitted : l.kind = .submit)
    (answers : ∀ i, (l.job.attempt i).time ≠ none) (untimed : l.job.policy.hasTimeout = false)
    (valid : l.job.policy.validate = .ok ())
    (small : l.job.policy.maxRetry.toNat < UInt32.size - 1) {k : Nat}
    (submits : l.job.Submits k r) : l.Yields r 0 := by
  intro now counts _
  rw [start_attempting untimed valid]
  cases submits with
  | @succeeds last answer failed within success =>
    refine yields_attempts answers small within failed (fun now later trace _ quiet fits => ?_)
      (Nat.zero_add last) now
    rw [signal_succeeded now trace success submitted rfl]
    exact leads_done later _ quiet fits
  | givesUp failed =>
    refine yields_attempts answers small (Nat.le_refl _) (fun i hi => failed i (Nat.le_of_lt hi))
      (fun now later trace _ quiet fits => ?_) (Nat.zero_add _) now
    rw [signal_exhausted now trace (failed _ (Nat.le_refl _)) (Nat.lt_succ_self _) rfl]
    exact leads_done later _ quiet fits

end Submission

/-! ### Polls -/

section Polls

variable {l : Launch} {r : TaskResult}

/-- A poll that was made ends with an outcome. -/
theorem replySignal_polls {monitor : Monitor} (polled : l.kind = .poll monitor) {n time : Nat}
    {last : TaskResult} {outcome : Worker.PollOutcome}
    (ends : monitor.Polls l.job.id n last time outcome) {call : Call}
    (started : monitor.poll n l.job.id last = .started call) (failures polls : Nat) :
    call.time = some time ∧
      (l.timed none (.polling last failures polls)).replySignal call.reply = .polled outcome := by
  cases ends with
  | refused refused => cases started.symm.trans refused
  | failed called takes outcome =>
    cases started.symm.trans called
    exact ⟨takes, replySignal_error polled outcome⟩
  | error called takes outcome error =>
    cases started.symm.trans called
    exact ⟨takes, replySignal_refused polled outcome error⟩
  | answered called takes outcome fine interpreted =>
    cases started.symm.trans called
    exact ⟨takes, replySignal_answered polled outcome fine interpreted⟩

variable {c : PollCourse l.job.id}

/-- The worker that has asked for poll number `j + 1` of a course. -/
def polling (l : Launch) (c : PollCourse l.job.id) (j set : Nat) : TimedWorker :=
  l.awaiting c.monitor (c.last j) (Worker.failedPolls c.outcome j) (j + 1) (c.first + j) set

variable (polled : l.kind = .poll c.monitor) {last : Nat}
  (called : ∀ j ≤ last, ∃ call, c.attempt j = .started call)
  (ends : c.Follows (last + 1)) (small : c.first + last < UInt32.size)

include polled called ends small

/-- A poll that is made leads to what comes of its outcome. -/
theorem yields_polling {j polls : Nat} (hj : j ≤ last) {counts : PollCounts}
    (outcome : ∀ now later trace, PollCounts.SameFor l.job.id counts later →
      TraceEntry.polls trace = 0 → TraceEntry.Fits trace →
      ((l.timed none (.polling (c.last j) (Worker.failedPolls c.outcome j) (j + 1))).signal now
        later (.polled (c.outcome j)) trace).Leads r 0 polls) (set : Nat) :
    (l.polling c j set).Yields r (1 + polls) counts := by
  obtain ⟨call, started⟩ := called j hj
  obtain ⟨takes, signal⟩ := replySignal_polls polled (ends j (by omega)) started
    (Worker.failedPolls c.outcome j) (j + 1)
  refine .of_fire rfl fun now later same => ?_
  rw [polling, fire_awaiting started takes, ← Nat.zero_add polls]
  refine ⟨rfl, ?_, .of_fire rfl fun now last more => ?_⟩
  · have number : c.first + j < UInt32.size := by omega
    simpa [TraceEntry.Fits, Mark.number] using number
  · rw [fire_polling, signal]
    refine outcome now last _ (same.trans more) ?_ ?_
    · cases call.reply <;> rfl
    · have number : c.first + j < UInt32.size := by omega
      cases call.reply with
      | answer _ => simpa [TraceEntry.Fits, Mark.number] using number
      | broke _ => exact .nil

/-- Polling that stops at poll number `last + 1` takes all polls up to this one. -/
theorem yields_course (goes : c.GoesOn last) (stops : c.Stops last r) {j more : Nat}
    (hj : j + more = last) {counts : PollCounts}
    (asked : counts.asked (c.monitor.key, l.job.id) = c.first + j) (set : Nat) :
    (l.polling c j set).Yields r (more + 1) counts := by
  induction more generalizing j counts set with
  | zero =>
    obtain rfl : j = last := hj
    change TimedWorker.Yields r _ (1 + 0) counts
    refine yields_polling polled called ends small (Nat.le_refl j)
      (fun now later trace _ quiet fits => ?_) set
    rw [signal_stops polled later stops]
    exact leads_done later _ quiet fits
  | succ more ih =>
    rw [Nat.add_comm]
    refine yields_polling polled called ends small (by omega)
      (fun now later trace same quiet fits => ?_) set
    have goes' : c.GoesOn (j + 1) := fun i hi => goes i (by omega)
    rw [signal_goes polled later goes', arrange_resting polled, ← Nat.zero_add (more + 1)]
    refine ⟨quiet, fits, .of_fire rfl fun now after kept => ?_⟩
    have number : after.asked (c.monitor.key, l.job.id) + 1 = c.first + (j + 1) := by
      have rested : after.asked (c.monitor.key, l.job.id) = later.asked (c.monitor.key, l.job.id) :=
        kept.asked c.monitor.key
      rw [rested, same.asked, asked]
      omega
    rw [fire_resting, arrange_awaiting polled _ _ _ now number]
    refine ⟨rfl, ?_, ih (by omega) (by simp) now⟩
    have fits : c.first + (j + 1) < UInt32.size := by omega
    simpa [TraceEntry.Fits, Mark.number] using fits

/-- **A polled job yields the result of its polls**, and makes all polls up to the last one. -/
theorem yields_of_polls (answers : ∀ i, (l.job.attempt i).time ≠ none)
    (untimed : l.job.policy.hasTimeout = false) (valid : l.job.policy.validate = .ok ())
    (retries : l.job.policy.maxRetry.toNat < UInt32.size - 1) {k : Nat}
    (submits : l.job.Submits k c.submitted) (success : c.submitted.status = .success)
    (known : c.monitor.policy.validate = .ok ()) (first : c.first = 1) (goes : c.GoesOn last)
    (stops : c.Stops last r) : l.Yields r (last + 1) := by
  intro now counts fresh
  rw [start_attempting untimed valid]
  generalize hr : c.submitted = submitted at submits success
  cases submits with
  | givesUp failed => cases success
  | @succeeds final answer failed within success' =>
    refine yields_attempts answers retries within failed (fun now later trace same quiet fits => ?_)
      (Nat.zero_add final) now
    have number : later.asked (c.monitor.key, l.job.id) + 1 = c.first := by
      rw [same.asked, fresh, first]
    rw [signal_polling now trace success' polled known hr.symm number]
    refine ⟨?_, fits.append ?_, ?_⟩
    · rw [TraceEntry.polls_append, quiet]
      rfl
    · have fits : c.first < UInt32.size := by omega
      simpa [TraceEntry.Fits, Mark.number] using fits
    · exact yields_course polled called ends small goes stops (Nat.zero_add last) (by simp) now

end Polls

end Launch

end Workflow
