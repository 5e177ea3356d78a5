import Workflow.Proofs.Worker.Polling

/-!
# Workflow.Proofs.Worker.Passing — time passes for a worker alone

A worker alone goes from one state to the next whenever something is due (`Alone.Goes`).  Time never
goes back, and it does not stand still either: attempts are bounded by the retries of the job, and
between two polls there is an interval, so before any time only finitely many things happen
(`Launch.settles`), although the worker may go on for ever.
-/

namespace Workflow

namespace Alone

/-! ### Steps -/

/-- What is due now has happened. -/
def next (x : Alone) (now : Nat) : Alone := ofFired now x.past (x.worker.fire now x.counts)

/-- The worker goes from one state to another in so many steps, all of them due before a limit. -/
inductive Goes (limit : Nat) : Nat → Alone → Alone → Prop
  | refl (x : Alone) : Goes limit 0 x x
  | step {n now : Nat} {x y : Alone} (due : x.worker.due = some now) (before : now < limit)
    (rest : Goes limit n (x.next now) y) : Goes limit (n + 1) x y

/-- Nothing more is due before a limit. -/
def Settled (limit : Nat) (x : Alone) : Prop := ∀ now, x.worker.due = some now → limit ≤ now

section Goes

variable {x y z : Alone} {limit later n m : Nat}

theorem run_of_settled (h : x.Settled limit) (fuel : Nat) :
    x.run limit fuel = (x.worker, x.past) := by
  cases fuel with
  | zero => rfl
  | succ fuel =>
    cases due : x.worker.due with
    | none => exact run_of_not_due due ..
    | some now => simp only [run, TimedWorker.run, due, if_pos (h now due)]

theorem run_of_due {now : Nat} (due : x.worker.due = some now) (before : now < limit)
    (fuel : Nat) : x.run limit (fuel + 1) = (x.next now).run limit fuel := by
  simp only [run, TimedWorker.run, due, if_neg (Nat.not_le_of_lt before)]
  rfl

theorem Goes.trans (h : x.Goes limit n y) (h' : y.Goes limit m z) : x.Goes limit (n + m) z := by
  induction h with
  | refl => rwa [Nat.zero_add]
  | @step n _ _ _ due before _ ih =>
    rw [Nat.add_right_comm]
    exact .step due before (ih h')

theorem Goes.mono (h : x.Goes limit n y) (hle : limit ≤ later) : x.Goes later n y := by
  induction h with
  | refl => exact .refl _
  | step due before _ ih => exact .step due (Nat.lt_of_lt_of_le before hle) ih

theorem Goes.run (h : x.Goes limit n y) (hle : limit ≤ later) (fuel : Nat) :
    x.run later (fuel + n) = y.run later fuel := by
  induction h with
  | refl => rfl
  | step due before _ ih =>
    rw [← Nat.add_assoc, run_of_due due (Nat.lt_of_lt_of_le before hle), ih]

/-- Where nothing more is due the run has come to its end. -/
theorem Goes.run_settled (h : x.Goes limit n y) (settled : y.Settled limit) {fuel : Nat}
    (enough : n ≤ fuel) : x.run limit fuel = (y.worker, y.past) := by
  rw [show fuel = fuel - n + n by omega, h.run (Nat.le_refl limit), run_of_settled settled]

/-- A run makes such steps, as many as it may or until nothing more is due. -/
theorem exists_goes (x : Alone) (limit fuel : Nat) : ∃ n y, x.Goes limit n y ∧
    x.run limit fuel = (y.worker, y.past) ∧ (n = fuel ∨ n ≤ fuel ∧ y.Settled limit) := by
  induction fuel generalizing x with
  | zero => exact ⟨0, x, .refl x, rfl, .inl rfl⟩
  | succ fuel ih =>
    by_cases settled : x.Settled limit
    · exact ⟨0, x, .refl x, run_of_settled settled _, .inr ⟨Nat.zero_le _, settled⟩⟩
    · simp only [Settled, not_forall, Nat.not_le] at settled
      obtain ⟨now, due, before⟩ := settled
      obtain ⟨n, y, goes, run, ends⟩ := ih (x.next now)
      refine ⟨n + 1, y, .step due before goes, (run_of_due due before fuel).trans run, ?_⟩
      exact ends.imp (congrArg (· + 1)) fun ⟨enough, settled⟩ => ⟨Nat.succ_le_succ enough, settled⟩

/-- On the way to where nothing more is due before a later time there is a state in which nothing
more is due before this one. -/
theorem Goes.split (h : x.Goes later n y) (settled : y.Settled later) (hle : limit ≤ later) :
    ∃ m k z, x.Goes limit m z ∧ z.Settled limit ∧ z.Goes later k y := by
  induction h with
  | refl x => exact ⟨0, 0, x, .refl x, fun now due => Nat.le_trans hle (settled now due), .refl x⟩
  | @step n now x y due before rest ih =>
    by_cases early : now < limit
    · obtain ⟨m, k, z, goes, here, rest⟩ := ih settled
      exact ⟨m + 1, k, z, .step due early goes, here, rest⟩
    · refine ⟨0, n + 1, x, .refl x, fun at_ due' => ?_, .step due before rest⟩
      cases due.symm.trans due'
      exact Nat.le_of_not_lt early

/-- Of two states that the worker comes to it comes to one after the other. -/
theorem Goes.compare (h : x.Goes limit n y) (h' : x.Goes later m z) :
    (∃ k, y.Goes later k z) ∨ ∃ k, z.Goes limit k y := by
  induction h generalizing m with
  | refl => exact .inl ⟨m, h'⟩
  | step due before rest ih =>
    cases h' with
    | refl => exact .inr ⟨_, .step due before rest⟩
    | step due' _ rest' =>
      cases due.symm.trans due'
      exact ih rest'

/-- A worker to which nothing more happens stays where it is. -/
theorem Goes.eq_of_ended (h : x.Goes limit n y) (ended : x.worker.due = none) : y = x := by
  cases h with
  | refl => rfl
  | step due => cases ended.symm.trans due

end Goes

end Alone

/-! ### Time does not go back -/

namespace TimedWorker

section Times

variable {w : TimedWorker} {now : Nat}

/-- It is a timer or the deadline that is due. -/
theorem due_cases (due : w.due = some now) :
    (∃ wake, w.wake = some (now, wake)) ∨ w.deadline = some now := by
  unfold TimedWorker.due at due
  cases hw : w.wake with
  | none => exact .inr (by simpa [hw] using due)
  | some timer =>
    cases hd : w.deadline with
    | none => exact .inl ⟨timer.2, by simpa [hw, hd, Prod.ext_iff] using due⟩
    | some deadline =>
      simp only [hw, hd, Option.some.injEq] at due
      rcases Nat.le_total timer.1 deadline with first | first
      · exact .inl ⟨timer.2, by rw [← due, Nat.min_eq_left first]⟩
      · exact .inr (by rw [← due, Nat.min_eq_right first])

theorem le_deadline {deadline : Nat} (due : w.due = some now) (set : w.deadline = some deadline) :
    now ≤ deadline := by
  unfold TimedWorker.due at due
  rw [set] at due
  cases hw : w.wake with
  | none => simp_all
  | some timer =>
    simp only [hw, Option.some.injEq] at due
    omega

/-- A deadline is never put off. -/
theorem arrange_deadline (counts : PollCounts) (events : List TaskEvent) (trace : List TraceEntry)
    {deadline : Nat} (set : (w.arrange now counts events trace).worker.deadline = some deadline) :
    w.deadline = some deadline := by
  have arranges := w.arrange_arranges now counts events trace
  generalize w.arrange now counts events trace = fired at arranges set
  cases arranges with
  | waits => exact set
  | polls => exact set
  | ends => cases set

theorem fire_deadline (counts : PollCounts) {deadline : Nat}
    (set : (w.fire now counts).worker.deadline = some deadline) : w.deadline = some deadline := by
  have fires := w.fire_fires now counts
  generalize w.fire now counts = fired at fires set
  cases fires with
  | idle => exact set
  | begins => exact set
  | signals s =>
    exact arrange_deadline (w := { w with worker := (w.worker.react s).1 }) counts _ _ set

/-- A timer that is set now is due now or later. -/
theorem arrange_due (deadline : ∀ d, w.deadline = some d → now ≤ d) (counts : PollCounts)
    (events : List TaskEvent) (trace : List TraceEntry) {later : Nat}
    (due : (w.arrange now counts events trace).worker.due = some later) : now ≤ later := by
  have arranges := w.arrange_arranges now counts events trace
  generalize w.arrange now counts events trace = fired at arranges due
  cases arranges with
  | waits wake going ahead =>
    rcases due_cases due with ⟨wake, timer⟩ | set
    · exact ahead _ timer
    · exact deadline later set
  | polls =>
    rcases due_cases due with ⟨wake, timer⟩ | set
    · cases timer
      exact Nat.le_refl now
    · exact deadline later set
  | ends => cases due

theorem fire_due (due : w.due = some now) (counts : PollCounts) {later : Nat}
    (due' : (w.fire now counts).worker.due = some later) : now ≤ later := by
  have fires := w.fire_fires now counts
  generalize w.fire now counts = fired at fires due'
  cases fires with
  | idle => exact Nat.le_of_eq (Option.some.inj (due.symm.trans due'))
  | begins n call =>
    rcases due_cases due' with ⟨wake, timer⟩ | set
    · simp only [Option.map_eq_some_iff, Prod.mk.injEq] at timer
      omega
    · exact le_deadline due set
  | signals s =>
    exact arrange_due (w := { w with worker := (w.worker.react s).1 })
      (fun _ set => le_deadline due set) counts _ _ due'

/-- What happens now has happened now, and to the task of the worker. -/
theorem arrange_trace {trace : List TraceEntry}
    (own : ∀ e ∈ trace, e.time = now ∧ e.task = w.worker.task) (counts : PollCounts)
    (events : List TaskEvent) :
    ∀ e ∈ (w.arrange now counts events trace).trace, e.time = now ∧ e.task = w.worker.task := by
  have arranges := w.arrange_arranges now counts events trace
  generalize w.arrange now counts events trace = fired at arranges
  cases arranges with
  | waits => exact own
  | polls =>
    intro e he
    rcases List.mem_append.1 he with he | he
    · exact own e he
    · simp [List.mem_singleton.1 he]
  | ends => exact own

theorem fire_trace (w : TimedWorker) (now : Nat) (counts : PollCounts) :
    ∀ e ∈ (w.fire now counts).trace, e.time = now ∧ e.task = w.worker.task := by
  have fires := w.fire_fires now counts
  generalize w.fire now counts = fired at fires
  cases fires with
  | idle => simp
  | begins => simp
  | signals s trace own =>
    have same : (w.worker.react s).1.task = w.worker.task := Worker.react_task ..
    rw [← same] at own ⊢
    exact arrange_trace (w := { w with worker := (w.worker.react s).1 }) own counts _

/-- Nothing more is due to a worker that is done. -/
theorem arrange_ended (w : TimedWorker) (now : Nat) (counts : PollCounts)
    (events : List TaskEvent) (trace : List TraceEntry)
    (ended : (w.arrange now counts events trace).worker.worker.result? ≠ none) :
    (w.arrange now counts events trace).worker.due = none := by
  have arranges := w.arrange_arranges now counts events trace
  generalize w.arrange now counts events trace = fired at arranges ended
  cases arranges with
  | waits _ going => exact absurd going ended
  | polls _ _ _ _ going => exact absurd going ended
  | ends => rfl

theorem fire_ended (counts : PollCounts) (going : w.worker.result? = none)
    (ended : (w.fire now counts).worker.worker.result? ≠ none) :
    (w.fire now counts).worker.due = none := by
  have fires := w.fire_fires now counts
  generalize w.fire now counts = fired at fires ended
  cases fires with
  | idle => exact absurd going ended
  | begins => exact absurd going ended
  | signals => exact arrange_ended _ _ _ _ _ ended

end Times

end TimedWorker

/-! ### Timelines that continue -/

namespace Timeline

/-- The later timeline is the earlier one with what has happened from one time on and before
another. -/
def Continues (start limit : Nat) (past later : Timeline) : Prop :=
  ∃ events trace, later = ⟨past.events ++ events, past.trace ++ trace⟩ ∧
    (∀ e ∈ events, start ≤ e.1 ∧ e.1 < limit) ∧ ∀ e ∈ trace, start ≤ e.time ∧ e.time < limit

/-- All of it has happened before a time. -/
structure Before (limit : Nat) (past : Timeline) : Prop where
  events : ∀ e ∈ past.events, e.1 < limit
  trace : ∀ e ∈ past.trace, e.time < limit

variable {start limit : Nat} {past later : Timeline}

theorem Continues.before (h : past.Continues start limit later) (before : past.Before limit) :
    later.Before limit := by
  obtain ⟨events, trace, rfl, timed, traced⟩ := h
  refine ⟨fun e he => ?_, fun e he => ?_⟩
  · exact (List.mem_append.1 he).elim (before.events e) fun he => (timed e he).2
  · exact (List.mem_append.1 he).elim (before.trace e) fun he => (traced e he).2

/-- What has happened before a time is the timeline as it was then. -/
theorem Continues.filter (h : past.Continues start limit later) (before : past.Before start) :
    later.events.filter (·.1 < start) = past.events ∧
      later.trace.filter (·.time < start) = past.trace := by
  obtain ⟨events, trace, rfl, timed, traced⟩ := h
  have early : past.events.filter (·.1 < start) = past.events :=
    List.filter_eq_self.2 fun e he => by simpa using before.events e he
  have late : events.filter (·.1 < start) = [] :=
    List.filter_eq_nil_iff.2 fun e he => by simpa using (timed e he).1
  have early' : past.trace.filter (·.time < start) = past.trace :=
    List.filter_eq_self.2 fun e he => by simpa using before.trace e he
  have late' : trace.filter (·.time < start) = [] :=
    List.filter_eq_nil_iff.2 fun e he => by simpa using (traced e he).1
  simp [List.filter_append, early, late, early', late']

end Timeline

namespace Alone

section Times

variable {l : Launch} {x y : Alone} {now start limit n : Nat}

theorem next_settled (due : x.worker.due = some now) : (x.next now).Settled now :=
  fun _ due' => TimedWorker.fire_due due x.counts due'

/-- What happens on the way is added to the timeline. -/
theorem Goes.continues (h : x.Goes limit n y) (settled : x.Settled start) :
    x.past.Continues start limit y.past := by
  induction h generalizing start with
  | refl => exact ⟨[], [], by simp, by simp, by simp⟩
  | @step n now x y due before rest ih =>
    obtain ⟨events, trace, later, timed, traced⟩ := ih (next_settled due)
    -- what fires is due at `now`, and everything later comes behind it
    have reached := settled now due
    refine ⟨(x.worker.fire now x.counts).events.map (now, ·) ++ events,
      (x.worker.fire now x.counts).trace ++ trace, ?_, fun e he => ?_, fun e he => ?_⟩
    · rw [later, ← List.append_assoc, ← List.append_assoc]
      rfl
    · rcases List.mem_append.1 he with he | he
      · obtain ⟨event, -, rfl⟩ := List.mem_map.1 he
        exact ⟨reached, before⟩
      · exact ⟨Nat.le_trans reached (timed e he).1, (timed e he).2⟩
    · rcases List.mem_append.1 he with he | he
      · rw [(TimedWorker.fire_trace _ _ _ e he).1]
        exact ⟨reached, before⟩
      · exact ⟨Nat.le_trans reached (traced e he).1, (traced e he).2⟩

theorem Goes.before (h : x.Goes limit n y) (before : x.past.Before limit) :
    y.past.Before limit :=
  (h.continues (fun _ _ => Nat.zero_le _)).before before

/-- The worker is that of a launch, it has told all that was reported, and once it is done nothing
more is due. -/
structure Serves (l : Launch) (x : Alone) : Prop where
  history : x.worker.worker.History l (TimedCrew.told x.past)
  ended : x.worker.worker.result? ≠ none → x.worker.due = none

theorem Serves.going (h : x.Serves l) (due : x.worker.due = some now) :
    x.worker.worker.result? = none := by
  by_contra ended
  rw [h.ended ended] at due
  cases due

theorem Serves.next (h : x.Serves l) (due : x.worker.due = some now) : (x.next now).Serves l := by
  refine ⟨?_, TimedWorker.fire_ended x.counts (h.going due)⟩
  have told : TimedCrew.told (x.next now).past = _ := TimedCrew.told_extend ..
  rw [told]
  cases x.worker.fire_reacts now x.counts with
  | signal s reacts =>
    have reacted := h.history.react s
    rwa [reacts] at reacted
  | quiet same nothing =>
    rw [nothing, List.append_nil]
    exact same ▸ h.history

theorem Goes.serves (h : x.Goes limit n y) (serves : x.Serves l) : y.Serves l := by
  induction h with
  | refl => exact serves
  | step due _ _ ih => exact ih (serves.next due)

/-- The worker of a launch has reported the result that it has, and no other. -/
theorem Serves.reported (h : x.Serves l) {r : TaskResult} :
    (∃ time, (time, .result l.job.id r) ∈ x.past.events) ↔ x.worker.worker.result? = some r := by
  constructor
  · rintro ⟨time, reported⟩
    have told : .result l.job.id r ∈ TimedCrew.told x.past := List.mem_map_of_mem reported
    have result : r ∈ (TimedCrew.told x.past).filterMap TaskEvent.result? :=
      List.mem_filterMap.2 ⟨_, told, rfl⟩
    rw [h.history.reports.results] at result
    simpa using result
  · intro ended
    obtain ⟨opening, -, -, told⟩ := h.history.course.2.result ended
    have reported : .result l.job.id r ∈ TimedCrew.told x.past := by simp [told]
    obtain ⟨⟨time, event⟩, reported, rfl⟩ := List.mem_map.1 reported
    exact ⟨time, reported⟩

/-- The result is the last thing to happen. -/
theorem Goes.ends (h : x.Goes limit n y) (serves : x.Serves l) {time : Nat} {r : TaskResult}
    (reported : (time, .result l.job.id r) ∈ y.past.events) : x.Goes (time + 1) n y := by
  induction h with
  | refl => exact .refl _
  | @step n now x y due before rest ih =>
    refine .step due (Nat.lt_succ_of_le ?_) (ih (serves.next due) reported)
    have settled : x.Settled now := fun later due' =>
      Nat.le_of_eq (Option.some.inj (due.symm.trans due'))
    obtain ⟨events, trace, later, timed, -⟩ := (Goes.step due before rest).continues settled
    rw [later] at reported
    rcases List.mem_append.1 reported with earlier | reported
    · have ended := serves.reported.1 ⟨time, earlier⟩
      rw [serves.going due] at ended
      cases ended
    · exact (timed _ reported).1

end Times

/-! ### Time does not stand still -/

/-- Before a limit only finitely many things happen. -/
def Comes (limit : Nat) (x : Alone) : Prop := ∃ n y, x.Goes limit n y ∧ y.Settled limit

theorem Comes.of_next {limit : Nat} {x : Alone}
    (h : ∀ now, x.worker.due = some now → now < limit → (x.next now).Comes limit) :
    x.Comes limit := by
  by_cases settled : x.Settled limit
  · exact ⟨0, x, .refl x, settled⟩
  · simp only [Settled, not_forall, Nat.not_le] at settled
    obtain ⟨now, due, before⟩ := settled
    obtain ⟨n, y, goes, settled⟩ := h now due before
    exact ⟨n + 1, y, .step due before goes, settled⟩

end Alone

theorem PollPolicy.interval_pos {p : PollPolicy} (valid : p.validate = .ok ()) :
    0 < p.interval.timerMs := by
  have positive : p.intervalMs ≠ 0 := by
    intro zero
    simp [validate, zero] at valid
  rw [interval, Span.timerMs_ofMs]
  exact Nat.pos_of_ne_zero fun zero => positive (UInt64.toNat_inj.1 zero)

namespace Launch

/-- A launch that starts at some time and is driven alone. -/
def drive (l : Launch) (now : Nat) (counts : PollCounts) (limit fuel : Nat) :
    TimedWorker × Timeline :=
  (l.alone now counts .empty).run limit fuel

/-- A launch that starts with nothing reported. -/
theorem alone_serves (l : Launch) (now : Nat) (counts : PollCounts) :
    (l.alone now counts .empty).Serves l := by
  refine ⟨?_, TimedWorker.arrange_ended _ _ _ _ _⟩
  have told : TimedCrew.told (l.alone now counts .empty).past = (TimedWorker.start l now).2 := by
    rw [alone, TimedCrew.told_extend]
    rfl
  have started := (TimedWorker.staff_employs now).start l
  have history : (Worker.start l).1.History l (Worker.start l).2 := .start
  rw [told]
  rwa [started] at history

/-- Nothing is due to a launch before it starts. -/
theorem alone_settled (l : Launch) (now : Nat) (counts : PollCounts) (past : Timeline) :
    (l.alone now counts past).Settled now := by
  refine fun later due => TimedWorker.arrange_due (fun deadline set => ?_) _ _ _ due
  obtain ⟨timeout, -, rfl⟩ := Option.map_eq_some_iff.1 set
  exact Nat.le_add_right ..

theorem alone_before (l : Launch) {now : Nat} (counts : PollCounts) {limit : Nat}
    (early : now < limit) : (l.alone now counts .empty).past.Before limit := by
  refine ⟨fun e he => ?_, fun e he => by cases he⟩
  obtain ⟨event, -, rfl⟩ := List.mem_map.1 he
  exact early

/-- Only finitely many things happen before a limit to a worker without deadline that has entered a
phase at some time. -/
def Settles (l : Launch) (limit : Nat) (phase : Worker.Phase) (now : Nat) : Prop :=
  ∀ counts past events trace, (Alone.ofFired now past
    ((l.timed none phase).arrange now counts events trace)).Comes limit

section Settles

variable {l : Launch} {limit now : Nat}

theorem settles_done (r : TaskResult) : l.Settles limit (.done r) now :=
  fun _ _ _ _ => .of_next fun _ due => nomatch due

theorem settles_backingOff {failures : Nat} (delay : Span)
    (retry : ∀ later, l.Settles limit (.calling failures) later) :
    l.Settles limit (.backingOff failures delay) now :=
  fun counts _ _ _ => .of_next fun later _ _ => retry later counts _ [] []

/-- The next poll is asked for when the interval is over, if that is before the limit. -/
theorem settles_resting {monitor : Monitor} (polled : l.kind = .poll monitor)
    (last : TaskResult) (failures polls : Nat)
    (next : now + monitor.policy.interval.timerMs < limit →
      l.Settles limit (.polling last failures (polls + 1))
        (now + monitor.policy.interval.timerMs)) :
    l.Settles limit (.resting last failures polls) now := by
  intro counts past events trace
  refine .of_next fun later due before => ?_
  have interval : now + monitor.policy.interval.timerMs = later := by
    simpa [Alone.ofFired, TimedWorker.arrange, timed, polled, WorkerKind.pollPolicy,
      TimedWorker.due] using due
  subst interval
  exact next before counts _ [] []

/-- A call hangs, or it ends and the worker gets its outcome. -/
theorem comes_call {phase : Worker.Phase} (n : Nat) (call : Call)
    (ends : ∀ later counts past trace, now ≤ later → (Alone.ofFired later past
      ((l.timed none phase).signal later counts ((l.timed none phase).replySignal call.reply)
        trace)).Comes limit)
    (counts : PollCounts) (past : Timeline) :
    Alone.Comes limit
      ⟨{ l.timed none phase with wake := some (now, .begin n call) }, counts, past⟩ := by
  refine .of_next fun start due _ => ?_
  obtain rfl : now = start := Option.some.inj due
  obtain ⟨time, reply⟩ := call
  cases time with
  | none => exact .of_next fun _ due => nomatch due
  | some time =>
    refine .of_next fun later due _ => ?_
    obtain rfl : now + time = later := Option.some.inj due
    exact ends _ counts _ _ (Nat.le_add_right ..)

section Polling

variable {monitor : Monitor} (polled : l.kind = .poll monitor) {last : TaskResult}
  {failures polls : Nat}
  (rests : ∀ last failures later, now ≤ later →
    l.Settles limit (.resting last failures polls) later)
include polled rests

/-- After a poll the worker rests, or it is done. -/
theorem comes_polled {later : Nat} (passed : now ≤ later) (outcome : Worker.PollOutcome)
    (counts : PollCounts) (past : Timeline) (trace : List TraceEntry) :
    (Alone.ofFired later past ((l.timed none (.polling last failures polls)).signal later counts
      (.polled outcome) trace)).Comes limit := by
  rw [TimedWorker.signal, TimedWorker.react_polled polled, Worker.polled_eq]
  cases outcome.meaning with
  | failed error =>
    simp only [Worker.pollFailed]
    cases (RetryBudget.forPoll monitor.policy).decide (failures + 1) error with
    | retry => exact rests last (failures + 1) later passed counts past [] trace
    | giveUp reason => exact settles_done _ counts past _ trace
  | inProgress answer => exact rests answer failures later passed counts past [] trace
  | complete r => exact settles_done _ counts past _ trace

theorem settles_polling : l.Settles limit (.polling last failures polls) now := by
  intro counts past events trace
  rw [arrange_awaiting polled last failures polls now rfl]
  generalize counts.asked (monitor.key, l.job.id) + 1 = n
  unfold awaiting
  cases monitor.poll n l.job.id last with
  | refused e =>
    refine .of_next fun later due _ => ?_
    obtain rfl : now = later := Option.some.inj due
    exact comes_polled polled rests (Nat.le_refl now) (.failed e) _ _ []
  | broke detail =>
    refine .of_next fun later due _ => ?_
    exact settles_done _ _ _ _ []
  | started call =>
    refine comes_call n call (fun later counts past trace passed => ?_) _ _
    have heard : monitor.Heard l.job.id call.reply
        ((l.timed none (.polling last failures polls)).replySignal call.reply) :=
      TimedWorker.replySignal_heard polled call.reply
    generalize (l.timed none (.polling last failures polls)).replySignal call.reply = s at heard
    cases heard with
    | failed e => exact comes_polled polled rests passed _ counts past trace
    | refused => exact comes_polled polled rests passed _ counts past trace
    | answered => exact comes_polled polled rests passed _ counts past trace
    | broke detail => exact settles_done _ counts past _ trace

end Polling

/-- Polls go on at an interval, so there are only finitely many of them before the limit. -/
theorem settles_polls {monitor : Monitor} (polled : l.kind = .poll monitor)
    (known : monitor.policy.validate = .ok ()) (last : TaskResult) (failures polls : Nat)
    {left : Nat} (hleft : limit - now ≤ left) :
    l.Settles limit (.polling last failures polls) now := by
  have interval := PollPolicy.interval_pos known
  induction left generalizing last failures polls now with
  | zero =>
    refine settles_polling polled fun last failures later passed => ?_
    exact settles_resting polled last failures polls fun early => by omega
  | succ left ih =>
    refine settles_polling polled fun last failures later passed => ?_
    exact settles_resting polled last failures polls fun early =>
      ih last failures (polls + 1) (by omega)

theorem settles_calling {failures : Nat}
    (retry : failures + 1 ≤ l.job.policy.maxRetry.toNat →
      ∀ later, l.Settles limit (.calling (failures + 1)) later) :
    l.Settles limit (.calling failures) now := by
  intro counts past events trace
  refine comes_call (failures + 1) (l.job.attempt (failures + 1))
    (fun later counts past trace _ => ?_) _ _
  have answered : (l.timed none (.calling failures)).replySignal
    (l.job.attempt (failures + 1)).reply = .answered (l.job.attempt (failures + 1)).reply.outcome :=
    rfl
  rw [answered, TimedWorker.signal]
  generalize (l.job.attempt (failures + 1)).reply = reply
  cases success : reply.success? with
  | none =>
    rw [Worker.react_failed rfl success, Worker.attemptFailed]
    cases decision : (RetryBudget.forRequest
        (l.timed none (.calling failures)).worker.policy).decide
      (failures + 1) reply.reason with
    | retry delay reason =>
      exact settles_backingOff delay (retry (RetryBudget.le_of_retry decision)) counts past [] trace
    | giveUp reason => exact settles_done _ counts past _ trace
  | some answer =>
    rw [Worker.react_succeeded rfl success, Worker.accepted]
    have policy : (l.timed none (.calling failures)).worker.pollPolicy = l.kind.pollPolicy := rfl
    cases kind : l.kind with
    | submit =>
      rw [kind, WorkerKind.pollPolicy] at policy
      simp only [policy]
      exact settles_done _ counts past _ trace
    | poll monitor =>
      rw [kind, WorkerKind.pollPolicy] at policy
      cases known : monitor.policy.validate with
      | error e =>
        simp only [policy, known]
        exact settles_done _ counts past _ trace
      | ok valid =>
        simp only [policy, known]
        exact settles_polls kind known _ 0 1 (Nat.le_refl _) counts past _ trace

/-- Attempts go on as long as there are retries left. -/
theorem settles_attempts {failures left : Nat}
    (hleft : l.job.policy.maxRetry.toNat - failures ≤ left) (now : Nat) :
    l.Settles limit (.calling failures) now := by
  induction left generalizing failures now with
  | zero => exact settles_calling fun retry => by omega
  | succ left ih => exact settles_calling fun _ => ih (by omega)

end Settles

/-- **Before any time only finitely many things happen** to a worker without deadline, whatever its
calls do. -/
theorem settles (l : Launch) (untimed : l.job.policy.hasTimeout = false) (now : Nat)
    (counts : PollCounts) (past : Timeline) (limit : Nat) :
    (l.alone now counts past).Comes limit := by
  cases valid : l.job.policy.validate with
  | error e =>
    rw [l.alone_invalid valid rfl]
    exact .of_next fun _ due => nomatch due
  | ok _ =>
    rw [l.alone_eq untimed valid]
    exact settles_attempts (Nat.le_refl _) now counts past [.created l.job.id] []

end Launch

end Workflow
