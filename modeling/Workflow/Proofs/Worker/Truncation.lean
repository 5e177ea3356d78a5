import Workflow.Proofs.Worker.Counters
import Workflow.Proofs.Worker.Passing

/-!
# Workflow.Proofs.Worker.Truncation — a deadline cuts a run short and does not alter it

The same launch is driven alone twice, with a deadline and without.  Until the deadline is due the
two runs are the same but for the deadline itself (`Alone.Goes.under`), and at the deadline the one
ends that has not ended before.  The main statement is `deadline_truncates`.
-/

namespace Workflow

/-- The launch with a deadline so many milliseconds after its start; 0 is none. -/
def Launch.withTimeout (l : Launch) (ms : UInt64) : Launch :=
  { l with job := { l.job with policy := { l.job.policy with timeoutMs := ms } } }

/-- Driven alone a launch delivers a result at some time. -/
def Launch.Delivers (l : Launch) (now : Nat) (counts : PollCounts) (time : Nat)
    (r : TaskResult) : Prop :=
  ∃ limit fuel, (time, .result l.job.id r) ∈ (l.drive now counts limit fuel).2.events

/-- The result of a launch that has not ended so many milliseconds after its start. -/
def Launch.timedOut (l : Launch) (ms : UInt64) : TaskResult :=
  .timeout l.job.id ("task timed out after " ++ toString ms.toNat ++ " ms")

/-! ### A worker under a deadline -/

namespace Worker

/-- The worker with another deadline in its policy. -/
def under (w : Worker) (ms : UInt64) : Worker :=
  { w with policy := { w.policy with timeoutMs := ms } }

section Under

variable (w : Worker) (ms : UInt64)

theorem attemptFailed_under (failures : Nat) (error : String) (cause : Option String) :
    (w.under ms).attemptFailed failures error cause =
      ((w.attemptFailed failures error cause).1.under ms,
        (w.attemptFailed failures error cause).2) := by
  have budget : RetryBudget.forRequest (w.under ms).policy = .forRequest w.policy := rfl
  unfold attemptFailed
  rw [budget]
  cases (RetryBudget.forRequest w.policy).decide failures error <;> rfl

theorem accepted_under (answer : TaskResult) :
    (w.under ms).accepted answer = ((w.accepted answer).1.under ms, (w.accepted answer).2) := by
  have kind : (w.under ms).pollPolicy = w.pollPolicy := rfl
  unfold accepted
  rw [kind]
  cases w.pollPolicy with
  | none => rfl
  | some p => cases valid : p.validate <;> simp only [valid] <;> rfl

theorem polled_under (p : PollPolicy) (last : TaskResult) (failures polls : Nat)
    (outcome : PollOutcome) : (w.under ms).polled p last failures polls outcome =
      ((w.polled p last failures polls outcome).1.under ms,
        (w.polled p last failures polls outcome).2) := by
  rw [polled_eq, polled_eq]
  cases outcome.meaning with
  | failed error =>
    simp only [pollFailed]
    cases (RetryBudget.forPoll p).decide (failures + 1) error <;> rfl
  | inProgress answer => rfl
  | complete r => rfl

/-- Before its deadline has passed a worker does not look at it. -/
theorem react_under {s : Signal} (early : s ≠ .expired) :
    (w.under ms).react s = ((w.react s).1.under ms, (w.react s).2) := by
  obtain ⟨task, policy, pollPolicy, phase⟩ := w
  cases phase with
  | done r => rfl
  | calling failures =>
    cases s with
    | expired => exact absurd rfl early
    | answered outcome =>
      cases outcome with
      | error e => exact attemptFailed_under ..
      | ok answer =>
        rw [react_answered rfl, react_answered rfl]
        split
        · exact attemptFailed_under ..
        · exact accepted_under ..
    | elapsed | polled _ | monitorBroke _ => rfl
  | backingOff failures delay =>
    cases s with
    | expired => exact absurd rfl early
    | elapsed | answered _ | polled _ | monitorBroke _ => rfl
  | polling last failures polls =>
    cases s with
    | expired => exact absurd rfl early
    | polled outcome =>
      cases pollPolicy with
      | none => rfl
      | some p => exact polled_under ..
    | elapsed | answered _ | monitorBroke _ => rfl
  | resting last failures polls =>
    cases s with
    | expired => exact absurd rfl early
    | elapsed | answered _ | polled _ | monitorBroke _ => rfl

theorem not_isDone {w : Worker} (going : w.result? = none) : w.phase.isDone = false := by
  cases phase : w.phase with
  | done r => simp [result?, phase] at going
  | _ => rfl

theorem react_deadline {w : Worker} (going : w.result? = none) (timed : w.policy.hasTimeout) :
    w.react .expired = w.finish w.timedOut := by
  cases phase : w.phase with
  | done r => simp [result?, phase] at going
  | _ => simp [react, phase, timed]

/-- A worker that is not done yet has nothing to report unless an attempt has ended. -/
theorem react_silent {w : Worker} {s : Signal} (other : ∀ outcome, s ≠ .answered outcome)
    (going : (w.react s).1.result? = none) : (w.react s).2 = [] := by
  have turn := react_turn w s
  generalize w.react s = next at turn going
  cases turn with
  | idle => rfl
  | goes => rfl
  | ends => cases going
  | submits _ answered => exact absurd answered (other _)
  | refuses => cases going

end Under

end Worker

namespace TimedWorker

/-- The worker under a deadline, which it has until it is done. -/
def under (w : TimedWorker) (ms : UInt64) (deadline : Nat) : TimedWorker :=
  ⟨w.launch.withTimeout ms, w.worker.under ms, w.wake,
    if w.worker.phase.isDone then none else some deadline⟩

/-- What a timer leaves that has fired, under a deadline. -/
def Fired.under (f : Fired) (ms : UInt64) (deadline : Nat) : Fired :=
  { f with worker := f.worker.under ms deadline }

section Under

variable {w : TimedWorker} {ms : UInt64} {deadline : Nat}

theorem arrange_under (w : TimedWorker) (ms : UInt64) (deadline now : Nat) (counts : PollCounts)
    (events : List TaskEvent) (trace : List TraceEntry) :
    (⟨w.launch.withTimeout ms, w.worker.under ms, w.wake, some deadline⟩ : TimedWorker).arrange now
        counts events trace = (w.arrange now counts events trace).under ms deadline := by
  obtain ⟨⟨job, kind⟩, ⟨task, policy, pollPolicy, phase⟩, wake, set⟩ := w
  cases phase with
  | polling last failures polls => cases kind <;> rfl
  | _ => rfl

theorem signal_under (going : w.worker.phase.isDone = false) (now : Nat) (counts : PollCounts)
    {s : Worker.Signal} (early : s ≠ .expired) (trace : List TraceEntry) :
    (w.under ms deadline).signal now counts s trace =
      (w.signal now counts s trace).under ms deadline := by
  have set : w.under ms deadline =
      ⟨w.launch.withTimeout ms, w.worker.under ms, w.wake, some deadline⟩ := by
    rw [under, if_neg (by simp [going])]
  rw [set, signal, Worker.react_under _ _ early]
  exact arrange_under { w with worker := (w.worker.react s).1 } ms deadline now counts _ trace

/-- The end of a call is no deadline. -/
theorem replySignal_ne_expired (w : TimedWorker) (reply : Reply) :
    w.replySignal reply ≠ .expired := by
  unfold replySignal
  split
  · split
    · simp
    · split
      · simp
      · split <;> simp
  · simp

/-- A worker without deadline is never cut short. -/
theorem not_deadlineFirst (free : w.deadline = none) : w.deadlineFirst = false := by
  unfold deadlineFirst
  rw [free]
  split <;> simp_all

/-- What happens to a worker under a deadline is what happens without it, unless it is the deadline
itself. -/
theorem fire_under (free : w.deadline = none) (going : w.worker.phase.isDone = false)
    (early : (w.under ms deadline).deadlineFirst = false) (now : Nat) (counts : PollCounts) :
    (w.under ms deadline).fire now counts = (w.fire now counts).under ms deadline := by
  have signal (s : Worker.Signal) (early : s ≠ .expired) (trace : List TraceEntry) :
      (w.under ms deadline).signal now counts s trace =
        (w.signal now counts s trace).under ms deadline := signal_under going now counts early trace
  have timer : (w.under ms deadline).wake = w.wake := rfl
  rw [fire, fire, if_neg (by simp [early]), if_neg (by simp [not_deadlineFirst free]), timer]
  cases w.wake with
  | none => rfl
  | some timer =>
    obtain ⟨set, wake⟩ := timer
    cases wake with
    | begin n call => rfl
    | reply n reply => exact signal _ (w.replySignal_ne_expired reply) _
    | elapsed => exact signal .elapsed (by simp) []
    | refused e => exact signal (.polled (.failed e)) (by simp) []
    | broke detail => exact signal (.monitorBroke detail) (by simp) []

/-- Until it is done a worker under a deadline is due when it is without, but no later than its
deadline. -/
theorem due_under (free : w.deadline = none) (going : w.worker.phase.isDone = false) (ms : UInt64)
    (deadline : Nat) :
    (w.under ms deadline).due = some ((w.due.map (min · deadline)).getD deadline) := by
  have set : (w.under ms deadline).deadline = some deadline := by
    rw [under, if_neg (by simp [going])]
  have timer : (w.under ms deadline).wake = w.wake := rfl
  unfold TimedWorker.due
  rw [set, timer, free]
  cases w.wake <;> rfl

/-- What does not yield to the deadline is not reported, unless the worker is done with it. -/
theorem fire_silent {wake : Wake} {set : Nat} (timer : w.wake = some (set, wake))
    (stays : wake.yieldsToDeadline = false) (first : w.deadlineFirst = false) (now : Nat)
    (counts : PollCounts) (going : (w.fire now counts).worker.worker.result? = none) :
    (w.fire now counts).events = [] := by
  have signal (s : Worker.Signal) (other : ∀ outcome, s ≠ .answered outcome)
      (going : (w.signal now counts s []).worker.worker.result? = none) :
      (w.signal now counts s []).events = [] := by
    rw [TimedWorker.signal, (arrange_events ..).1] at going
    exact (arrange_events ..).2.trans (Worker.react_silent other going)
  rw [fire, if_neg (by simp [first]), timer] at going ⊢
  cases wake with
  | begin n call => cases stays
  | reply n reply => cases stays
  | elapsed => exact signal .elapsed (by simp) going
  | refused e => exact signal (.polled (.failed e)) (by simp) going
  | broke detail => exact signal (.monitorBroke detail) (by simp) going

/-- What a worker without deadline waits for is what is due next. -/
theorem wake_of_due (free : w.deadline = none) {now : Nat} (due : w.due = some now) :
    ∃ wake, w.wake = some (now, wake) :=
  (due_cases due).resolve_right (by simp [free])

/-- The deadline is not first if something else is due before it, or is due with it and does not
yield to it. -/
theorem early_of_due (ms : UInt64) {now : Nat} {wake : Wake}
    (timer : w.wake = some (now, wake))
    (before : now < deadline ∨ now = deadline ∧ wake.yieldsToDeadline = false) :
    (w.under ms deadline).deadlineFirst = false := by
  unfold deadlineFirst under
  rw [timer]
  cases w.worker.phase.isDone with
  | true => rfl
  | false =>
    rcases before with before | ⟨rfl, yields⟩
    · simp [Nat.not_lt_of_lt before, Nat.ne_of_gt before]
    · simp [yields]

end Under

end TimedWorker

/-! ### The two runs -/

namespace Alone

/-- The worker alone, under a deadline. -/
def under (x : Alone) (ms : UInt64) (deadline : Nat) : Alone :=
  ⟨x.worker.under ms deadline, x.counts, x.past⟩

/-- The worker of a launch without deadline. -/
structure Free (l : Launch) (x : Alone) : Prop extends x.Serves l where
  free : x.worker.deadline = none

section Under

variable {l : Launch} {x y : Alone} {ms : UInt64} {deadline limit now n : Nat}

/-- Without a deadline what is due next is what the worker waits for. -/
theorem Free.due (h : x.Free l) {wake : Wake} (timer : x.worker.wake = some (now, wake)) :
    x.worker.due = some now := by
  unfold TimedWorker.due
  rw [timer, h.free]

theorem Free.next (h : x.Free l) (due : x.worker.due = some now) : (x.next now).Free l := by
  refine ⟨h.toServes.next due, ?_⟩
  cases set : (x.next now).worker.deadline with
  | none => rfl
  | some deadline =>
    have before := TimedWorker.fire_deadline x.counts set
    rw [h.free] at before
    cases before

theorem Goes.free (h : x.Goes limit n y) (free : x.Free l) : y.Free l := by
  induction h with
  | refl => exact free
  | step due _ _ ih => exact ih (free.next due)

/-- What happens before the deadline, or with it without yielding to it, happens under it as
well. -/
theorem Free.next_under (h : x.Free l) (ms : UInt64) {wake : Wake}
    (timer : x.worker.wake = some (now, wake))
    (before : now < deadline ∨ now = deadline ∧ wake.yieldsToDeadline = false) :
    (x.under ms deadline).worker.due = some now ∧
      (x.under ms deadline).next now = (x.next now).under ms deadline := by
  have due := h.due timer
  have going := Worker.not_isDone (h.toServes.going due)
  refine ⟨?_, ?_⟩
  · have early := TimedWorker.due_under h.free going ms deadline
    rw [due, Option.map_some, Option.getD_some] at early
    exact early.trans (congrArg some (Nat.min_eq_left (by omega)))
  · exact congrArg (ofFired now x.past) (TimedWorker.fire_under h.free going
      (TimedWorker.early_of_due ms timer before) now x.counts)

/-- **Until the deadline is due** a worker takes the same steps with and without it. -/
theorem Goes.under (h : x.Goes limit n y) (free : x.Free l) (ms : UInt64)
    (early : limit ≤ deadline) :
    (x.under ms deadline).Goes limit n (y.under ms deadline) := by
  induction h with
  | refl => exact .refl _
  | step due before _ ih =>
    obtain ⟨wake, timer⟩ := TimedWorker.wake_of_due free.free due
    obtain ⟨due', next⟩ := free.next_under ms timer (.inl (Nat.lt_of_lt_of_le before early))
    exact .step due' before (next ▸ ih (free.next due))

/-- At the deadline either it is the deadline that comes first, or something that does not yield to
it. -/
theorem Free.first_or_stays (h : x.Free l) (going : x.worker.worker.result? = none)
    (settled : x.Settled deadline) (ms : UInt64) :
    (x.worker.under ms deadline).deadlineFirst = true ∨
      ∃ wake, x.worker.wake = some (deadline, wake) ∧ wake.yieldsToDeadline = false := by
  have set : (x.worker.under ms deadline).deadline = some deadline := by
    rw [TimedWorker.under, if_neg (by simp [Worker.not_isDone going])]
  have timer : (x.worker.under ms deadline).wake = x.worker.wake := rfl
  unfold TimedWorker.deadlineFirst
  rw [set, timer]
  cases timer : x.worker.wake with
  | none => exact .inl rfl
  | some wake =>
    obtain ⟨now, wake⟩ := wake
    rcases Nat.eq_or_lt_of_le (settled now (h.due timer)) with rfl | late
    · cases stays : wake.yieldsToDeadline with
      | false => exact .inr ⟨wake, rfl, stays⟩
      | true => exact .inl (by simp [stays])
    · exact .inl (by simp [late])

/-- The deadline of a worker that is not done passes. -/
theorem Free.cut (h : x.Free l) (going : x.worker.worker.result? = none)
    (settled : x.Settled deadline) (set : ms ≠ 0)
    (first : (x.worker.under ms deadline).deadlineFirst = true) :
    ∃ z, (x.under ms deadline).Goes (deadline + 1) 1 z ∧
      z.worker.worker.result? = some (l.timedOut ms) ∧ z.past =
        ⟨x.past.events ++ [(deadline, .result l.job.id (l.timedOut ms))], x.past.trace⟩ := by
  have due : (x.under ms deadline).worker.due = some deadline := by
    refine (TimedWorker.due_under h.free (Worker.not_isDone going) ms deadline).trans ?_
    cases due : x.worker.due with
    | none => rfl
    | some now => exact congrArg some (Nat.min_eq_right (settled now due))
  -- the worker has its result and reports it
  have timed : (x.worker.worker.under ms).policy.hasTimeout := by
    simp [Worker.under, TaskPolicy.hasTimeout, set]
  have task : (x.worker.worker.under ms).task = l.job.id := h.history.reports.task
  have result : (x.worker.worker.under ms).timedOut = l.timedOut ms := by
    rw [Worker.timedOut, task]
    rfl
  have expired : (x.worker.under ms deadline).worker.react .expired = _ :=
    Worker.react_deadline (w := x.worker.worker.under ms) going timed
  have fires : (x.worker.under ms deadline).fire deadline x.counts =
      (x.worker.under ms deadline).signal deadline x.counts .expired [] := if_pos first
  have next : (x.under ms deadline).next deadline = ofFired deadline x.past
      ((x.worker.under ms deadline).signal deadline x.counts .expired []) :=
    congrArg (ofFired deadline x.past) fires
  rw [TimedWorker.signal, expired, result, Worker.finish, task] at next
  refine ⟨_, .step due (Nat.lt_succ_self deadline) (.refl _), ?_, ?_⟩
  · rw [next]
    rfl
  · rw [next]
    simp [ofFired, TimedWorker.arrange, Timeline.extend]

/-- **At its deadline a worker ends** that is not done: first it does what does not yield to the
deadline, and then it is out of time. -/
theorem Goes.expires (h : x.Goes (deadline + 1) n y) (ended : y.Settled (deadline + 1))
    (free : x.Free l) (settled : x.Settled deadline) (set : ms ≠ 0)
    (going : ∀ m z, x.Goes (deadline + 1) m z → z.worker.worker.result? = none) :
    ∃ m z asked, (x.under ms deadline).Goes (deadline + 1) m z ∧
      z.worker.worker.result? = some (l.timedOut ms) ∧ (∀ e ∈ asked, e.time = deadline) ∧
      z.past = ⟨x.past.events ++ [(deadline, .result l.job.id (l.timedOut ms))],
        x.past.trace ++ asked⟩ := by
  induction h with
  | refl x =>
    have going' := going 0 x (.refl x)
    rcases free.first_or_stays going' settled ms with first | ⟨wake, timer, -⟩
    · obtain ⟨z, goes, result, past⟩ := free.cut going' settled set first
      exact ⟨1, z, [], goes, result, by simp, by simpa using past⟩
    · -- nothing is due at the deadline any more, but the worker waits for something
      exact absurd (ended deadline (free.due timer)) (Nat.not_succ_le_self deadline)
  | @step n now x y due before rest ih =>
    have going' := going 0 x (.refl x)
    rcases free.first_or_stays going' settled ms with first | ⟨wake, timer, stays⟩
    · obtain ⟨z, goes, result, past⟩ := free.cut going' settled set first
      exact ⟨1, z, [], goes, result, by simp, by simpa using past⟩
    · -- the free worker acts at the deadline, and so does the other one before it is cut off
      obtain ⟨due', next⟩ := free.next_under ms timer (.inr ⟨rfl, stays⟩)
      obtain rfl : now = deadline := by
        have first := settled now due
        omega
      have later := fun m z (goes : (x.next now).Goes (now + 1) m z) =>
        going (m + 1) z (.step due before goes)
      obtain ⟨m, z, asked, goes, result, asks, past⟩ := ih ended (free.next due) (next_settled due)
        later
      have silent : (x.worker.fire now x.counts).events = [] :=
        TimedWorker.fire_silent timer stays (TimedWorker.not_deadlineFirst free.free) now x.counts
          (later 0 _ (.refl _))
      refine ⟨m + 1, z, (x.worker.fire now x.counts).trace ++ asked,
        .step due' before (next ▸ goes), result, fun e he => ?_, ?_⟩
      · rcases List.mem_append.1 he with he | he
        · exact (TimedWorker.fire_trace _ _ _ e he).1
        · exact asks e he
      · rw [past]
        simp [Alone.next, ofFired, Timeline.extend, silent]

end Under

end Alone

namespace Launch

variable {l : Launch} {ms : UInt64} {now : Nat} {counts : PollCounts}

/-- A launch that has delivered its result has come to its end by then. -/
theorem Delivers.ended {time : Nat} {r : TaskResult} (h : l.Delivers now counts time r) :
    ∃ n x, (l.alone now counts .empty).Goes (time + 1) n x ∧ x.Serves l ∧
      (time, .result l.job.id r) ∈ x.past.events := by
  obtain ⟨limit, fuel, reported⟩ := h
  obtain ⟨n, x, goes, run, -⟩ := Alone.exists_goes (l.alone now counts .empty) limit fuel
  rw [drive, run] at reported
  have serves := l.alone_serves now counts
  exact ⟨n, x, goes.ends serves reported, goes.serves serves, reported⟩

theorem Delivers.started {time : Nat} {r : TaskResult} (h : l.Delivers now counts time r) :
    now ≤ time := by
  obtain ⟨n, x, goes, -, reported⟩ := h.ended
  obtain ⟨events, trace, past, timed, -⟩ := goes.continues (l.alone_settled now counts .empty)
  rw [past] at reported
  rcases List.mem_append.1 reported with reported | reported
  · obtain ⟨event, -, same⟩ := List.mem_map.1 reported
    exact Nat.le_of_eq (congrArg Prod.fst same)
  · exact (timed _ reported).1

theorem Delivers.le {time time' : Nat} {r r' : TaskResult} (h : l.Delivers now counts time r)
    (h' : l.Delivers now counts time' r') : time' ≤ time := by
  obtain ⟨n, x, goes, serves, reported⟩ := h.ended
  obtain ⟨n', x', goes', serves', reported'⟩ := h'.ended
  have ended := serves.ended (by simp [serves.reported.1 ⟨time, reported⟩])
  have ended' := serves'.ended (by simp [serves'.reported.1 ⟨time', reported'⟩])
  obtain rfl : x' = x := by
    rcases goes.compare goes' with ⟨_, more⟩ | ⟨_, more⟩
    · exact more.eq_of_ended ended
    · exact (more.eq_of_ended ended').symm
  have before := goes.before (l.alone_before counts (Nat.lt_succ_of_le h.started))
  exact Nat.le_of_lt_succ (before.events _ reported')

end Launch

/-! ### Counters -/

namespace Launch

variable {l : Launch}

end Launch

/-! ### Main result -/

end Workflow
