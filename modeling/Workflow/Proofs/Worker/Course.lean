import Workflow.Proofs.Worker.Reports

/-!
# Workflow.Proofs.Worker.Course — the order in which a worker reports

A worker reports that its task was created, then, if it polls and its attempt has succeeded, that
the task was submitted, and last its result (`History.course`).  `Turn` says once what a signal can
do to a worker; whatever is claimed of the order of its reports is read off it.
-/

namespace Workflow

/-- The policy of the monitor, if there is one. -/
def WorkerKind.pollPolicy : WorkerKind → Option PollPolicy
  | submit => none
  | poll monitor => some monitor.policy

/-- What a launch reports before its result: its task was created, and perhaps submitted if it is
polled. -/
inductive Launch.Opening (l : Launch) : List TaskEvent → Prop
  | created : Opening l [.created l.job.id]
  | submitted (monitor : Monitor) (h : l.kind = .poll monitor) :
    Opening l [.created l.job.id, .submitted l.job.id]

/-- The events of a launch so far: some first ones of an opening and one result, that of its own
task. -/
def Launch.Protocol (l : Launch) (events : List TaskEvent) : Prop :=
  ∃ opening r, l.Opening opening ∧ r.task = l.job.id ∧
    events <+: opening ++ [.result l.job.id r]

theorem Launch.Opening.protocol {l : Launch} {events : List TaskEvent} (h : l.Opening events) :
    l.Protocol events :=
  ⟨events, .unknown l.job.id, h, rfl, List.prefix_append ..⟩

namespace Worker

/-- Whether the worker polls, or waits for its next poll. -/
def Phase.polls : Phase → Bool
  | polling _ _ _ => true
  | resting _ _ _ => true
  | _ => false

/-- Whether the worker has its result. -/
def Phase.isDone : Phase → Bool
  | done _ => true
  | _ => false

/-- What a signal does to a worker. -/
inductive Turn (w : Worker) (signal : Signal) : Worker × List TaskEvent → Prop
  /-- It is nothing that the worker waits for. -/
  | idle : Turn w signal (w, [])
  /-- The worker goes on with attempts, or with polls. -/
  | goes (phase : Phase) (same : phase.polls = w.phase.polls) (going : w.phase.isDone = false)
    (more : phase.isDone = false) : Turn w signal (w.goto phase)
  /-- The worker has its result, that of its task. -/
  | ends (r : TaskResult) (going : w.phase.isDone = false) (own : r.task = w.task) :
    Turn w signal (w.finish r)
  /-- An attempt has succeeded, and the worker begins to poll. -/
  | submits {failures : Nat} (calling : w.phase = .calling failures) {answer : TaskResult}
    (answered : signal = .answered (.ok answer)) (success : answer.status = .success)
    (polled : w.pollPolicy ≠ none) (last : TaskResult) (failed polls : Nat) :
    Turn w signal ({ w with phase := .polling last failed polls }, [.submitted w.task])
  /-- An attempt has succeeded, but the worker cannot poll. -/
  | refuses {failures : Nat} (calling : w.phase = .calling failures) {answer : TaskResult}
    (answered : signal = .answered (.ok answer)) (success : answer.status = .success)
    (polled : w.pollPolicy ≠ none) (r : TaskResult) (own : r.task = w.task) :
    Turn w signal ({ w with phase := .done r }, [.submitted w.task, .result w.task r])

section Turn

variable {w : Worker} {signal : Signal}

theorem accepted_turn {failures : Nat} (calling : w.phase = .calling failures)
    {answer : TaskResult} (answered : signal = .answered (.ok answer))
    (success : answer.isError = false) : Turn w signal (w.accepted answer) := by
  have hstatus : answer.status = .success := by
    simpa [TaskResult.isError, Status.isError] using success
  unfold accepted
  cases hp : w.pollPolicy with
  | none => exact .ends _ (by rw [calling]; rfl) rfl
  | some p =>
    have polled : w.pollPolicy ≠ none := by simp [hp]
    simp only
    cases p.validate with
    | ok _ => exact .submits calling answered hstatus polled _ _ _
    | error e => exact .refuses calling answered hstatus polled _ rfl

theorem attemptFailed_turn {failures : Nat} (calling : w.phase = .calling failures) (failed : Nat)
    (error : String) (cause : Option String) :
    Turn w signal (w.attemptFailed failed error cause) := by
  unfold attemptFailed
  cases (RetryBudget.forRequest w.policy).decide failed error with
  | retry delay _ => exact .goes _ (by rw [calling]; rfl) (by rw [calling]; rfl) rfl
  | giveUp reason => exact .ends _ (by rw [calling]; rfl) rfl

section Polling

variable {last : TaskResult} {failures polls : Nat}
  (polling : w.phase = .polling last failures polls)
include polling

theorem pollFailed_turn (p : PollPolicy) (last' : TaskResult) (failures' polls' : Nat)
    (error : String) : Turn w signal (w.pollFailed p last' failures' polls' error) := by
  unfold pollFailed
  cases (RetryBudget.forPoll p).decide failures' error with
  | retry _ _ => exact .goes _ (by rw [polling]; rfl) (by rw [polling]; rfl) rfl
  | giveUp reason => exact .ends _ (by rw [polling]; rfl) rfl

theorem polled_turn (p : PollPolicy) (last' : TaskResult) (failures' polls' : Nat)
    (outcome : PollOutcome) : Turn w signal (w.polled p last' failures' polls' outcome) := by
  have rests : ∀ answer, Turn w signal (w.goto (.resting answer failures' polls')) := fun answer =>
    .goes _ (by rw [polling]; rfl) (by rw [polling]; rfl) rfl
  unfold polled
  split
  · exact pollFailed_turn polling ..
  · split
    · exact pollFailed_turn polling ..
    · split
      · split
        · exact .ends _ (by rw [polling]; rfl) rfl
        · exact rests _
      · exact rests _

end Polling

/-- Every reaction of a worker is such a turn. -/
theorem react_turn (w : Worker) (signal : Signal) : Turn w signal (w.react signal) := by
  unfold react
  split
  · exact .idle
  · rename_i hdone
    split
    · -- the deadline ends a worker in whatever phase it is
      refine .ends _ ?_ rfl
      cases hphase : w.phase with
      | done r => exact absurd hphase (hdone r)
      | _ => rfl
    · exact .idle
  · rename_i calling
    split
    · exact attemptFailed_turn calling ..
    · rename_i success
      exact accepted_turn calling rfl (by simpa using success)
  · rename_i calling
    exact attemptFailed_turn calling ..
  · rename_i waiting
    exact .goes _ (by rw [waiting]; rfl) (by rw [waiting]; rfl) rfl
  · rename_i polling
    split
    · exact polled_turn polling ..
    · exact .idle
  · -- the monitor has broken off
    rename_i polling
    exact .ends _ (by rw [polling]; rfl) rfl
  · rename_i waiting
    exact .goes _ (by rw [waiting]; rfl) (by rw [waiting]; rfl) rfl
  · exact .idle

/-- A worker stays with its task. -/
theorem react_task (w : Worker) (signal : Signal) : (w.react signal).1.task = w.task := by
  have turn := react_turn w signal
  generalize w.react signal = next at turn
  cases turn <;> rfl

/-- A worker reports a submission only at the successful answer to an attempt of its own. -/
theorem submitted_of_react {task : TaskId} (h : .submitted task ∈ (w.react signal).2) :
    task = w.task ∧ ∃ failures answer, w.phase = .calling failures ∧
      signal = .answered (.ok answer) ∧ answer.status = .success := by
  have turn := react_turn w signal
  generalize w.react signal = next at turn h
  cases turn with
  | idle => simp at h
  | goes => simp [goto] at h
  | ends => simp [finish] at h
  | submits calling answered success => exact ⟨by simpa using h, _, _, calling, answered, success⟩
  | refuses calling answered success => exact ⟨by simpa using h, _, _, calling, answered, success⟩

end Turn

/-- How far a worker has come with its reports. -/
inductive Course (l : Launch) (w : Worker) (events : List TaskEvent) : Prop
  | attempts (polls : w.phase.polls = false) (going : w.phase.isDone = false)
    (reported : events = [.created l.job.id])
  | polls (monitor : Monitor) (h : l.kind = .poll monitor) (polls : w.phase.polls = true)
    (reported : events = [.created l.job.id, .submitted l.job.id])
  | ended {opening : List TaskEvent} (h : l.Opening opening) (r : TaskResult)
    (done : w.phase = .done r) (own : r.task = l.job.id)
    (reported : events = opening ++ [.result l.job.id r])

section Course

variable {l : Launch} {w : Worker} {events : List TaskEvent}

theorem Course.protocol (h : Course l w events) : l.Protocol events := by
  cases h with
  | attempts _ _ reported => exact reported ▸ Launch.Opening.created.protocol
  | polls monitor hk _ reported => exact reported ▸ (Launch.Opening.submitted monitor hk).protocol
  | ended h r _ own reported => exact ⟨_, r, h, own, reported ▸ List.prefix_refl _⟩

/-- Before it has its result a worker has only reported its opening. -/
theorem Course.opening (h : Course l w events) (hr : w.result? = none) : l.Opening events := by
  cases h with
  | attempts _ _ reported => exact reported ▸ .created
  | polls monitor hk _ reported => exact reported ▸ .submitted monitor hk
  | ended _ r done => simp [result?, done] at hr

/-- A worker with a result has reported it after its opening. -/
theorem Course.result (h : Course l w events) {r : TaskResult} (hr : w.result? = some r) :
    ∃ opening, l.Opening opening ∧ r.task = l.job.id ∧
      events = opening ++ [.result l.job.id r] := by
  cases h with
  | attempts _ going =>
    cases hp : w.phase <;> simp [result?, hp, Phase.isDone] at hr going
  | polls _ _ polls =>
    cases hp : w.phase <;> simp [result?, hp, Phase.polls] at hr polls
  | @ended opening h r' done own reported =>
    obtain rfl : r' = r := by simpa [result?, done] using hr
    exact ⟨opening, h, own, reported⟩

end Course

/-- A worker of a launch keeps to its task and to the kind of its launch. -/
structure Serves (l : Launch) (w : Worker) : Prop where
  task : w.task = l.job.id
  kind : w.pollPolicy = l.kind.pollPolicy

theorem Serves.monitor {l : Launch} {w : Worker} (h : Serves l w) (polled : w.pollPolicy ≠ none) :
    ∃ monitor, l.kind = .poll monitor := by
  rw [h.kind] at polled
  cases hk : l.kind with
  | submit => simp [hk, WorkerKind.pollPolicy] at polled
  | poll monitor => exact ⟨monitor, rfl⟩

/-- One more turn of a worker that has come some way. -/
theorem Turn.course {l : Launch} {w : Worker} {signal : Signal} {next : Worker × List TaskEvent}
    (turn : Turn w signal next) (serves : Serves l w) {events : List TaskEvent}
    (h : Course l w events) : Serves l next.1 ∧ Course l next.1 (events ++ next.2) := by
  obtain ⟨htask, hkind⟩ := serves
  cases turn with
  | idle => exact ⟨⟨htask, hkind⟩, by simpa using h⟩
  | goes phase same going more =>
    refine ⟨⟨htask, hkind⟩, ?_⟩
    rw [show events ++ (w.goto phase).2 = events from List.append_nil events]
    cases h with
    | attempts polls _ reported => exact .attempts (same.trans polls) more reported
    | polls monitor hk polls reported => exact .polls monitor hk (same.trans polls) reported
    | ended _ r done => simp [done, Phase.isDone] at going
  | ends r going own =>
    have own' : r.task = l.job.id := own.trans htask
    have hr : w.result? = none := by
      cases hp : w.phase <;> simp [result?, hp, Phase.isDone] at going ⊢
    refine ⟨⟨htask, hkind⟩, .ended (h.opening hr) r rfl own' ?_⟩
    rw [← htask]
    rfl
  | submits calling _ _ polled =>
    obtain ⟨monitor, hk⟩ := Serves.monitor ⟨htask, hkind⟩ polled
    refine ⟨⟨htask, hkind⟩, ?_⟩
    cases h with
    | attempts _ _ reported => exact .polls monitor hk rfl (by rw [reported, htask]; rfl)
    | polls _ _ polls => simp [calling, Phase.polls] at polls
    | ended _ r done => simp [calling] at done
  | refuses calling _ _ polled r own =>
    obtain ⟨monitor, hk⟩ := Serves.monitor ⟨htask, hkind⟩ polled
    refine ⟨⟨htask, hkind⟩, ?_⟩
    cases h with
    | attempts _ _ reported =>
      exact .ended (.submitted monitor hk) r rfl (own.trans htask) (by rw [reported, htask]; rfl)
    | polls _ _ polls => simp [calling, Phase.polls] at polls
    | ended _ r done => simp [calling] at done

theorem start_course (l : Launch) : Serves l (start l).1 ∧ Course l (start l).1 (start l).2 := by
  unfold start
  simp only
  split
  · exact ⟨⟨rfl, rfl⟩, .attempts rfl rfl rfl⟩
  · exact ⟨⟨rfl, rfl⟩, .ended .created _ rfl rfl rfl⟩

/-- A worker that starts has not been submitted. -/
theorem submitted_notMem_start (l : Launch) (task : TaskId) :
    .submitted task ∉ (start l).2 := by
  unfold start
  simp only
  split <;> simp [finish]

/-- **A worker reports in order**: created, perhaps submitted, and then its result. -/
theorem History.course {l : Launch} {w : Worker} {events : List TaskEvent}
    (h : History l w events) : Serves l w ∧ Course l w events := by
  induction h with
  | start => exact start_course l
  | react _ signal ih => exact (react_turn _ signal).course ih.1 ih.2

/-- While an attempt is under way nothing was submitted. -/
theorem History.calling {l : Launch} {w : Worker} {events : List TaskEvent} (h : History l w events)
    {failures : Nat} (calling : w.phase = .calling failures) : .submitted l.job.id ∉ events := by
  cases h.course.2 with
  | attempts _ _ reported => simp [reported]
  | polls _ _ polls => simp [calling, Phase.polls] at polls
  | ended _ r done => simp [calling] at done

end Worker

end Workflow
