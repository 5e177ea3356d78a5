import Workflow.Proofs.Worker.Polling
import Workflow.Proofs.Worker.Termination

/-!
# Workflow.Proofs.Worker.Counters — how far the counters of a worker go

A worker counts the attempts that have failed, the polls that have failed, and the polls; it asks
its budgets about the first two.  `Worker.counts?` says which counter a signal increments, and
`Counts` follows them through everything that may happen to a worker.  A budget stops its counter at
one more than the retries that it allows, and no budget bounds the polls
(`Launch.counters_exact`).  So a counter of 32 bits does not hold what a worker may count
(`Launch.counters_exceed`).
-/

namespace Workflow

namespace Worker

/-- What a worker counts. -/
inductive Counter where
  | failedAttempts
  | failedPolls
  | polls
deriving DecidableEq

/-- The attempt has failed. -/
def fails : Except TaskError TaskResult → Bool
  | .ok answer => answer.isError
  | .error _ => true

/-- The counter that a signal increments, with its new value. -/
def counts? (w : Worker) (signal : Signal) : Option (Counter × Nat) :=
  match w.phase, signal with
  | .calling failures, .answered outcome =>
    if fails outcome then some (.failedAttempts, failures + 1)
    else if (w.pollPolicy.any fun p => p.validate.isOk) then some (.polls, 1)
    else none
  | .polling _ failures _, .polled outcome =>
    if w.pollPolicy.isSome && outcome.meaning.isFailed then some (.failedPolls, failures + 1)
    else none
  | .resting _ _ polls, .elapsed => some (.polls, polls + 1)
  | _, _ => none

/-- The counters once one of them, if any, has its new value. -/
def Counter.tally (count : Counter → Nat) : Option (Counter × Nat) → Counter → Nat
  | some (c, v), c' => if c' = c then v else count c'
  | none, c' => count c'

/-- A worker of a launch, with the values of its counters: everything that may happen to it. -/
inductive Counts (l : Launch) : Worker → (Counter → Nat) → Prop
  | start : Counts l (start l).1 fun _ => 0
  | react {w : Worker} {count : Counter → Nat} (h : Counts l w count) (signal : Signal) :
    Counts l (w.react signal).1 (Counter.tally count (w.counts? signal))

end Worker

namespace Launch

/-- The worker of the launch, in a phase. -/
def worker (l : Launch) (phase : Worker.Phase) : Worker :=
  ⟨l.job.id, l.job.policy, l.kind.pollPolicy, phase⟩

/-- The job is polled, once an attempt has succeeded. -/
structure Polls (l : Launch) (p : PollPolicy) : Prop where
  attempts : l.job.policy.validate = .ok ()
  polled : l.kind.pollPolicy = some p
  known : p.validate = .ok ()

/-- A counter of a worker of the launch may come to have the value. -/
def Reaches (l : Launch) (c : Worker.Counter) (v : Nat) : Prop :=
  ∃ w count, Worker.Counts l w count ∧ count c = v

/-- What the budgets make of a counter: it stops at one more than the retries, and the polls go
on. -/
def Allows (l : Launch) (v : Nat) : Worker.Counter → Prop
  | .failedAttempts => l.job.policy.validate = .ok () ∧ v ≤ l.job.policy.maxRetry.toNat + 1
  | .failedPolls => ∃ p, l.Polls p ∧ v ≤ p.maxRetry.toNat + 1
  | .polls => ∃ p, l.Polls p

/-- 32 bits hold every value that the counter may come to have. -/
def Fits (l : Launch) (c : Worker.Counter) : Prop := ∀ v, l.Reaches c v → v < UInt32.size

end Launch

/-! ### One signal -/

namespace Worker

/-- What a signal does to a worker and its counters: a budget is asked about the failures that were
counted, and a poll has the number that was. -/
inductive Tallies (w : Worker) : Worker → Option (Counter × Nat) → Prop
  /-- It is nothing that the worker waits for. -/
  | idle : Tallies w w none
  | ends (r : TaskResult) : Tallies w { w with phase := .done r } none
  | attemptFailed {failures : Nat} (calling : w.phase = .calling failures) (error : String)
    (cause : Option String) :
    Tallies w (w.attemptFailed (failures + 1) error cause).1 (some (.failedAttempts, failures + 1))
  | calls {failures : Nat} {delay : Span} (waiting : w.phase = .backingOff failures delay) :
    Tallies w { w with phase := .calling failures } none
  | begins {failures : Nat} (calling : w.phase = .calling failures) {p : PollPolicy}
    (polled : w.pollPolicy = some p) (known : p.validate = .ok ()) (last : TaskResult) :
    Tallies w { w with phase := .polling last 0 1 } (some (.polls, 1))
  | pollFailed {last : TaskResult} {failures polls : Nat}
    (polling : w.phase = .polling last failures polls) {p : PollPolicy}
    (polled : w.pollPolicy = some p) (error : String) :
    Tallies w (w.pollFailed p last (failures + 1) polls error).1
      (some (.failedPolls, failures + 1))
  | rests {last : TaskResult} {failures polls : Nat}
    (polling : w.phase = .polling last failures polls) (answer : TaskResult) :
    Tallies w { w with phase := .resting answer failures polls } none
  | asks {last : TaskResult} {failures polls : Nat}
    (waiting : w.phase = .resting last failures polls) :
    Tallies w { w with phase := .polling last failures (polls + 1) } (some (.polls, polls + 1))

section Tallies

variable {w : Worker}

theorem answered_tallies {failures : Nat} (calling : w.phase = .calling failures)
    (outcome : Except TaskError TaskResult) :
    Tallies w (w.react (.answered outcome)).1 (w.counts? (.answered outcome)) := by
  simp only [counts?, calling]
  cases outcome with
  | error e => simpa [react, calling, fails] using .attemptFailed calling e.message none
  | ok answer =>
    rw [react_answered calling]
    by_cases error : answer.isError
    · simpa [error, fails] using .attemptFailed calling answer.errorText answer.cause
    · simp only [error, fails, accepted]
      cases polled : w.pollPolicy with
      | none => exact .ends _
      | some p =>
        cases known : p.validate with
        | ok _ => simpa [known, Except.isOk, Except.toBool] using .begins calling polled known _
        | error e => simpa [known, Except.isOk, Except.toBool] using .ends _

theorem polled_tallies {last : TaskResult} {failures polls : Nat}
    (polling : w.phase = .polling last failures polls) (outcome : PollOutcome) :
    Tallies w (w.react (.polled outcome)).1 (w.counts? (.polled outcome)) := by
  simp only [counts?, polling]
  cases polled : w.pollPolicy with
  | none => simpa [react, polling, polled] using .idle
  | some p =>
    rw [react_polling polled polling, polled_eq]
    cases outcome.meaning with
    | failed error => exact .pollFailed polling polled error
    | inProgress answer => exact .rests polling answer
    | complete r => exact .ends _

/-- Every reaction of a worker is of this kind. -/
theorem react_tallies (w : Worker) (signal : Signal) :
    Tallies w (w.react signal).1 (w.counts? signal) := by
  cases signal with
  | answered outcome =>
    cases phase : w.phase with
    | calling failures => exact answered_tallies phase outcome
    | _ => simpa [react, counts?, phase] using .idle
  | elapsed =>
    cases phase : w.phase with
    | backingOff failures delay => simpa [react, counts?, phase, goto] using .calls phase
    | resting last failures polls => simpa [react, counts?, phase, goto] using .asks phase
    | _ => simpa [react, counts?, phase] using .idle
  | polled outcome =>
    cases phase : w.phase with
    | polling last failures polls => exact polled_tallies phase outcome
    | _ => simpa [react, counts?, phase] using .idle
  | monitorBroke detail =>
    cases phase : w.phase with
    | polling last failures polls => simpa [react, counts?, phase, finish] using .ends _
    | _ => simpa [react, counts?, phase] using .idle
  | expired =>
    -- the deadline ends a worker in whatever phase it is, and counts nothing
    have none : w.counts? .expired = none := by cases phase : w.phase <;> simp [counts?, phase]
    rw [none]
    cases phase : w.phase with
    | done r => simpa [react, phase] using .idle
    | _ =>
      by_cases timeout : w.policy.hasTimeout
      · simpa [react, phase, timeout, finish] using .ends _
      · simpa [react, phase, timeout] using .idle

end Tallies

/-! ### Everything that may happen -/

/-- What the counters of a worker are in a phase. -/
def Phase.Shows (l : Launch) (count : Counter → Nat) : Phase → Prop
  | calling failures | backingOff failures _ =>
    l.job.policy.validate = .ok () ∧ failures ≤ l.job.policy.maxRetry.toNat ∧
      count .failedAttempts = failures ∧ count .failedPolls = 0 ∧ count .polls = 0
  | polling _ failures polls | resting _ failures polls =>
    ∃ p, l.Polls p ∧ failures ≤ p.maxRetry.toNat ∧
      count .failedPolls = failures ∧ count .polls = polls
  | done _ => True

/-- A worker that counts within its budgets. -/
structure Keeps (l : Launch) (w : Worker) (count : Counter → Nat) : Prop where
  policy : w.policy = l.job.policy
  kind : w.pollPolicy = l.kind.pollPolicy
  shows : w.phase.Shows l count
  allowed : ∀ c, count c = 0 ∨ l.Allows (count c) c

/-- A worker whose policy is valid starts with its first attempt. -/
theorem start_valid {l : Launch} (valid : l.job.policy.validate = .ok ()) :
    (start l).1 = l.worker (.calling 0) := by
  simp only [start, valid]
  rfl

section Run

variable {l : Launch} {w : Worker} {count : Counter → Nat}

/-- A worker that goes on in a phase that shows its counters. -/
theorem Keeps.goes (keeps : Keeps l w count) {change : Option (Counter × Nat)} {phase : Phase}
    (shows : phase.Shows l (Counter.tally count change))
    (allowed : ∀ c v, change = some (c, v) → l.Allows v c) :
    Keeps l { w with phase := phase } (Counter.tally count change) := by
  refine ⟨keeps.policy, keeps.kind, shows, fun c => ?_⟩
  cases change with
  | none => exact keeps.allowed c
  | some change =>
    by_cases same : c = change.1
    · subst same
      exact .inr (by simpa [Counter.tally] using allowed _ _ rfl)
    · simpa [Counter.tally, same] using keeps.allowed c

/-- One signal: a counter that is incremented was one less before, and stays within its budget. -/
theorem Tallies.keeps {w' : Worker} {change : Option (Counter × Nat)}
    (tallies : Tallies w w' change) (keeps : Keeps l w count) :
    Keeps l w' (Counter.tally count change) ∧ ∀ c v, change = some (c, v) → v = count c + 1 := by
  have shows := keeps.shows
  cases tallies with
  | idle => exact ⟨keeps, by simp⟩
  | ends r => exact ⟨keeps.goes trivial (by simp), by simp⟩
  | @attemptFailed failures calling error cause =>
    rw [calling] at shows
    obtain ⟨valid, within, attempts, failed, polls⟩ := shows
    have allowed : l.Allows (failures + 1) .failedAttempts := ⟨valid, by omega⟩
    refine ⟨?_, by simp [attempts]⟩
    unfold Worker.attemptFailed
    cases decision : (RetryBudget.forRequest w.policy).decide (failures + 1) error with
    | giveUp reason => exact keeps.goes trivial (by simpa using allowed)
    | retry delay reason =>
      -- only a retry within the budget brings the worker back to an attempt
      have retried : failures + 1 ≤ w.policy.maxRetry.toNat := RetryBudget.le_of_retry decision
      rw [keeps.policy] at retried
      exact keeps.goes ⟨valid, retried, rfl, failed, polls⟩ (by simpa using allowed)
  | calls waiting =>
    rw [waiting] at shows
    exact ⟨keeps.goes shows (by simp), by simp⟩
  | @begins failures calling p polled known last =>
    rw [calling] at shows
    obtain ⟨valid, -, -, failed, polls⟩ := shows
    have polled : l.Polls p := ⟨valid, keeps.kind.symm.trans polled, known⟩
    exact ⟨keeps.goes ⟨p, polled, Nat.zero_le _, failed, rfl⟩ (by simpa using ⟨p, polled⟩),
      by simp [polls]⟩
  | @pollFailed last failures polls polling p polled error =>
    rw [polling] at shows
    obtain ⟨p', polls', within, failed, polls⟩ := shows
    obtain rfl : p' = p := by simpa [← keeps.kind, polled] using polls'.polled.symm
    have allowed : l.Allows (failures + 1) .failedPolls := ⟨p', polls', by omega⟩
    refine ⟨?_, by simp [failed]⟩
    unfold Worker.pollFailed
    cases decision : (RetryBudget.forPoll p').decide (failures + 1) error with
    | giveUp reason => exact keeps.goes trivial (by simpa using allowed)
    | retry delay reason =>
      have retried : failures + 1 ≤ p'.maxRetry.toNat := RetryBudget.le_of_retry decision
      exact keeps.goes ⟨p', polls', retried, rfl, polls⟩ (by simpa using allowed)
  | rests polling answer =>
    rw [polling] at shows
    exact ⟨keeps.goes shows (by simp), by simp⟩
  | asks waiting =>
    rw [waiting] at shows
    obtain ⟨p, polled, within, failed, polls⟩ := shows
    exact ⟨keeps.goes ⟨p, polled, within, failed, rfl⟩ (by simpa using ⟨p, polled⟩),
      by simp [polls]⟩

theorem start_keeps (l : Launch) : Keeps l (start l).1 fun _ => 0 := by
  cases valid : l.job.policy.validate with
  | ok _ =>
    rw [start_valid valid]
    exact ⟨rfl, rfl, ⟨valid, Nat.zero_le _, rfl, rfl, rfl⟩, fun _ => .inl rfl⟩
  | error e =>
    simp only [start, valid, finish]
    exact ⟨rfl, rfl, trivial, fun _ => .inl rfl⟩

/-- **A worker counts within its budgets**, whatever happens to it. -/
theorem Counts.keeps (h : Counts l w count) : Keeps l w count := by
  induction h with
  | start => exact start_keeps l
  | react _ signal ih => exact ((react_tallies _ signal).keeps ih).1

end Run

end Worker

/-! ### What a worker may come to -/

namespace Launch

open Worker

/-- The worker of the launch may come to a phase. -/
def Comes (l : Launch) (phase : Phase) : Prop :=
  ∃ count, Counts l (l.worker phase) count

section Attained

variable {l : Launch} {phase phase' : Phase} {c : Counter} {v : Nat}

theorem Comes.react (h : l.Comes phase) (signal : Signal)
    (reacts : ((l.worker phase).react signal).1 = l.worker phase') : l.Comes phase' := by
  obtain ⟨count, counts⟩ := h
  exact ⟨_, reacts ▸ counts.react signal⟩

/-- The next signal may bring the counter to the value. -/
theorem Comes.reaches (h : l.Comes phase) (signal : Signal)
    (counted : (l.worker phase).counts? signal = some (c, v)) : l.Reaches c v := by
  obtain ⟨count, counts⟩ := h
  exact ⟨_, _, counts.react signal, by simp [counted, Counter.tally]⟩

theorem reaches_zero (l : Launch) (c : Counter) : l.Reaches c 0 := ⟨_, _, .start, rfl⟩

theorem comes_calling (valid : l.job.policy.validate = .ok ()) {n : Nat}
    (within : n ≤ l.job.policy.maxRetry.toNat) : l.Comes (.calling n) := by
  induction n with
  | zero => exact ⟨_, start_valid valid ▸ Counts.start⟩
  | succ n ih =>
    obtain ⟨reason, decision⟩ :=
      RetryBudget.decide_retry (.forRequest l.job.policy) (TaskError.message default) within
    have waits : l.Comes (.backingOff (n + 1) ((RetryBudget.forRequest l.job.policy).nextDelay
        (n + 1))) := by
      refine (ih (by omega)).react (.answered (.error default)) ?_
      simp only [worker, Worker.react, attemptFailed, decision]
      rfl
    exact waits.react .elapsed rfl

/-- So many failed polls within the budget, and then so many more that are in progress. -/
theorem comes_polling {p : PollPolicy} (polls : l.Polls p) {failures : Nat}
    (within : failures ≤ p.maxRetry.toNat) (more : Nat) :
    ∃ last, l.Comes (.polling last failures (failures + more + 1)) := by
  induction more with
  | zero =>
    induction failures with
    | zero =>
      refine ⟨.success l.job.id, (comes_calling polls.attempts (Nat.zero_le _)).react
        (.answered (.ok (.success l.job.id))) ?_⟩
      have fine : (TaskResult.success l.job.id).isError = false := rfl
      simp only [worker, Worker.react, fine, accepted, polls.polled, polls.known]
      rfl
    | succ failures ih =>
      obtain ⟨last, polling⟩ := ih (by omega)
      obtain ⟨reason, decision⟩ :=
        RetryBudget.decide_retry (.forPoll p) (TaskError.message default) within
      have rests : l.Comes (.resting last (failures + 1) (failures + 1)) := by
        refine polling.react (.polled (.failed default)) ?_
        simp only [worker, Worker.react, polls.polled, polled, pollFailed, decision]
        rfl
      exact ⟨last, rests.react .elapsed rfl⟩
  | succ more ih =>
    obtain ⟨last, polling⟩ := ih
    have rests : l.Comes (.resting (.success l.job.id) failures (failures + more + 1)) := by
      refine polling.react (.polled (.answered (.success l.job.id) none)) ?_
      simp only [worker, Worker.react, polls.polled, polled]
      rfl
    exact ⟨_, rests.react .elapsed rfl⟩

theorem reaches_failedAttempts {n : Nat} (allowed : l.Allows n .failedAttempts) :
    l.Reaches .failedAttempts n := by
  obtain ⟨valid, within⟩ := allowed
  cases n with
  | zero => exact reaches_zero l _
  | succ n =>
    have calling : l.Comes (.calling n) := comes_calling valid (by omega)
    exact calling.reaches (.answered (.error default)) rfl

theorem reaches_failedPolls {n : Nat} (allowed : l.Allows n .failedPolls) :
    l.Reaches .failedPolls n := by
  obtain ⟨p, polls, within⟩ := allowed
  cases n with
  | zero => exact reaches_zero l _
  | succ n =>
    have before : n ≤ p.maxRetry.toNat := by omega
    obtain ⟨last, polling⟩ := comes_polling polls before 0
    refine polling.reaches (.polled (.failed default)) ?_
    simp [worker, counts?, polls.polled, PollOutcome.meaning, PollMeaning.isFailed]

theorem reaches_polls {p : PollPolicy} (polls : l.Polls p) (n : Nat) : l.Reaches .polls n := by
  cases n with
  | zero => exact reaches_zero l _
  | succ n =>
    obtain ⟨last, count, counts⟩ := comes_polling polls (Nat.zero_le _) n
    -- a worker that asks for a poll has counted it
    obtain ⟨-, -, -, -, counted⟩ := counts.keeps.shows
    exact ⟨_, count, counts, by omega⟩

/-- A counter reaches what the budgets allow, and nothing else. -/
theorem reaches_iff (l : Launch) (c : Counter) (v : Nat) :
    l.Reaches c v ↔ v = 0 ∨ l.Allows v c := by
  constructor
  · rintro ⟨w, count, counts, rfl⟩
    exact counts.keeps.allowed c
  · rintro (rfl | allowed)
    · exact reaches_zero l c
    · cases c with
      | failedAttempts => exact reaches_failedAttempts allowed
      | failedPolls => exact reaches_failedPolls allowed
      | polls =>
        obtain ⟨p, polls⟩ := allowed
        exact reaches_polls polls v

end Attained

/-! ### What 32 bits hold -/

theorem fits_iff (l : Launch) (c : Counter) :
    l.Fits c ↔ ∀ v, l.Allows v c → v < UInt32.size := by
  constructor
  · exact fun fits v allowed => fits v ((l.reaches_iff c v).2 (.inr allowed))
  · intro allows v reaches
    obtain rfl | allowed := (l.reaches_iff c v).1 reaches
    · decide
    · exact allows v allowed

theorem fits_failedAttempts (l : Launch) : l.Fits .failedAttempts ↔
    (l.job.policy.validate = .ok () → l.job.policy.maxRetry.toNat + 1 < UInt32.size) := by
  rw [fits_iff]
  constructor
  · exact fun fits valid => fits _ ⟨valid, Nat.le_refl _⟩
  · rintro small v ⟨valid, within⟩
    exact Nat.lt_of_le_of_lt within (small valid)

theorem fits_failedPolls (l : Launch) : l.Fits .failedPolls ↔
    ∀ p, l.Polls p → p.maxRetry.toNat + 1 < UInt32.size := by
  rw [fits_iff]
  constructor
  · exact fun fits p polls => fits _ ⟨p, polls, Nat.le_refl _⟩
  · rintro small v ⟨p, polls, within⟩
    exact Nat.lt_of_le_of_lt within (small p polls)

theorem fits_polls (l : Launch) : l.Fits .polls ↔ ∀ p, ¬ l.Polls p := by
  rw [fits_iff]
  constructor
  · exact fun fits p polls => Nat.lt_irrefl _ (fits UInt32.size ⟨p, polls⟩)
  · rintro never v ⟨p, polls⟩
    exact absurd polls (never p)

end Launch

/-- The comparison is strict: a budget that allows as many retries as 32 bits can say gives up after
no number of failures that they hold. -/
theorem RetryBudget.givesUp_iff (b : RetryBudget) (error : String) :
    (∃ (failures : UInt32) (reason : String), b.decide failures.toNat error = .giveUp reason) ↔
      b.maxRetry.toNat + 1 < UInt32.size := by
  constructor
  · rintro ⟨failures, reason, decision⟩
    have more : b.maxRetry.toNat < failures.toNat := by
      by_cases within : failures.toNat ≤ b.maxRetry.toNat
      · obtain ⟨_, retried⟩ := b.decide_retry error within
        rw [retried] at decision
        cases decision
      · omega
    exact Nat.lt_of_le_of_lt more failures.toNat_lt_size
  · intro small
    refine ⟨.ofNat (b.maxRetry.toNat + 1), _, b.decide_giveUp error ?_⟩
    rw [UInt32.toNat_ofNat_of_lt' small]
    exact Nat.lt_succ_self _

namespace Launch

open Worker

/-- **How far the counters of a worker go**, whatever its attempts and polls are answered.  Every
counter goes up by one at a time.  A failed attempt, or poll, is decided on by its number, and so no
attempt is made with more failures than retries behind it.  A counter of failures reaches one more
than the retries, and not more; that of the polls reaches every number.  So 32 bits hold the
failures unless the retries allowed are as many as 32 bits can say, in which case the budget gives
up on no number that they hold; and they do not hold the polls of any job that is polled. -/
theorem counters_exact (l : Launch) :
    (∀ w count, Counts l w count → ∀ signal,
      Tallies w (w.react signal).1 (w.counts? signal) ∧
        ∀ c v, w.counts? signal = some (c, v) → v = count c + 1) ∧
    (∀ w count, Counts l w count → ∀ failures, w.phase = .calling failures →
      count .failedAttempts = failures ∧ failures ≤ l.job.policy.maxRetry.toNat) ∧
    (∀ c v, l.Reaches c v ↔ v = 0 ∨ l.Allows v c) ∧
    (l.Fits .failedAttempts ↔
      (l.job.policy.validate = .ok () → l.job.policy.maxRetry.toNat + 1 < UInt32.size)) ∧
    (l.Fits .failedPolls ↔ ∀ p, l.Polls p → p.maxRetry.toNat + 1 < UInt32.size) ∧
    (l.Fits .polls ↔ ∀ p, ¬ l.Polls p) ∧
    ∀ (b : RetryBudget) (error : String),
      (∃ (failures : UInt32) (reason : String), b.decide failures.toNat error = .giveUp reason) ↔
        b.maxRetry.toNat + 1 < UInt32.size := by
  refine ⟨fun w count counts signal => ?_, fun w count counts failures calling => ?_,
    l.reaches_iff, l.fits_failedAttempts, l.fits_failedPolls, l.fits_polls,
    RetryBudget.givesUp_iff⟩
  · have tallies := react_tallies w signal
    exact ⟨tallies, (tallies.keeps counts.keeps).2⟩
  · have shows := counts.keeps.shows
    rw [calling] at shows
    exact ⟨shows.2.2.1, shows.2.1⟩

/-- A job that always fails, and may be tried again as often as its policy can say. -/
def hopeless : Launch where
  job := ⟨.ofNat 1, ⟨0xFFFFFFFF, 0, 0, Double.one⟩, fun _ => ⟨some 0, .answer (.error default)⟩⟩
  kind := .submit

/-- A job that succeeds at once and then stays in progress. -/
def unending : Launch where
  job := ⟨.ofNat 1, ⟨0, 0, 0, Double.one⟩, fun _ => ⟨some 0, .answer (.ok (.success (.ofNat 1)))⟩⟩
  kind := .poll {
    key := []
    policy := ⟨1, 0⟩
    poll := fun _ task _ => .started ⟨some 0, .answer (.ok (.success task))⟩
    interpret := fun _ _ => .ok none }

/-- **Counters of 32 bits overflow.**  Neither job has a deadline.  The first may fail one time more
than 32 bits hold, and its budget gives up on no number of failures that they hold; the second may
be polled one time more than they hold. -/
theorem counters_exceed :
    hopeless.job.policy.hasTimeout = false ∧ hopeless.job.policy.maxRetry.toNat < UInt32.size ∧
    hopeless.Reaches .failedAttempts UInt32.size ∧
    (∀ (failures : UInt32) (error reason : String),
      (RetryBudget.forRequest hopeless.job.policy).decide failures.toNat error ≠
        .giveUp reason) ∧
    unending.job.policy.hasTimeout = false ∧ unending.Polls ⟨1, 0⟩ ∧
    unending.Reaches .polls UInt32.size := by
  have valid : hopeless.job.policy.validate = .ok () := by decide
  have polls : unending.Polls ⟨1, 0⟩ := ⟨by decide, rfl, rfl⟩
  refine ⟨rfl, by decide, reaches_failedAttempts ⟨valid, by decide⟩,
    fun failures error reason h => ?_, rfl, polls, reaches_polls polls _⟩
  have small := (RetryBudget.givesUp_iff _ error).1 ⟨failures, reason, h⟩
  exact absurd small (by decide)

end Launch

end Workflow
