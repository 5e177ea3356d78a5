import Mathlib.Tactic.Choose
import Workflow.Proofs.Worker.PollNumbers

/-!
# Workflow.Proofs.Worker.Polling — how often a job is polled, and what comes of it

A polled job whose submission has succeeded is polled until the monitor has a complete result or has
failed once more than it is forgiven.  What a poll means is `Worker.PollOutcome.meaning`; over a
sequence of polls `Worker.latest` is the answer that the next poll is asked for with,
`Worker.failedPolls` counts the failed ones, and `Worker.Stops` says at which poll polling stops.
The main statement is `polling_phase`: this is what the machine makes of any sequence of outcomes,
and what a launch makes of its monitor in time.
-/

namespace Workflow

namespace Worker

/-! ### What polls mean -/

/-- What a poll means for its task. -/
inductive PollMeaning where
  | failed (error : String)
  | inProgress (answer : TaskResult)
  | complete (result : TaskResult)

/-- A poll has failed if it gave no answer, or one that is no success: then the message of the
answer is said of it, or the name of its status where there is none.  A success is complete if the
monitor makes a result of it whose status is known, and in progress if it makes none or one that is
not known. -/
def PollOutcome.meaning : PollOutcome → PollMeaning
  | .failed e => .failed e.message
  | .answered answer verdict =>
    if answer.status ≠ .success then .failed (answer.message.getD answer.status.name)
    else
      match verdict.filter (·.status ≠ .unknown) with
      | some r => .complete r
      | none => .inProgress answer

def PollMeaning.isFailed : PollMeaning → Bool
  | failed _ => true
  | _ => false

def PollMeaning.answer? : PollMeaning → Option TaskResult
  | inProgress answer => some answer
  | _ => none

section Sequence

variable (submitted : TaskResult) (outcome : Nat → PollOutcome)

/-- The latest answer in progress of the first `j` polls; if there is none, that of the
submission. -/
def latest (j : Nat) : TaskResult :=
  ((List.range j).filterMap fun i => (outcome i).meaning.answer?).getLast?.getD submitted

/-- How many of the first `j` polls have failed. -/
def failedPolls (j : Nat) : Nat := (List.range j).countP fun i => (outcome i).meaning.isFailed

/-- Polling stops at poll number `j + 1`, with a result. -/
inductive Stops (task : TaskId) (maxRetry j : Nat) : TaskResult → Prop
  /-- The poll is complete. -/
  | complete {r : TaskResult} (h : (outcome j).meaning = .complete r) :
    Stops task maxRetry j { r with task := task }
  /-- The poll has failed, and so have as many before it as are forgiven. -/
  | exhausted {error : String} (h : (outcome j).meaning = .failed error)
    (spent : failedPolls outcome (j + 1) = maxRetry + 1) :
    Stops task maxRetry j ⟨task, .failed, some ("poll retry limit reached, last error: " ++ error),
      some error, .null⟩

/-- Polling does not stop at any of the first `j` polls. -/
def GoesOn (task : TaskId) (maxRetry j : Nat) : Prop :=
  ∀ i < j, ∀ r, ¬ Stops outcome task maxRetry i r

variable {outcome} {task : TaskId} {maxRetry j : Nat}

theorem latest_succ : latest submitted outcome (j + 1) =
    (outcome j).meaning.answer?.getD (latest submitted outcome j) := by
  cases h : (outcome j).meaning.answer? <;> simp [latest, List.range_succ, h]

theorem failedPolls_succ : failedPolls outcome (j + 1) =
    failedPolls outcome j + if (outcome j).meaning.isFailed then 1 else 0 := by
  simp [failedPolls, List.range_succ, List.countP_append, List.countP_cons]

theorem GoesOn.before (h : GoesOn outcome task maxRetry (j + 1)) : GoesOn outcome task maxRetry j :=
  fun i hi => h i (Nat.lt_succ_of_lt hi)

/-- As long as polling goes on no more polls have failed than are forgiven. -/
theorem GoesOn.failedPolls_le (h : GoesOn outcome task maxRetry j) :
    failedPolls outcome j ≤ maxRetry := by
  induction j with
  | zero => exact Nat.zero_le _
  | succ j ih =>
    have before := ih h.before
    cases meaning : (outcome j).meaning with
    | failed error =>
      have more : failedPolls outcome (j + 1) = failedPolls outcome j + 1 := by
        simp [failedPolls_succ, meaning, PollMeaning.isFailed]
      have forgiven : failedPolls outcome (j + 1) ≠ maxRetry + 1 :=
        fun spent => h j (Nat.lt_succ_self j) _ (.exhausted meaning spent)
      omega
    | inProgress answer => simpa [failedPolls_succ, meaning, PollMeaning.isFailed] using before
    | complete r => simpa [failedPolls_succ, meaning, PollMeaning.isFailed] using before

end Sequence

/-! ### The machine -/

section Machine

variable {w : Worker} {p : PollPolicy} {submitted : TaskResult} {outcome : Nat → PollOutcome}
  {j : Nat}

theorem polled_eq (w : Worker) (p : PollPolicy) (last : TaskResult) (failures polls : Nat)
    (o : PollOutcome) : w.polled p last failures polls o =
      match o.meaning with
      | .failed error => w.pollFailed p last (failures + 1) polls error
      | .inProgress answer => w.goto (.resting answer failures polls)
      | .complete r => w.finish { r with task := w.task } := by
  cases o with
  | failed e => rfl
  | answered answer verdict =>
    by_cases fine : answer.status = .success
    · have noError : answer.isError = false := by simp [TaskResult.isError, Status.isError, fine]
      cases verdict with
      | none => simp [polled, PollOutcome.meaning, fine, noError]
      | some r =>
        have complete : r.isComplete = decide (r.status ≠ .unknown) := rfl
        by_cases known : r.status = .unknown <;>
          simp [polled, PollOutcome.meaning, fine, noError, complete, known, Option.filter]
    · have error : answer.isError = true := answer.isError_iff.2 fine
      simp only [polled, error, if_true, PollOutcome.meaning, ne_eq, fine, not_false_iff]
      rfl

theorem react_polling (known : w.pollPolicy = some p) {last : TaskResult} {failures polls : Nat}
    (polling : w.phase = .polling last failures polls) (o : PollOutcome) :
    w.react (.polled o) = w.polled p last failures polls o := by
  simp [react, polling, known]

/-- A poll at which polling does not stop: the worker rests. -/
theorem react_goes (known : w.pollPolicy = some p)
    (polling : w.phase = .polling (latest submitted outcome j) (failedPolls outcome j) (j + 1))
    (goes : GoesOn outcome w.task p.maxRetry.toNat (j + 1)) :
    w.react (.polled (outcome j)) =
      w.goto (.resting (latest submitted outcome (j + 1)) (failedPolls outcome (j + 1))
        (j + 1)) := by
  have forgiven := goes.failedPolls_le
  rw [react_polling known polling, polled_eq, latest_succ]
  rw [failedPolls_succ] at forgiven ⊢
  cases meaning : (outcome j).meaning with
  | failed error =>
    simp only [meaning, PollMeaning.isFailed, PollMeaning.answer?, if_true, Option.getD_none]
      at forgiven ⊢
    obtain ⟨reason, decision⟩ := RetryBudget.decide_retry (.forPoll p) error forgiven
    rw [pollFailed, decision]
  | inProgress answer => rfl
  | complete r => exact absurd (.complete meaning) (goes j (Nat.lt_succ_self j) _)

/-- The poll at which polling stops: the worker is done. -/
theorem react_stops (known : w.pollPolicy = some p)
    (polling : w.phase = .polling (latest submitted outcome j) (failedPolls outcome j) (j + 1))
    {r : TaskResult} (stops : Stops outcome w.task p.maxRetry.toNat j r) :
    w.react (.polled (outcome j)) = w.finish r := by
  rw [react_polling known polling, polled_eq]
  cases stops with
  | complete meaning => simp only [meaning]
  | @exhausted error meaning spent =>
    have more : failedPolls outcome j + 1 = p.maxRetry.toNat + 1 := by
      rw [← spent, failedPolls_succ, meaning]
      rfl
    have beyond : (RetryBudget.forPoll p).maxRetry.toNat < failedPolls outcome j + 1 := by
      show p.maxRetry.toNat < _
      omega
    simp only [meaning, pollFailed, RetryBudget.decide_giveUp _ error beyond]
    rfl

/-- The worker after so many polls and the intervals behind them. -/
def afterPolls (w : Worker) (outcome : Nat → PollOutcome) : Nat → Worker
  | 0 => w
  | j + 1 => (((w.afterPolls outcome j).react (.polled (outcome j))).1.react .elapsed).1

/-- As long as polling goes on the worker waits for its next poll. -/
theorem afterPolls_eq (known : w.pollPolicy = some p) (polling : w.phase = .polling submitted 0 1)
    (goes : GoesOn outcome w.task p.maxRetry.toNat j) :
    w.afterPolls outcome j =
      { w with
        phase := .polling (latest submitted outcome j) (failedPolls outcome j) (j + 1) } := by
  induction j with
  | zero =>
    obtain ⟨task, policy, pollPolicy, phase⟩ := w
    cases polling
    rfl
  | succ j ih =>
    -- the worker that waits for poll number `j + 1`
    let waiting : Worker :=
      { w with phase := .polling (latest submitted outcome j) (failedPolls outcome j) (j + 1) }
    have rests := react_goes (w := waiting) known rfl goes
    rw [afterPolls, ih goes.before, rests]
    rfl

end Machine

end Worker

/-! ### Polls in time -/

/-- Poll number `n` of a task, asked for after an answer, takes some time and has an outcome; the
monitor does not break off. -/
inductive Monitor.Polls (m : Monitor) (task : TaskId) (n : Nat) (last : TaskResult) :
    Nat → Worker.PollOutcome → Prop
  /-- The monitor makes no poll. -/
  | refused {e : TaskError} (h : m.poll n task last = .refused e) :
    Polls m task n last 0 (.failed e)
  /-- The poll ends in an error or breaks off. -/
  | failed {call : Call} {time : Nat} {e : TaskError} (h : m.poll n task last = .started call)
    (ends : call.time = some time) (outcome : call.reply.outcome = .error e) :
    Polls m task n last time (.failed e)
  /-- The answer is no success: the monitor is not asked what it means. -/
  | error {call : Call} {time : Nat} {answer : TaskResult} (h : m.poll n task last = .started call)
    (ends : call.time = some time) (outcome : call.reply.outcome = .ok answer)
    (error : answer.status ≠ .success) : Polls m task n last time (.answered answer none)
  | answered {call : Call} {time : Nat} {answer : TaskResult} {verdict : Option TaskResult}
    (h : m.poll n task last = .started call) (ends : call.time = some time)
    (outcome : call.reply.outcome = .ok answer) (fine : answer.status = .success)
    (interpreted : m.interpret task answer = .ok verdict) :
    Polls m task n last time (.answered answer verdict)

/-- What a poll leaves in the trace: its start and its end, if it was made and did not break off. -/
def PollAttempt.trace (task : TaskId) (n start finish : Nat) : PollAttempt → List TraceEntry
  | .started call =>
    ⟨start, task, .poll n⟩ ::
      match call.reply with
      | .answer _ => [⟨finish, task, .pollEnd n⟩]
      | .broke _ => []
  | _ => []

/-- The polls of a task: which monitor makes them, when the first one is asked for, its number and
the answer it is asked for with, how long each takes and how it ends. -/
structure PollCourse (task : TaskId) where
  monitor : Monitor
  start : Nat
  first : Nat
  submitted : TaskResult
  time : Nat → Nat
  outcome : Nat → Worker.PollOutcome

namespace PollCourse

variable {task : TaskId} (c : PollCourse task)

/-- When poll number `j + 1` of the course is asked for. -/
def pollStart : Nat → Nat
  | 0 => c.start
  | j + 1 => pollStart j + c.time j + c.monitor.policy.interval.timerMs

def pollEnd (j : Nat) : Nat := c.pollStart j + c.time j

theorem start_le_pollStart (j : Nat) : c.start ≤ c.pollStart j := by
  induction j with
  | zero => exact Nat.le_refl _
  | succ j ih => exact Nat.le_trans ih (Nat.le_trans (Nat.le_add_right ..) (Nat.le_add_right ..))

/-- The answer with which poll number `j + 1` is asked for. -/
def last (j : Nat) : TaskResult := Worker.latest c.submitted c.outcome j

/-- Poll number `j + 1` of the course as the monitor makes it. -/
def attempt (j : Nat) : PollAttempt := c.monitor.poll (c.first + j) task (c.last j)

def askTrace (j : Nat) : List TraceEntry :=
  [⟨c.pollStart j, task, .createPoll (c.first + j) (c.last j)⟩]

def callTrace (j : Nat) : List TraceEntry :=
  (c.attempt j).trace task (c.first + j) (c.pollStart j) (c.pollEnd j)

/-- What the first `j` polls leave in the trace. -/
def pollsTrace (j : Nat) : List TraceEntry :=
  (List.range j).flatMap fun i => c.askTrace i ++ c.callTrace i

theorem pollsTrace_succ (j : Nat) :
    c.pollsTrace (j + 1) = c.pollsTrace j ++ (c.askTrace j ++ c.callTrace j) := by
  simp [pollsTrace, List.range_succ]

/-- The first `j` polls end as the course says. -/
def Follows (j : Nat) : Prop :=
  ∀ i < j, c.monitor.Polls task (c.first + i) (c.last i) (c.time i) (c.outcome i)

/-- Polling does not stop at any of the first `j` polls. -/
def GoesOn (j : Nat) : Prop :=
  Worker.GoesOn c.outcome task c.monitor.policy.maxRetry.toNat j

/-- Polling stops at poll number `j + 1`, with a result. -/
def Stops (j : Nat) (r : TaskResult) : Prop :=
  Worker.Stops c.outcome task c.monitor.policy.maxRetry.toNat j r

end PollCourse

namespace Launch

section Poll

variable {l : Launch} {monitor : Monitor} (polled : l.kind = .poll monitor) {last : TaskResult}
  {failures polls n time now : Nat} {outcome : Worker.PollOutcome} {counts : PollCounts}
  {past : Timeline}

include polled

theorem replySignal_error {reply : Reply} {e : TaskError} (h : reply.outcome = .error e) :
    (l.timed none (.polling last failures polls)).replySignal reply = .polled (.failed e) := by
  simp [TimedWorker.replySignal, timed, polled, h]

theorem replySignal_refused {reply : Reply} {answer : TaskResult} (h : reply.outcome = .ok answer)
    (error : answer.status ≠ .success) :
    (l.timed none (.polling last failures polls)).replySignal reply =
      .polled (.answered answer none) := by
  simp [TimedWorker.replySignal, timed, polled, h, answer.isError_iff.2 error]

theorem replySignal_answered {reply : Reply} {answer : TaskResult} {verdict : Option TaskResult}
    (h : reply.outcome = .ok answer) (fine : answer.status = .success)
    (interpreted : monitor.interpret l.job.id answer = .ok verdict) :
    (l.timed none (.polling last failures polls)).replySignal reply =
      .polled (.answered answer verdict) := by
  simp [TimedWorker.replySignal, timed, polled, h, TaskResult.isError, Status.isError, fine,
    interpreted]

omit polled in
/-- A poll is made. -/
theorem fire_awaiting {call : Call} (started : monitor.poll n l.job.id last = .started call)
    (takes : call.time = some time) (set now : Nat) :
    (l.awaiting monitor last failures polls n set).fire now counts =
      ⟨l.inCall (.polling last failures polls) n call.reply (now + time), counts, [],
        [⟨now, l.job.id, .poll n⟩]⟩ := by
  simp [TimedWorker.fire, awaiting, inCall, timed, TimedWorker.deadlineFirst,
    TimedWorker.isPolling, started, PollAttempt.wake, takes]

omit polled in
/-- A poll ends: the worker gets its signal. -/
theorem fire_polling (reply : Reply) (set now : Nat) :
    (l.inCall (.polling last failures polls) n reply set).fire now counts =
      (l.timed none (.polling last failures polls)).signal now counts
        ((l.timed none (.polling last failures polls)).replySignal reply)
        (match reply with
          | .answer _ => [⟨now, l.job.id, .pollEnd n⟩]
          | .broke _ => []) := rfl

/-- The worker rests until its interval is over. -/
theorem arrange_resting (now : Nat) (trace : List TraceEntry) :
    (l.timed none (.resting last failures polls)).arrange now counts [] trace =
      ⟨l.waiting (.resting last failures polls) (now + monitor.policy.interval.timerMs), counts, [],
        trace⟩ := by
  simp [TimedWorker.arrange, timed, waiting, polled, WorkerKind.pollPolicy]

omit polled in
/-- An interval is over: the next poll is asked for. -/
theorem fire_resting (set now : Nat) :
    (l.waiting (.resting last failures polls) set).fire now counts =
      (l.timed none (.polling last failures (polls + 1))).arrange now counts [] [] := rfl

omit polled in
/-- A poll that was made and ends: the worker gets its signal. -/
theorem reaches_pollEnd {call : Call} (started : monitor.poll n l.job.id last = .started call)
    (ends : call.time = some time) :
    Alone.Reaches (now + time) ⟨l.awaiting monitor last failures polls n now, counts, past⟩
      (.ofFired (now + time) past
        ((l.timed none (.polling last failures polls)).signal (now + time) counts
          ((l.timed none (.polling last failures polls)).replySignal call.reply)
          ((monitor.poll n l.job.id last).trace l.job.id n now (now + time)))) := by
  -- the worker while the poll is under way
  let waiting : TimedWorker := l.inCall (.polling last failures polls) n call.reply (now + time)
  have begins : Alone.Reaches now ⟨l.awaiting monitor last failures polls n now, counts, past⟩
      ⟨waiting, counts, past.extend now [] [⟨now, l.job.id, .poll n⟩]⟩ := by
    have fires : Alone.Reaches now
        ⟨l.awaiting monitor last failures polls n now, counts, past⟩ _ := Alone.reaches_fire rfl
    rw [fire_awaiting started ends] at fires
    exact fires
  refine begins.trans (Nat.le_add_right ..) ?_
  have fires : Alone.Reaches (now + time)
      ⟨waiting, counts, past.extend now [] [⟨now, l.job.id, .poll n⟩]⟩ _ := Alone.reaches_fire rfl
  have ended : Alone.ofFired (now + time) (past.extend now [] [⟨now, l.job.id, .poll n⟩])
      (waiting.fire (now + time) counts) =
      .ofFired (now + time) past
        ((l.timed none (.polling last failures polls)).signal (now + time) counts
          ((l.timed none (.polling last failures polls)).replySignal call.reply)
          ((monitor.poll n l.job.id last).trace l.job.id n now (now + time))) := by
    rw [started]
    exact ofFired_arrange ..
  rwa [ended] at fires

/-- A poll ends: the worker gets its outcome. -/
theorem reaches_outcome (ends : monitor.Polls l.job.id n last time outcome) :
    Alone.Reaches (now + time) ⟨l.awaiting monitor last failures polls n now, counts, past⟩
      (.ofFired (now + time) past
        ((l.timed none (.polling last failures polls)).signal (now + time) counts
          (.polled outcome)
          ((monitor.poll n l.job.id last).trace l.job.id n now (now + time)))) := by
  cases ends with
  | @refused e refused =>
    have fires : Alone.Reaches now
        ⟨l.awaiting monitor last failures polls n now, counts, past⟩ _ := Alone.reaches_fire rfl
    have told : (l.awaiting monitor last failures polls n now).fire now counts =
        (l.timed none (.polling last failures polls)).signal now counts (.polled (.failed e))
          [] := by
      rw [awaiting, refused]
      rfl
    rw [refused]
    rwa [told] at fires
  | failed started ends outcome =>
    rw [← replySignal_error polled outcome]
    exact reaches_pollEnd started ends
  | error started ends outcome error =>
    rw [← replySignal_refused polled outcome error]
    exact reaches_pollEnd started ends
  | answered started ends outcome fine interpreted =>
    rw [← replySignal_answered polled outcome fine interpreted]
    exact reaches_pollEnd started ends

/-- The interval behind a poll is over: the next one is asked for. -/
theorem reaches_ask {later asked : Nat} (hn : counts.asked (monitor.key, l.job.id) + 1 = asked)
    (hlater : now + monitor.policy.interval.timerMs = later) (trace : List TraceEntry) :
    Alone.Reaches later
      (.ofFired now past
        ((l.timed none (.resting last failures polls)).arrange now counts [] trace))
      ⟨l.awaiting monitor last failures (polls + 1) asked later,
        counts.put (monitor.key, l.job.id) asked,
        ⟨past.events, past.trace ++ trace ++ [⟨later, l.job.id, .createPoll asked last⟩]⟩⟩ := by
  subst hlater
  have fires : Alone.Reaches (now + monitor.policy.interval.timerMs)
      (.ofFired now past ⟨l.waiting (.resting last failures polls)
        (now + monitor.policy.interval.timerMs), counts, [], trace⟩) _ := Alone.reaches_fire rfl
  rw [arrange_resting polled]
  simpa [Alone.ofFired, fire_resting, arrange_awaiting polled last failures (polls + 1) _ hn,
    Timeline.extend] using fires

end Poll

/-! ### The polls of a launch -/

section Course

variable {l : Launch} {c : PollCourse l.job.id}

/-- The worker that has asked for poll number `j + 1` of a course. -/
def atPoll (l : Launch) (c : PollCourse l.job.id) (counts : PollCounts) (past : Timeline)
    (j : Nat) : Alone :=
  ⟨l.awaiting c.monitor (c.last j) (Worker.failedPolls c.outcome j) (j + 1) (c.first + j)
      (c.pollStart j), counts.put (c.monitor.key, l.job.id) (c.first + j),
    ⟨past.events, past.trace ++ c.pollsTrace j ++ c.askTrace j⟩⟩

variable (polled : l.kind = .poll c.monitor) (counts : PollCounts)
  (past : Timeline) {j : Nat}

include polled

/-- The worker has the outcome of a poll at which polling does not stop. -/
theorem signal_goes (goes : c.GoesOn (j + 1)) (now : Nat) (trace : List TraceEntry) :
    (l.timed none (.polling (c.last j) (Worker.failedPolls c.outcome j) (j + 1))).signal now counts
        (.polled (c.outcome j)) trace =
      (l.timed none (.resting (c.last (j + 1)) (Worker.failedPolls c.outcome (j + 1))
        (j + 1))).arrange now counts [] trace := by
  have known : l.kind.pollPolicy = some c.monitor.policy := by rw [polled]; rfl
  have rests : (l.timed none (.polling (c.last j) (Worker.failedPolls c.outcome j)
      (j + 1))).worker.react (.polled (c.outcome j)) = _ := Worker.react_goes known rfl goes
  rw [TimedWorker.signal, rests]
  rfl

/-- The worker has the outcome of the poll at which polling stops. -/
theorem signal_stops {r : TaskResult} (stops : c.Stops j r) (now : Nat) (trace : List TraceEntry) :
    (l.timed none (.polling (c.last j) (Worker.failedPolls c.outcome j) (j + 1))).signal now counts
        (.polled (c.outcome j)) trace =
      ⟨l.timed none (.done r), counts, [.result l.job.id r], trace⟩ := by
  have known : l.kind.pollPolicy = some c.monitor.policy := by rw [polled]; rfl
  have ends : (l.timed none (.polling (c.last j) (Worker.failedPolls c.outcome j)
      (j + 1))).worker.react (.polled (c.outcome j)) = _ := Worker.react_stops known rfl stops
  rw [TimedWorker.signal, ends]
  rfl

/-- A poll of the course ends: the worker gets its outcome. -/
theorem reaches_polled (ends : c.Follows (j + 1)) :
    Alone.Reaches (c.pollEnd j) (l.atPoll c counts past j)
      (.ofFired (c.pollEnd j) ⟨past.events, past.trace ++ c.pollsTrace j ++ c.askTrace j⟩
        ((l.timed none (.polling (c.last j) (Worker.failedPolls c.outcome j) (j + 1))).signal
          (c.pollEnd j) (counts.put (c.monitor.key, l.job.id) (c.first + j))
          (.polled (c.outcome j)) (c.callTrace j))) := by
  exact reaches_outcome polled (ends j (Nat.lt_succ_self j))

/-- A poll at which polling does not stop: the next one is asked for an interval after its end. -/
theorem reaches_next (ends : c.Follows (j + 1)) (goes : c.GoesOn (j + 1)) :
    Alone.Reaches (c.pollStart (j + 1)) (l.atPoll c counts past j)
      (l.atPoll c counts past (j + 1)) := by
  have answered := reaches_polled polled counts past ends
  rw [signal_goes polled _ goes] at answered
  refine answered.trans (Nat.le_add_right ..) ?_
  obtain ⟨put, hput⟩ : ∃ put : PollCounts,
    counts.put (c.monitor.key, l.job.id) (c.first + j) = put := ⟨_, rfl⟩
  have number : put.asked (c.monitor.key, l.job.id) + 1 = c.first + (j + 1) := by
    rw [← hput, PollCounts.asked_put_self]
    exact Nat.add_assoc ..
  have there : l.atPoll c counts past (j + 1) =
      ⟨l.awaiting c.monitor (c.last (j + 1)) (Worker.failedPolls c.outcome (j + 1)) (j + 2)
          (c.first + (j + 1)) (c.pollStart (j + 1)),
        put.put (c.monitor.key, l.job.id) (c.first + (j + 1)),
        ⟨past.events, past.trace ++ c.pollsTrace j ++ c.askTrace j ++ c.callTrace j ++
          c.askTrace (j + 1)⟩⟩ := by
    simp [atPoll, c.pollsTrace_succ, ← hput, Table.put_put]
  rw [hput, there]
  exact reaches_ask polled number rfl (c.callTrace j)

/-- As long as polling goes on the polls are made one after the other. -/
theorem reaches_atPoll (ends : c.Follows j) (goes : c.GoesOn j) :
    Alone.Reaches (c.pollStart j) (l.atPoll c counts past 0) (l.atPoll c counts past j) := by
  induction j with
  | zero => exact .refl _ _
  | succ j ih =>
    have before := ih (fun i hi => ends i (Nat.lt_succ_of_lt hi)) goes.before
    refine before.trans ?_ (reaches_next polled counts past ends goes)
    exact Nat.le_trans (Nat.le_add_right ..) (Nat.le_add_right ..)

/-- The poll at which polling stops: the worker is done. -/
theorem reaches_stop (ends : c.Follows (j + 1)) {r : TaskResult} (stops : c.Stops j r) :
    Alone.Reaches (c.pollEnd j) (l.atPoll c counts past j)
      ⟨l.timed none (.done r), counts.put (c.monitor.key, l.job.id) (c.first + j),
        ⟨past.events ++ [(c.pollEnd j, .result l.job.id r)],
          past.trace ++ c.pollsTrace (j + 1)⟩⟩ := by
  have answered := reaches_polled polled counts past ends
  rw [signal_stops polled _ stops] at answered
  simpa [Alone.ofFired, Timeline.extend, c.pollsTrace_succ] using answered

end Course

end Launch

/-! ### Only successes are interpreted -/

namespace TimedWorker

theorem arrange_launch (w : TimedWorker) (now : Nat) (counts : PollCounts)
    (events : List TaskEvent) (trace : List TraceEntry) :
    (w.arrange now counts events trace).worker.launch = w.launch := by
  have arranges := w.arrange_arranges now counts events trace
  generalize w.arrange now counts events trace = fired at arranges
  cases arranges <;> rfl

theorem fire_launch (w : TimedWorker) (now : Nat) (counts : PollCounts) :
    (w.fire now counts).worker.launch = w.launch := by
  have fires := w.fire_fires now counts
  generalize w.fire now counts = fired at fires
  cases fires with
  | idle => rfl
  | begins => rfl
  | signals => exact arrange_launch ..

/-- The worker with a monitor that makes something else of answers. -/
def reread (w : TimedWorker) (monitor : Monitor)
    (read : TaskId → TaskResult → Except String (Option TaskResult)) : TimedWorker :=
  { w with launch := ⟨w.launch.job, .poll { monitor with interpret := read }⟩ }

section Reading

variable {monitor : Monitor} {read : TaskId → TaskResult → Except String (Option TaskResult)}
  {w : TimedWorker} (polled : w.launch.kind = .poll monitor)

include polled

theorem arrange_reread (now : Nat) (counts : PollCounts) (events : List TaskEvent)
    (trace : List TraceEntry) : (w.reread monitor read).arrange now counts events trace =
      { w.arrange now counts events trace with
        worker := (w.arrange now counts events trace).worker.reread monitor read } := by
  unfold arrange reread
  simp only [polled]
  split <;> rfl

theorem signal_reread (now : Nat) (counts : PollCounts) (s : Worker.Signal)
    (trace : List TraceEntry) : (w.reread monitor read).signal now counts s trace =
      { w.signal now counts s trace with
        worker := (w.signal now counts s trace).worker.reread monitor read } :=
  arrange_reread (w := { w with worker := (w.worker.react s).1 }) polled now counts _ trace

variable (same : ∀ task answer, answer.status = .success →
  read task answer = monitor.interpret task answer)

include same

theorem replySignal_reread (reply : Reply) :
    (w.reread monitor read).replySignal reply = w.replySignal reply := by
  unfold replySignal reread
  simp only [polled]
  cases w.worker.phase with
  | polling last failures polls =>
    cases reply.outcome with
    | error e => rfl
    | ok answer =>
      by_cases fine : answer.status = .success
      · simp [same _ _ fine]
      · simp [answer.isError_iff.2 fine]
  | calling _ | backingOff _ _ | resting _ _ _ | done _ => rfl

theorem fire_reread (now : Nat) (counts : PollCounts) :
    (w.reread monitor read).fire now counts =
      { w.fire now counts with worker := (w.fire now counts).worker.reread monitor read } := by
  have first : (w.reread monitor read).deadlineFirst = w.deadlineFirst := rfl
  have wake : (w.reread monitor read).wake = w.wake := rfl
  unfold fire
  rw [first, wake]
  split
  · exact signal_reread polled ..
  · cases hw : w.wake with
    | none => rfl
    | some timer =>
      obtain ⟨at_, timer⟩ := timer
      cases timer with
      | begin n call => rfl
      | reply n reply =>
        simp only [replySignal_reread polled same]
        exact signal_reread polled ..
      | elapsed => exact signal_reread polled ..
      | refused e => exact signal_reread polled ..
      | broke detail => exact signal_reread polled ..

/-- What a monitor makes of answers that are no success is of no account. -/
theorem run_reread (limit fuel : Nat) (counts : PollCounts) (past : Timeline) :
    (w.reread monitor read).run limit fuel counts past =
      ((w.run limit fuel counts past).1.reread monitor read, (w.run limit fuel counts past).2) := by
  induction fuel generalizing w counts past with
  | zero => rfl
  | succ fuel ih =>
    have due : (w.reread monitor read).due = w.due := rfl
    unfold run
    rw [due]
    cases w.due with
    | none => rfl
    | some now =>
      simp only
      split
      · rfl
      · rw [fire_reread polled same]
        exact ih (by rw [fire_launch]; exact polled) _ _

end Reading

theorem start_launch (l : Launch) (now : Nat) : (start l now).1.launch = l := arrange_launch ..

theorem start_reread {l : Launch} {monitor : Monitor} (polled : l.kind = .poll monitor)
    (read : TaskId → TaskResult → Except String (Option TaskResult)) (now : Nat) :
    start ⟨l.job, .poll { monitor with interpret := read }⟩ now =
      ((start l now).1.reread monitor read, (start l now).2) := by
  obtain ⟨job, kind⟩ := l
  subst polled
  -- the worker before its first timer is set
  let w : TimedWorker := ⟨⟨job, .poll monitor⟩, (Worker.start ⟨job, .poll monitor⟩).1, none,
    (Worker.start ⟨job, .poll monitor⟩).1.policy.timeout?.map (now + ·.timerMs)⟩
  have arranged : (w.reread monitor read).arrange now .empty _ [] = _ :=
    arrange_reread rfl now .empty (Worker.start ⟨job, .poll monitor⟩).2 []
  exact congrArg (fun f : Fired => (f.worker, f.events)) arranged

end TimedWorker

/-! ### Main result -/

theorem Span.timerMs_ofMs (ms : Nat) : (Span.ofMs ms).timerMs = ms := by
  simp only [timerMs, ofMs]
  omega

/-- The polls of a launch whose submission has succeeded after `k` attempts. -/
def Launch.pollCourse (l : Launch) (monitor : Monitor) (now : Nat) (counts : PollCounts) (k : Nat)
    (submitted : TaskResult) (time : Nat → Nat) (outcome : Nat → Worker.PollOutcome) :
    PollCourse l.job.id :=
  ⟨monitor, l.job.attemptEnd now (k - 1), counts.asked (monitor.key, l.job.id) + 1, submitted, time,
    outcome⟩

/-- A launch whose submission has succeeded makes its polls, as long as polling goes on. -/
theorem Launch.reaches_course {l : Launch} (answers : ∀ n, (l.job.attempt n).time ≠ none)
    (untimed : l.job.policy.hasTimeout = false) (valid : l.job.policy.validate = .ok ())
    {monitor : Monitor} (polled : l.kind = .poll monitor)
    (known : monitor.policy.validate = .ok ()) {k : Nat} {submitted : TaskResult}
    (submits : l.job.Submits k submitted) (success : submitted.status = .success) (now : Nat)
    (counts : PollCounts) (past : Timeline) {time : Nat → Nat}
    {outcome : Nat → Worker.PollOutcome} {c : PollCourse l.job.id}
    (hc : l.pollCourse monitor now counts k submitted time outcome = c) {j : Nat}
    (ends : c.Follows j) (goes : c.GoesOn j) :
    (l.alone now counts past).Reaches (c.pollStart j) (l.atPoll c counts
      ⟨past.events ++ [(now, .created l.job.id), (c.start, .submitted l.job.id)],
        past.trace ++ l.job.attemptsTrace now k⟩ j) := by
  have asked : counts.asked (monitor.key, l.job.id) + 1 = c.first := by rw [← hc]; rfl
  have submission := reaches_awaiting answers untimed valid polled known submits success asked now
    past
  have first : (l.alone now counts past).Reaches c.start (l.atPoll c counts
      ⟨past.events ++ [(now, .created l.job.id), (c.start, .submitted l.job.id)],
        past.trace ++ l.job.attemptsTrace now k⟩ 0) := by
    subst hc
    simp only [atPoll, PollCourse.pollsTrace, List.range_zero, List.flatMap_nil, List.append_nil]
    exact submission
  have polled' : l.kind = .poll c.monitor := by rw [← hc]; exact polled
  exact first.trans (c.start_le_pollStart j) (reaches_atPoll polled' counts _ ends goes)

/-- The polls of a monitor that never breaks off and whose polls all end have some course. -/
theorem Monitor.exists_course {m : Monitor} {task : TaskId}
    (ends : ∀ n last, ∃ time outcome, m.Polls task n last time outcome) (first : Nat)
    (submitted : TaskResult) : ∃ (time : Nat → Nat) (outcome : Nat → Worker.PollOutcome), ∀ j,
      m.Polls task (first + j) (Worker.latest submitted outcome j) (time j) (outcome j) := by
  choose time outcome polls using ends
  -- the answer that each poll is asked for with
  let last : Nat → TaskResult := fun j => j.rec submitted fun i before =>
    (outcome (first + i) before).meaning.answer?.getD before
  have latest (j : Nat) :
      Worker.latest submitted (fun j => outcome (first + j) (last j)) j = last j := by
    induction j with
    | zero => rfl
    | succ j ih => rw [Worker.latest_succ, ih]
  refine ⟨fun j => time (first + j) (last j), fun j => outcome (first + j) (last j), fun j => ?_⟩
  rw [latest]
  exact polls _ _

/-- **How a job is polled.**  A worker starts at some time; nobody disturbs it, it has no deadline,
its submission has succeeded after some number of attempts, and its monitor polls at an interval and
does not break off.

* The machine makes of any sequence of outcomes what `Worker.Stops` says: polling goes on, asking
  each time with the latest answer in progress, up to the first poll that is complete or that has
  failed once more than is forgiven, failed polls being counted from the first one on.
* In time, as far as polls end: each is asked for when the interval behind the one before is over,
  and the worker reports its result when the poll ends at which polling stops.  The number of
  attempts is of no account but for the time at which all this starts.
* Any monitor that does not break off has such a course.
* An answer that is no success is not interpreted: the run is the same whatever the monitor would
  make of it.
* Polls are not bounded, and their number is of no account: the run is the same whatever a counter
  holds of it, be it only the last 32 bits.
-/
theorem polling_phase (l : Launch) (answers : ∀ n, (l.job.attempt n).time ≠ none)
    (untimed : l.job.policy.hasTimeout = false) (valid : l.job.policy.validate = .ok ())
    {monitor : Monitor} (polled : l.kind = .poll monitor)
    (known : monitor.policy.validate = .ok ())
    (small : monitor.policy.maxRetry.toNat < UInt32.size - 1) {k : Nat} {submitted : TaskResult}
    (submits : l.job.Submits k submitted) (success : submitted.status = .success)
    (now : Nat) (counts : PollCounts) (past : Timeline) :
    (∀ (w : Worker) first outcome j, w.pollPolicy = some monitor.policy →
      w.phase = .polling first 0 1 → Worker.GoesOn outcome w.task monitor.policy.maxRetry.toNat j →
      w.afterPolls outcome j = { w with
        phase := .polling (Worker.latest first outcome j) (Worker.failedPolls outcome j) (j + 1) } ∧
      Worker.failedPolls outcome (j + 1) < UInt32.size ∧
      ∀ r, Worker.Stops outcome w.task monitor.policy.maxRetry.toNat j r →
        (w.afterPolls outcome j).react (.polled (outcome j)) =
          ({ w with phase := .done r }, [.result w.task r])) ∧
    (∀ time outcome c, c = l.pollCourse monitor now counts k submitted time outcome → ∀ j,
      c.GoesOn j → c.pollStart (j + 1) = c.pollEnd j + monitor.policy.intervalMs.toNat ∧
      (c.Follows j → (l.alone now counts past).Reaches (c.pollStart j)
        ⟨l.awaiting monitor (Worker.latest submitted outcome j) (Worker.failedPolls outcome j)
            (j + 1) (c.first + j) (c.pollStart j),
          counts.put (monitor.key, l.job.id) (c.first + j),
          ⟨past.events ++ [(now, .created l.job.id), (c.start, .submitted l.job.id)],
            past.trace ++ l.job.attemptsTrace now k ++ c.pollsTrace j ++ c.askTrace j⟩⟩) ∧
      (c.Follows (j + 1) → ∀ r, c.Stops j r → ∃ n, ∀ limit fuel, c.pollEnd j < limit → n ≤ fuel →
        (l.alone now counts past).run limit fuel = (l.timed none (.done r),
          ⟨past.events ++ [(now, .created l.job.id), (c.start, .submitted l.job.id),
              (c.pollEnd j, .result l.job.id r)],
            past.trace ++ l.job.attemptsTrace now k ++ c.pollsTrace (j + 1)⟩))) ∧
    ((∀ n last, ∃ time outcome, monitor.Polls l.job.id n last time outcome) →
      ∃ time outcome, ∀ j, (l.pollCourse monitor now counts k submitted time outcome).Follows j) ∧
    (∀ read, (∀ task answer, answer.status = .success →
        read task answer = monitor.interpret task answer) → ∀ limit fuel,
      ((Launch.alone ⟨l.job, .poll { monitor with interpret := read }⟩ now counts past).run limit
        fuel).2 = ((l.alone now counts past).run limit fuel).2) ∧
    ∀ hold limit fuel, ((l.alone now counts past).runHolding hold limit fuel).2 =
      ((l.alone now counts past).run limit fuel).2 := by
  refine ⟨fun w first outcome j policy polling goes => ?_, fun time outcome c hc j goes => ?_,
    fun ends => ?_, fun read same limit fuel => ?_,
    fun hold => (l.alone now counts past).run_holding hold⟩
  · have waits := Worker.afterPolls_eq policy polling goes
    refine ⟨waits, ?_, fun r stops => ?_⟩
    · have forgiven := goes.failedPolls_le
      rw [Worker.failedPolls_succ]
      split <;> omega
    · -- the worker that waits for poll number `j + 1`
      let waiting : Worker :=
        { w with
          phase := .polling (Worker.latest first outcome j) (Worker.failedPolls outcome j) (j + 1) }
      have ends := Worker.react_stops (w := waiting) policy rfl stops
      rw [waits]
      exact ends
  · have timing : c.pollStart (j + 1) = c.pollEnd j + monitor.policy.intervalMs.toNat := by
      have interval : c.monitor.policy.interval.timerMs = monitor.policy.intervalMs.toNat := by
        rw [hc]
        exact Span.timerMs_ofMs _
      rw [PollCourse.pollStart, PollCourse.pollEnd, interval]
    refine ⟨timing, fun ends => ?_, fun ends r stops => ?_⟩
    · have polls := Launch.reaches_course answers untimed valid polled known submits success now
        counts past hc.symm ends goes
      subst hc
      exact polls
    · have polls := Launch.reaches_course answers untimed valid polled known submits success now
        counts past hc.symm (fun i hi => ends i (Nat.lt_succ_of_lt hi)) goes
      have polled' : l.kind = .poll c.monitor := hc ▸ polled
      have stop : (l.alone now counts past).Reaches (c.pollEnd j) _ :=
        polls.trans (Nat.le_add_right ..) (Launch.reaches_stop polled' counts _ ends stops)
      simpa using stop.run_eq rfl
  · obtain ⟨time, outcome, polls⟩ := Monitor.exists_course ends
      (counts.asked (monitor.key, l.job.id) + 1) submitted
    exact ⟨time, outcome, fun j i _ => polls i⟩
  · have starts := TimedWorker.start_reread polled read now
    have kind : (TimedWorker.start l now).1.launch.kind = .poll monitor := by
      rw [TimedWorker.start_launch, polled]
    have same := TimedWorker.run_reread kind same limit fuel counts
      (past.extend now (TimedWorker.start l now).2 [])
    simp only [Launch.alone, Alone.run, starts, same]

/-- A job that succeeds at once, in the name of another task. -/
def Job.brief : Job := ⟨.ofNat 1, default, fun _ => ⟨some 5, .answer (.ok (.success (.ofNat 9)))⟩⟩

/-- A success of its task that says something. -/
def TaskResult.saying (message : String) : TaskResult :=
  (TaskResult.success (.ofNat 1)).withMessage message

/-- A monitor that forgives two failed polls.  It finds nothing, gets an error, makes an incomplete
result of an answer, makes no poll, and at last finds that the task was canceled. -/
def Monitor.wavering : Monitor where
  key := []
  policy := ⟨50, 2⟩
  poll
    | 1 => fun _ _ => .started ⟨some 1, .answer (.ok (.saying "a"))⟩
    | 2 => fun task _ => .started ⟨some 2, .answer (.ok (.failed task "b"))⟩
    | 3 => fun _ _ => .started ⟨some 3, .answer (.ok (.saying "c"))⟩
    | 4 => fun _ _ => .refused (.unsupported "d")
    | _ => fun task _ => .started ⟨some 4, .answer (.ok (.success task))⟩
  interpret := fun task answer => .ok (match answer.message with
    | some "a" => none
    | some "c" => some (.unknown task)
    | _ => some (.canceled (.ofNat 9) "e"))

/-- The job with this monitor. -/
def Launch.wavering : Launch := ⟨.brief, .poll .wavering⟩

/-- How its polls go. -/
def PollCourse.wavering : PollCourse Launch.wavering.job.id :=
  Launch.wavering.pollCourse .wavering 0 .empty 1 (.success (.ofNat 1))
    (fun
      | 0 => 1
      | 1 => 2
      | 2 => 3
      | 3 => 0
      | _ => 4)
    fun
      | 0 => .answered (.saying "a") none
      | 1 => .answered (.failed (.ofNat 1) "b") none
      | 2 => .answered (.saying "c") (some (.unknown (.ofNat 1)))
      | 3 => .failed (.unsupported "d")
      | _ => .answered (.success (.ofNat 1)) (some (.canceled (.ofNat 9) "e"))

theorem PollCourse.wavering_follows : PollCourse.wavering.Follows 5 := by
  rintro (_ | _ | _ | _ | _ | i) hi
  · exact .answered rfl rfl rfl rfl rfl
  · exact .error rfl rfl rfl (by decide)
  · exact .answered rfl rfl rfl rfl rfl
  · exact .refused rfl
  · exact .answered rfl rfl rfl rfl rfl
  · omega

/-- None of the first four polls is complete, and only two of them have failed. -/
theorem PollCourse.wavering_goesOn : PollCourse.wavering.GoesOn 4 := by
  rintro (_ | _ | _ | _ | i) hi r (complete | ⟨failed, spent⟩)
  · cases complete
  · cases failed
  · cases complete
  · exact absurd spent (by decide)
  · cases complete
  · cases failed
  · cases complete
  · exact absurd spent (by decide)
  · omega
  · omega

theorem PollCourse.wavering_trace : PollCourse.wavering.pollEnd 4 = 215 ∧
    PollCourse.wavering.pollsTrace 5 =
      [⟨5, .ofNat 1, .createPoll 1 (.success (.ofNat 1))⟩, ⟨5, .ofNat 1, .poll 1⟩,
        ⟨6, .ofNat 1, .pollEnd 1⟩,
        ⟨56, .ofNat 1, .createPoll 2 (.saying "a")⟩, ⟨56, .ofNat 1, .poll 2⟩,
        ⟨58, .ofNat 1, .pollEnd 2⟩,
        ⟨108, .ofNat 1, .createPoll 3 (.saying "a")⟩, ⟨108, .ofNat 1, .poll 3⟩,
        ⟨111, .ofNat 1, .pollEnd 3⟩,
        ⟨161, .ofNat 1, .createPoll 4 (.saying "c")⟩,
        ⟨211, .ofNat 1, .createPoll 5 (.saying "c")⟩, ⟨211, .ofNat 1, .poll 5⟩,
        ⟨215, .ofNat 1, .pollEnd 5⟩] := by
  have second : PollCourse.wavering.pollStart 1 = 56 := by decide +kernel
  have third : PollCourse.wavering.pollStart 2 = 108 := by decide +kernel
  have fourth : PollCourse.wavering.pollStart 3 = 161 := by decide +kernel
  have fifth : PollCourse.wavering.pollStart 4 = 211 := by decide +kernel
  have ends : PollCourse.wavering.pollEnd 1 = 58 ∧ PollCourse.wavering.pollEnd 2 = 111 ∧
    PollCourse.wavering.pollEnd 4 = 215 := by decide +kernel
  refine ⟨ends.2.2, ?_⟩
  simp only [PollCourse.pollsTrace, List.range, List.range.loop, List.flatMap_cons,
    List.flatMap_nil, PollCourse.askTrace, PollCourse.callTrace, second, third, fourth, fifth, ends]
  rfl

/-- A monitor that forgives one failed poll.  It makes none at first, and then does as given. -/
def Monitor.failing (last : PollAttempt) : Monitor where
  key := []
  policy := ⟨50, 1⟩
  poll
    | 1 => fun _ _ => .refused (.unsupported "d")
    | _ => fun _ _ => last
  interpret := fun _ _ => .ok none

/-- The job with this monitor. -/
def Launch.failing (last : PollAttempt) : Launch := ⟨.brief, .poll (.failing last)⟩

/-- How its polls go, if the second one has a given outcome. -/
def PollCourse.failing (last : PollAttempt) (time : Nat) (outcome : Worker.PollOutcome) :
    PollCourse (Launch.failing last).job.id :=
  (Launch.failing last).pollCourse (.failing last) 0 .empty 1 (.success (.ofNat 1))
    (fun
      | 0 => 0
      | _ => time)
    fun
      | 0 => .failed (.unsupported "d")
      | _ => outcome

section Failing

variable (last : PollAttempt) (time : Nat) {outcome : Worker.PollOutcome}

theorem PollCourse.failing_follows
    (ends : (Monitor.failing last).Polls (.ofNat 1) 2 (.success (.ofNat 1)) time outcome) :
    (PollCourse.failing last time outcome).Follows 2 := by
  rintro (_ | _ | i) hi
  · exact .refused rfl
  · exact ends
  · omega

theorem PollCourse.failing_goesOn (outcome : Worker.PollOutcome) :
    (PollCourse.failing last time outcome).GoesOn 1 := by
  rintro i hi r (complete | ⟨-, spent⟩)
  · obtain rfl : i = 0 := by omega
    cases complete
  · obtain rfl : i = 0 := by omega
    exact absurd (show 1 = 1 + 1 from spent) (by decide)

theorem PollCourse.failing_stops {error : String} (failed : outcome.meaning = .failed error) :
    (PollCourse.failing last time outcome).Stops 1
      ⟨.ofNat 1, .failed, some ("poll retry limit reached, last error: " ++ error), some error,
        .null⟩ := by
  refine .exhausted failed ?_
  show Worker.failedPolls _ (1 + 1) = 1 + 1
  have one : Worker.failedPolls (PollCourse.failing last time outcome).outcome 1 = 1 := rfl
  rw [Worker.failedPolls_succ, one]
  simp [PollCourse.failing, Launch.pollCourse, failed, Worker.PollMeaning.isFailed]

theorem PollCourse.failing_pollEnd (outcome : Worker.PollOutcome) :
    (PollCourse.failing last time outcome).pollEnd 1 = 55 + time := by
  have interval : (PollPolicy.interval ⟨50, 1⟩).timerMs = 50 := by decide +kernel
  show 5 + 0 + (PollPolicy.interval ⟨50, 1⟩).timerMs + time = 55 + time
  rw [interval]

end Failing

/-- Driven alone the launch fails at some time for the errors of its polls, with the last one. -/
def Launch.FailsPolling (l : Launch) (time : Nat) (error : String) : Prop :=
  ∃ n, ∀ limit fuel, time < limit → n ≤ fuel →
    (TimedWorker.runAlone l limit fuel).2.events =
      [(0, .created (.ofNat 1)), (5, .submitted (.ofNat 1)),
        (time, .result (.ofNat 1) ⟨.ofNat 1, .failed,
          some ("poll retry limit reached, last error: " ++ error), some error, .null⟩)]

/-- The first launch is polled five times, and a task that was canceled is no failed poll.  The
others fail: for the status of an answer that says nothing, for the message of an answer, because a
poll has broken off, and because none was made. -/
theorem polling_phase_wavering : (∃ n, ∀ limit fuel, 215 < limit → n ≤ fuel →
    TimedWorker.runAlone .wavering limit fuel =
      (Launch.wavering.timed none (.done (.canceled (.ofNat 1) "e")),
        ⟨[(0, .created (.ofNat 1)), (5, .submitted (.ofNat 1)),
            (215, .result (.ofNat 1) (.canceled (.ofNat 1) "e"))],
          [⟨0, .ofNat 1, .call 1⟩, ⟨5, .ofNat 1, .callEnd 1⟩,
            ⟨5, .ofNat 1, .createPoll 1 (.success (.ofNat 1))⟩, ⟨5, .ofNat 1, .poll 1⟩,
            ⟨6, .ofNat 1, .pollEnd 1⟩,
            ⟨56, .ofNat 1, .createPoll 2 (.saying "a")⟩, ⟨56, .ofNat 1, .poll 2⟩,
            ⟨58, .ofNat 1, .pollEnd 2⟩,
            ⟨108, .ofNat 1, .createPoll 3 (.saying "a")⟩, ⟨108, .ofNat 1, .poll 3⟩,
            ⟨111, .ofNat 1, .pollEnd 3⟩,
            ⟨161, .ofNat 1, .createPoll 4 (.saying "c")⟩,
            ⟨211, .ofNat 1, .createPoll 5 (.saying "c")⟩, ⟨211, .ofNat 1, .poll 5⟩,
            ⟨215, .ofNat 1, .pollEnd 5⟩]⟩)) ∧
    (Launch.failing (.started ⟨some 7, .answer (.ok (.ofStatus (.ofNat 9) .timeout))⟩)).FailsPolling
      62 "Timeout" ∧
    (Launch.failing (.started ⟨some 7, .answer (.ok (.failed (.ofNat 9) "b"))⟩)).FailsPolling 62
      "b" ∧
    (Launch.failing (.started ⟨some 7, .broke "lost"⟩)).FailsPolling 62
      "task worker crashed: lost" ∧
    (Launch.failing (.refused (.execution "full"))).FailsPolling 55
      "task execution failed: full" := by
  have success : (Job.brief.attempt 1).reply.success? = some (.success (.ofNat 9)) := rfl
  have submits : Job.brief.Submits 1 (.success (.ofNat 1)) :=
    .succeeds (n := 0) (fun i hi => absurd hi (Nat.not_lt_zero i)) (Nat.zero_le _) success
  obtain ⟨-, runs, -⟩ := polling_phase .wavering (fun _ => Option.some_ne_none _) rfl (by decide)
    rfl rfl (by decide) submits rfl 0 .empty .empty
  have polls := (runs _ _ PollCourse.wavering rfl 4 PollCourse.wavering_goesOn).2.2
    PollCourse.wavering_follows _ (.complete rfl)
  rw [PollCourse.wavering_trace.1, PollCourse.wavering_trace.2] at polls
  -- whatever the last poll is, as long as it has failed
  have fails (last : PollAttempt) (time : Nat) (outcome : Worker.PollOutcome) (error : String)
      (ends : (Monitor.failing last).Polls (.ofNat 1) 2 (.success (.ofNat 1)) time outcome)
      (failed : outcome.meaning = .failed error) :
      (Launch.failing last).FailsPolling (55 + time) error := by
    have valid : Job.brief.policy.validate = .ok () := by decide
    have small : (1 : UInt32).toNat < UInt32.size - 1 := by decide
    obtain ⟨-, runs, -⟩ := polling_phase (.failing last) (fun _ => Option.some_ne_none _) rfl valid
      rfl rfl small submits rfl 0 .empty .empty
    have polls := (runs _ _ (.failing last time outcome) rfl 1
      (PollCourse.failing_goesOn last time outcome)).2.2 (PollCourse.failing_follows last time ends)
      _ (PollCourse.failing_stops last time failed)
    rw [PollCourse.failing_pollEnd last time outcome] at polls
    obtain ⟨n, runs⟩ := polls
    exact ⟨n, fun limit fuel late enough => congrArg (·.2.events) (runs limit fuel late enough)⟩
  exact ⟨polls, fails _ 7 _ _ (.error rfl rfl rfl (by decide)) rfl,
    fails _ 7 _ _ (.error rfl rfl rfl (by decide)) rfl, fails _ 7 _ _ (.failed rfl rfl rfl) rfl,
    fails _ 0 _ _ (.refused rfl) rfl⟩

end Workflow
