import Workflow.Proofs.Worker.Submission

/-!
# Workflow.Proofs.Worker.PollNumbers — the number of a poll is of no account to its worker

A worker counts its polls, and looks at their number for nothing but the next one; no budget bounds
it.  So whatever a counter holds of the number, all of it or its last 32 bits, the same happens
(`Alone.run_holding`).
-/

namespace Workflow

namespace Worker

/-- The phase, with what a counter holds of the number of polls. -/
def Phase.holding (hold : Nat → Nat) : Phase → Phase
  | polling last failures polls => polling last failures (hold polls)
  | resting last failures polls => resting last failures (hold polls)
  | phase => phase

def holding (hold : Nat → Nat) (w : Worker) : Worker := { w with phase := w.phase.holding hold }

/-- The worker without its number of polls. -/
def uncounted (w : Worker) : Worker := w.holding fun _ => 0

/-- The worker is the same but for its number of polls, and reports the same. -/
def Alike (next next' : Worker × List TaskEvent) : Prop :=
  next.1.uncounted = next'.1.uncounted ∧ next.2 = next'.2

section Uncounted

variable (w : Worker)

theorem holding_uncounted (hold : Nat → Nat) : (w.holding hold).uncounted = w.uncounted := by
  obtain ⟨task, policy, pollPolicy, phase⟩ := w
  cases phase <;> rfl

theorem attemptFailed_alike (failures : Nat) (error : String) (cause : Option String) :
    Alike (w.uncounted.attemptFailed failures error cause)
      (w.attemptFailed failures error cause) := by
  have budget : RetryBudget.forRequest w.uncounted.policy = .forRequest w.policy := rfl
  unfold attemptFailed
  rw [budget]
  cases (RetryBudget.forRequest w.policy).decide failures error <;> exact ⟨rfl, rfl⟩

theorem accepted_alike (answer : TaskResult) :
    Alike (w.uncounted.accepted answer) (w.accepted answer) := by
  have kind : w.uncounted.pollPolicy = w.pollPolicy := rfl
  unfold accepted
  rw [kind]
  cases w.pollPolicy with
  | none => exact ⟨rfl, rfl⟩
  | some p => cases valid : p.validate <;> simp only [valid] <;> exact ⟨rfl, rfl⟩

theorem pollFailed_alike (p : PollPolicy) (last : TaskResult) (failures polls polls' : Nat)
    (error : String) : Alike (w.uncounted.pollFailed p last failures polls error)
      (w.pollFailed p last failures polls' error) := by
  unfold pollFailed
  cases (RetryBudget.forPoll p).decide failures error <;> exact ⟨rfl, rfl⟩

theorem polled_alike (p : PollPolicy) (last : TaskResult) (failures polls polls' : Nat)
    (outcome : PollOutcome) : Alike (w.uncounted.polled p last failures polls outcome)
      (w.polled p last failures polls' outcome) := by
  cases outcome with
  | failed e => exact pollFailed_alike ..
  | answered answer verdict =>
    simp only [polled]
    split
    · exact pollFailed_alike ..
    · cases verdict with
      | none => exact ⟨rfl, rfl⟩
      | some r =>
        simp only
        split <;> exact ⟨rfl, rfl⟩

/-- The deadline ends a worker in whatever phase it is. -/
theorem react_expired_alike (going : w.phase.isDone = false) :
    Alike (w.uncounted.react .expired) (w.react .expired) := by
  have cut {w : Worker} (going : w.phase.isDone = false) :
      w.react .expired = if w.policy.hasTimeout then w.finish w.timedOut else (w, []) := by
    obtain ⟨task, policy, pollPolicy, phase⟩ := w
    cases phase with
    | done r => cases going
    | calling _ | backingOff _ _ | polling _ _ _ | resting _ _ _ => rfl
  have going' : w.uncounted.phase.isDone = false := by
    obtain ⟨task, policy, pollPolicy, phase⟩ := w
    cases phase with
    | done r => cases going
    | calling _ | backingOff _ _ | polling _ _ _ | resting _ _ _ => rfl
  have policy : w.uncounted.policy = w.policy := rfl
  rw [cut going, cut going', policy]
  split
  · exact ⟨rfl, rfl⟩
  · exact ⟨w.holding_uncounted _, rfl⟩

/-- **A worker reacts to a signal as it does without its number of polls.** -/
theorem react_alike (s : Signal) : Alike (w.uncounted.react s) (w.react s) := by
  obtain ⟨task, policy, pollPolicy, phase⟩ := w
  cases phase with
  | done r => exact ⟨rfl, rfl⟩
  | calling failures =>
    cases s with
    | expired => exact react_expired_alike _ rfl
    | answered outcome =>
      cases outcome with
      | error e => exact attemptFailed_alike ..
      | ok answer =>
        rw [react_answered rfl, react_answered rfl]
        split
        · exact attemptFailed_alike ..
        · exact accepted_alike ..
    | elapsed | polled _ | monitorBroke _ => exact ⟨rfl, rfl⟩
  | backingOff failures delay =>
    cases s with
    | expired => exact react_expired_alike _ rfl
    | elapsed | answered _ | polled _ | monitorBroke _ => exact ⟨rfl, rfl⟩
  | polling last failures polls =>
    cases s with
    | expired => exact react_expired_alike _ rfl
    | polled outcome =>
      cases pollPolicy with
      | none => exact ⟨rfl, rfl⟩
      | some p => exact polled_alike ..
    | elapsed | answered _ | monitorBroke _ => exact ⟨rfl, rfl⟩
  | resting last failures polls =>
    -- here the next number is made of the last one, which is not looked at either
    cases s with
    | expired => exact react_expired_alike _ rfl
    | elapsed | answered _ | polled _ | monitorBroke _ => exact ⟨rfl, rfl⟩

end Uncounted

end Worker

namespace TimedWorker

def holding (hold : Nat → Nat) (w : TimedWorker) : TimedWorker :=
  { w with worker := w.worker.holding hold }

def uncounted (w : TimedWorker) : TimedWorker := { w with worker := w.worker.uncounted }

/-- What a timer leaves that has fired, without the number of polls. -/
def Fired.uncounted (f : Fired) : Fired := { f with worker := f.worker.uncounted }

/-- Lets everything happen that is due before `limit`, in at most `fuel` steps, behind each of which
a counter holds what it can of the number of polls. -/
def runHolding (hold : Nat → Nat) (limit : Nat) :
    Nat → TimedWorker → PollCounts → Timeline → TimedWorker × Timeline
  | 0, w, _, past => (w, past)
  | fuel + 1, w, counts, past =>
    match w.due with
    | none => (w, past)
    | some now =>
      if limit ≤ now then (w, past)
      else
        let fired := w.fire now counts
        runHolding hold limit fuel (fired.worker.holding hold) fired.counts
          (past.extend now fired.events fired.trace)

section Uncounted

variable (w : TimedWorker)

theorem arrange_uncounted (now : Nat) (counts : PollCounts) (events : List TaskEvent)
    (trace : List TraceEntry) :
    w.uncounted.arrange now counts events trace =
      (w.arrange now counts events trace).uncounted := by
  obtain ⟨⟨job, kind⟩, ⟨task, policy, pollPolicy, phase⟩, wake, deadline⟩ := w
  cases phase with
  | polling last failures polls => cases kind <;> rfl
  | calling _ | backingOff _ _ | resting _ _ _ | done _ => rfl

theorem signal_uncounted (now : Nat) (counts : PollCounts) (s : Worker.Signal)
    (trace : List TraceEntry) : (w.uncounted.signal now counts s trace).uncounted =
      (w.signal now counts s trace).uncounted := by
  obtain ⟨worker, events⟩ := w.worker.react_alike s
  rw [signal, signal, ← arrange_uncounted, ← arrange_uncounted]
  have next : uncounted { w.uncounted with worker := (w.uncounted.worker.react s).1 } =
      uncounted { w with worker := (w.worker.react s).1 } :=
    congrArg (fun worker => { w with worker := worker }) worker
  rw [next]
  exact congrArg (fun events => arrange _ now counts events trace) events

theorem replySignal_uncounted (reply : Reply) :
    w.uncounted.replySignal reply = w.replySignal reply := by
  obtain ⟨⟨job, kind⟩, ⟨task, policy, pollPolicy, phase⟩, wake, deadline⟩ := w
  cases phase with
  | polling last failures polls => cases kind <;> rfl
  | calling _ | backingOff _ _ | resting _ _ _ | done _ => rfl

theorem isPolling_uncounted : w.uncounted.isPolling = w.isPolling := by
  obtain ⟨launch, ⟨task, policy, pollPolicy, phase⟩, wake, deadline⟩ := w
  cases phase <;> rfl

theorem fire_uncounted (now : Nat) (counts : PollCounts) :
    (w.uncounted.fire now counts).uncounted = (w.fire now counts).uncounted := by
  have first : w.uncounted.deadlineFirst = w.deadlineFirst := rfl
  have timer : w.uncounted.wake = w.wake := rfl
  have task : w.uncounted.worker.task = w.worker.task := rfl
  have twice : w.worker.uncounted.uncounted = w.worker.uncounted := w.worker.holding_uncounted _
  simp only [fire, first, timer, replySignal_uncounted, isPolling_uncounted, task]
  split
  · exact signal_uncounted ..
  · cases w.wake with
    | none => simp only [Fired.uncounted, uncounted, twice]
    | some wake =>
      obtain ⟨set, wake⟩ := wake
      cases wake with
      | begin n call => simp only [Fired.uncounted, uncounted, twice]
      | reply _ _ | elapsed | refused _ | broke _ => exact signal_uncounted ..

variable {w} {w' : TimedWorker}

/-- Workers that are the same but for their numbers of polls do the same, whatever a counter holds
of these. -/
theorem run_holding (hold : Nat → Nat) (same : w.uncounted = w'.uncounted) (limit fuel : Nat)
    (counts : PollCounts) (past : Timeline) :
    (runHolding hold limit fuel w counts past).2 = (run limit fuel w' counts past).2 := by
  induction fuel generalizing w w' counts past with
  | zero => rfl
  | succ fuel ih =>
    have due : w.uncounted.due = w'.uncounted.due := congrArg due same
    have due : w.due = w'.due := due
    unfold runHolding run
    rw [due]
    cases w'.due with
    | none => rfl
    | some now =>
      simp only
      split
      · rfl
      · have fired : (w.fire now counts).uncounted = (w'.fire now counts).uncounted := by
          rw [← fire_uncounted w, ← fire_uncounted w', same]
        obtain ⟨next, counts', events, trace⟩ := Fired.mk.inj fired
        rw [counts', events, trace]
        refine ih ?_ _ _
        exact (congrArg (fun worker => { (w.fire now counts).worker with worker := worker })
          ((w.fire now counts).worker.worker.holding_uncounted hold)).trans next

end Uncounted

end TimedWorker

namespace Alone

/-- What has come of the worker once everything has happened that is due before `limit`, with a
counter that holds what it can of the number of polls. -/
def runHolding (hold : Nat → Nat) (x : Alone) (limit fuel : Nat) : TimedWorker × Timeline :=
  x.worker.runHolding hold limit fuel x.counts x.past

/-- **Whatever a counter holds of the number of polls**, the same happens. -/
theorem run_holding (hold : Nat → Nat) (x : Alone) (limit fuel : Nat) :
    (x.runHolding hold limit fuel).2 = (x.run limit fuel).2 :=
  TimedWorker.run_holding hold rfl limit fuel x.counts x.past

end Alone

end Workflow
