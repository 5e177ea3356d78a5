import Workflow.Proofs.Worker.Passing
import Workflow.Proofs.Worker.Yield

/-!
# Workflow.Proofs.Worker.Shifting — a worker that starts later does the same later

Whatever a worker does it does at times relative to its start, and polls are counted for its task
alone.  So a worker that starts later takes the same steps, each of them later by the same time
(`TimedWorker.fire_later`), whatever is polled for other tasks meanwhile.
-/

namespace Workflow

/-! ### Everything later -/

/-- The entry at a later time. -/
def TraceEntry.later (e : TraceEntry) (shift : Nat) : TraceEntry :=
  { e with time := e.time + shift }

/-- The timeline with everything later. -/
def Timeline.later (past : Timeline) (shift : Nat) : Timeline :=
  ⟨past.events.map fun e => (e.1 + shift, e.2), past.trace.map (·.later shift)⟩

theorem Timeline.later_extend (past : Timeline) (now : Nat) (events : List TaskEvent)
    (trace : List TraceEntry) (shift : Nat) : (past.extend now events trace).later shift =
      (past.later shift).extend (now + shift) events (trace.map (·.later shift)) := by
  simp [later, extend, Function.comp_def]

/-- A poll of the task is counted in both. -/
theorem PollCounts.SameFor.put {task : TaskId} {counts later : PollCounts}
    (h : SameFor task counts later) (key : List Nat) (n : Nat) :
    SameFor task (counts.put (key, task) n) (later.put (key, task) n) := by
  refine ⟨fun other => ?_⟩
  by_cases same : other = key
  · rw [same, asked_put_self, asked_put_self]
  · have apart : (other, task) ≠ (key, task) := fun h => same (Prod.mk.inj h).1
    simp only [PollCounts.asked]
    rw [Table.get?_put_of_ne _ _ apart, Table.get?_put_of_ne _ _ apart]
    exact h.asked other

namespace TimedWorker

/-- The worker with all its timers later. -/
def later (w : TimedWorker) (shift : Nat) : TimedWorker :=
  { w with
    wake := w.wake.map fun timer => (timer.1 + shift, timer.2)
    deadline := w.deadline.map (· + shift) }

theorem due_later (w : TimedWorker) (shift : Nat) :
    (w.later shift).due = w.due.map (· + shift) := by
  unfold TimedWorker.due later
  cases w.wake <;> cases w.deadline <;> simp

theorem deadlineFirst_later (w : TimedWorker) (shift : Nat) :
    (w.later shift).deadlineFirst = w.deadlineFirst := by
  unfold deadlineFirst later
  cases w.wake <;> cases w.deadline <;> simp [beq_eq_decide]

/-- What a timer leaves that fires later. -/
structure Fired.Later (task : TaskId) (shift : Nat) (f g : Fired) : Prop where
  worker : g.worker = f.worker.later shift
  events : g.events = f.events
  trace : g.trace = f.trace.map (·.later shift)
  counts : PollCounts.SameFor task f.counts g.counts

section Later

variable {w : TimedWorker} {counts counts' : PollCounts}

theorem arrange_later (shift : Nat) (same : PollCounts.SameFor w.worker.task counts counts')
    (now : Nat) (events : List TaskEvent) (trace : List TraceEntry) :
    Fired.Later w.worker.task shift (w.arrange now counts events trace)
      ((w.later shift).arrange (now + shift) counts' events (trace.map (·.later shift))) := by
  obtain ⟨⟨job, kind⟩, ⟨task, policy, pollPolicy, phase⟩, wake, deadline⟩ := w
  cases phase with
  | calling failures => exact ⟨rfl, rfl, rfl, same⟩
  | backingOff failures delay =>
    refine ⟨?_, rfl, rfl, same⟩
    simp [arrange, later, Nat.add_right_comm]
  | polling last failures polls =>
    cases kind with
    | submit => exact ⟨rfl, rfl, rfl, same⟩
    | poll monitor =>
      have asked : (counts'.get? (monitor.key, task)).getD 0 =
          (counts.get? (monitor.key, task)).getD 0 := same.asked monitor.key
      simp only [arrange, later, asked]
      exact ⟨rfl, rfl, by simp [TraceEntry.later], same.put monitor.key _⟩
  | resting last failures polls =>
    refine ⟨?_, rfl, rfl, same⟩
    simp [arrange, later, Nat.add_right_comm]
  | done r => exact ⟨rfl, rfl, rfl, same⟩

theorem signal_later (shift : Nat) (same : PollCounts.SameFor w.worker.task counts counts')
    (now : Nat) (s : Worker.Signal) (trace : List TraceEntry) :
    Fired.Later w.worker.task shift (w.signal now counts s trace)
      ((w.later shift).signal (now + shift) counts' s (trace.map (·.later shift))) := by
  have task : (w.worker.react s).1.task = w.worker.task := Worker.react_task ..
  have arranged := arrange_later (w := { w with worker := (w.worker.react s).1 }) shift
    (task.symm ▸ same) now (w.worker.react s).2 trace
  rwa [task] at arranged

/-- **What happens to a worker that started later happens later.** -/
theorem fire_later (shift : Nat) (same : PollCounts.SameFor w.worker.task counts counts')
    (now : Nat) :
    Fired.Later w.worker.task shift (w.fire now counts)
      ((w.later shift).fire (now + shift) counts') := by
  have wake : (w.later shift).wake = w.wake.map fun timer => (timer.1 + shift, timer.2) := rfl
  rw [fire, fire, deadlineFirst_later, wake]
  split
  · exact signal_later shift same now _ []
  · cases w.wake with
    | none => exact ⟨rfl, rfl, rfl, same⟩
    | some timer =>
      obtain ⟨set, wake⟩ := timer
      cases wake with
      | begin n call =>
        refine ⟨?_, rfl, rfl, same⟩
        simp [later, Function.comp_def, Nat.add_right_comm]
      | reply n reply =>
        have signaled := signal_later shift same now (w.replySignal reply)
        cases reply with
        | answer outcome => exact signaled [_]
        | broke detail => exact signaled []
      | elapsed => exact signal_later shift same now _ []
      | refused e => exact signal_later shift same now _ []
      | broke detail => exact signal_later shift same now _ []

theorem start_later (l : Launch) (now shift : Nat) :
    start l (now + shift) = ((start l now).1.later shift, (start l now).2) := by
  -- the worker before its first timer is set
  let w : TimedWorker :=
    ⟨l, (Worker.start l).1, none, (Worker.start l).1.policy.timeout?.map (now + ·.timerMs)⟩
  have arranged := arrange_later (w := w) shift (.refl _ .empty) now
    (Worker.start l).2 []
  have shifted : w.later shift = ⟨l, (Worker.start l).1, none,
      (Worker.start l).1.policy.timeout?.map (now + shift + ·.timerMs)⟩ := by
    simp [w, later, Function.comp_def, Nat.add_right_comm]
  rw [shifted] at arranged
  exact Prod.ext arranged.worker arranged.events

end Later

end TimedWorker

end Workflow
