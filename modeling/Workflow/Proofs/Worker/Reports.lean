import Workflow.Worker.Machine

/-!
# Workflow.Proofs.Worker.Reports — a worker reports its result once, as that of its own task

Whatever signals reach a worker, the results among the events that it has reported are the one
result that it has, if it has one (`History.reports`).
-/

namespace Workflow

/-- The result that an event brings. -/
def TaskEvent.result? : TaskEvent → Option TaskResult
  | .result _ r => some r
  | _ => none

namespace Worker

/-- A worker and what it has reported: nobody's result but its own, and that of its task. -/
structure Reports (id : TaskId) (w : Worker) (events : List TaskEvent) : Prop where
  task : w.task = id
  results : events.filterMap TaskEvent.result? = w.result?.toList
  own : ∀ r, w.result? = some r → r.task = id
  running : ∀ e ∈ events, e ≠ .completed

section React

variable {w : Worker}

theorem goto_reports {phase : Phase} (h : ∀ r, phase ≠ .done r) :
    Reports w.task (w.goto phase).1 (w.goto phase).2 := by
  have hnone : (w.goto phase).1.result? = none := by
    cases phase with
    | done r => exact absurd rfl (h r)
    | _ => rfl
  exact ⟨rfl, by rw [hnone]; rfl, by simp [hnone], by simp [goto]⟩

theorem finish_reports {id : TaskId} {r : TaskResult} (hw : w.task = id) (h : r.task = id) :
    Reports id (w.finish r).1 (w.finish r).2 :=
  ⟨hw, rfl, by simpa [finish, result?] using h, by simp [finish]⟩

/-- An event without a result may come first. -/
theorem Reports.cons {id : TaskId} {events : List TaskEvent} (h : Reports id w events)
    {event : TaskEvent} (hresult : event.result? = none) (he : event ≠ .completed) :
    Reports id w (event :: events) := by
  refine ⟨h.task, ?_, h.own, fun e hmem => ?_⟩
  · rw [List.filterMap_cons_none hresult, h.results]
  · rcases List.mem_cons.1 hmem with rfl | hmem
    · exact he
    · exact h.running e hmem

theorem accepted_reports (answer : TaskResult) :
    Reports w.task (w.accepted answer).1 (w.accepted answer).2 := by
  unfold accepted
  cases w.pollPolicy with
  | none => exact finish_reports rfl rfl
  | some p =>
    simp only
    cases p.validate with
    | ok _ => exact (goto_reports (by simp)).cons rfl (by simp)
    | error e => exact (finish_reports rfl rfl).cons rfl (by simp)

theorem attemptFailed_reports (failures : Nat) (error : String) (cause : Option String) :
    Reports w.task (w.attemptFailed failures error cause).1
      (w.attemptFailed failures error cause).2 := by
  unfold attemptFailed
  cases (RetryBudget.forRequest w.policy).decide failures error with
  | retry delay _ => exact goto_reports (by simp)
  | giveUp reason => exact finish_reports rfl rfl

theorem pollFailed_reports (p : PollPolicy) (last : TaskResult) (failures polls : Nat)
    (error : String) : Reports w.task (w.pollFailed p last failures polls error).1
      (w.pollFailed p last failures polls error).2 := by
  unfold pollFailed
  cases (RetryBudget.forPoll p).decide failures error with
  | retry _ _ => exact goto_reports (by simp)
  | giveUp reason => exact finish_reports rfl rfl

theorem polled_reports (p : PollPolicy) (last : TaskResult) (failures polls : Nat)
    (outcome : PollOutcome) : Reports w.task (w.polled p last failures polls outcome).1
      (w.polled p last failures polls outcome).2 := by
  unfold polled
  split
  · exact pollFailed_reports ..
  · split
    · exact pollFailed_reports ..
    · split
      · split
        · exact finish_reports rfl rfl
        · exact goto_reports (by simp)
      · exact goto_reports (by simp)

/-- A worker without a result reports at most that it has got one now. -/
theorem react_reports (h : w.result? = none) (signal : Signal) :
    Reports w.task (w.react signal).1 (w.react signal).2 := by
  have same : Reports w.task w [] := ⟨rfl, by rw [h]; rfl, by simp [h], by simp⟩
  unfold react
  split
  · exact same
  · split
    · exact finish_reports rfl rfl
    · exact same
  · split
    · exact attemptFailed_reports ..
    · exact accepted_reports _
  · exact attemptFailed_reports ..
  · exact goto_reports (by simp)
  · split
    · exact polled_reports ..
    · exact same
  · exact finish_reports rfl rfl
  · exact goto_reports (by simp)
  · exact same

theorem react_of_done {r : TaskResult} (h : w.result? = some r) (signal : Signal) :
    w.react signal = (w, []) := by
  unfold result? at h
  split at h
  · rename_i hphase
    simp only [react, hphase]
  · cases h

theorem start_reports (launch : Launch) :
    Reports launch.job.id (start launch).1 (start launch).2 := by
  unfold start
  simp only
  split
  · exact ⟨rfl, rfl, by simp [result?], by simp⟩
  · refine Reports.cons ?failed rfl TaskEvent.noConfusion
    exact finish_reports rfl rfl

end React

/-- What the worker of a launch may come to, and the events that it has reported by then. -/
inductive History (launch : Launch) : Worker → List TaskEvent → Prop
  | start : History launch (start launch).1 (start launch).2
  | react {w : Worker} {events : List TaskEvent} (h : History launch w events) (signal : Signal) :
    History launch (w.react signal).1 (events ++ (w.react signal).2)

/-- **A worker reports its result once**, and no other. -/
theorem History.reports {launch : Launch} {w : Worker} {events : List TaskEvent}
    (h : History launch w events) : Reports launch.job.id w events := by
  induction h with
  | start => exact start_reports launch
  | @react w events _ signal ih =>
    cases hr : w.result? with
    | some r =>
      rw [react_of_done hr, List.append_nil]
      exact ih
    | none =>
      have now := react_reports hr signal
      rw [ih.task] at now
      refine ⟨now.task, ?_, now.own, fun e he => ?_⟩
      · rw [List.filterMap_append, ih.results, hr, now.results]
        rfl
      · rcases List.mem_append.1 he with he | he
        · exact ih.running e he
        · exact now.running e he

end Worker

/-- A launch ends with a result, after its events: its worker has the result, or breaks off without
one, and the batch reports in its place. -/
inductive Launch.Ends (launch : Launch) (r : TaskResult) : List TaskEvent → Prop
  | finished {w : Worker} {events : List TaskEvent} (h : w.History launch events)
    (hr : w.result? = some r) : Ends launch r events
  | brokeOff {w : Worker} {events : List TaskEvent} (h : w.History launch events)
    (hw : w.result? = none) (cause : String) (hr : r = .failed launch.job.id cause) :
    Ends launch r (events ++ [.result launch.job.id r])

/-- The result with which a launch ends is that of its task, and the only one that it reports. -/
theorem Launch.Ends.reports {launch : Launch} {r : TaskResult} {events : List TaskEvent}
    (h : launch.Ends r events) : events.filterMap TaskEvent.result? = [r] ∧
      r.task = launch.job.id ∧ ∀ e ∈ events, e ≠ .completed := by
  cases h with
  | finished h hr =>
    refine ⟨?_, h.reports.own r hr, h.reports.running⟩
    rw [h.reports.results, hr, Option.toList_some]
  | brokeOff h hw cause hr =>
    refine ⟨?_, by rw [hr]; rfl, fun e he => ?_⟩
    · rw [List.filterMap_append, h.reports.results, hw]
      rfl
    · rcases List.mem_append.1 he with he | he
      · exact h.reports.running e he
      · simp [List.mem_singleton.1 he]

end Workflow
