import Workflow.Proofs.Batch.Completion
import Workflow.Proofs.Flow.Building
import Workflow.Proofs.Rollout.Deployment

/-!
# Workflow.Proofs.Flow.Launches — the batches that the steps of a definition launch

A step with tasks, submitted or polled, launches them with its own limit, which was checked when the
step was built.  A step that makes batches of its own, or works in a way of its own, gives them any
limit at all, and nobody checks it.  So a launched batch whose calls answer completes, unless it has
launches and a limit of zero (`launched_batch_completes_iff`).
-/

namespace Workflow

namespace StepBody

/-- Whether the step's tasks run with the limit of the step. -/
def usesPolicy : StepBody → Bool
  | tasks _ => true
  | polled _ _ => true
  | _ => false

end StepBody

theorem Batch.ofTasks_policy (policy : BatchPolicy) (tasks : List (Task × WorkerKind))
    (ids : IdStream .task) : (Batch.ofTasks policy tasks ids).1.policy = policy := by
  have kept : ∀ acc : Batch × IdStream .task,
      (tasks.foldl (fun acc t => acc.1.push t.1 t.2 acc.2) acc).1.policy = acc.1.policy := by
    induction tasks with
    | nil => exact fun _ => rfl
    | cons t tasks ih => exact fun acc => ih _
  exact kept _

/-- A step that launches tasks launches a batch that was made for it. -/
theorem StepBody.launching_launch {handler : Handler} {make : Factory Batch} {turn : Nat}
    {context : StepContext} {ids : IdStream .task} {l : StepLaunch}
    (h : ((launching handler make turn context).answer ids).1.launch = some l) :
    (make turn context ids).1 = .ok l.batch := by
  unfold launching at h
  simp only at h
  split at h
  · rename_i made
    cases h
    rw [made]
  · cases h

theorem StepBody.uniform_policy {policy : BatchPolicy} {kind : WorkerKind}
    {make : Factory (List Task)} {turn : Nat} {context : StepContext} {ids : IdStream .task}
    {b : Batch} (h : (uniform policy kind make turn context ids).1 = .ok b) :
    b.policy = policy := by
  unfold uniform at h
  split at h
  · cases h
    exact Batch.ofTasks_policy ..
  · cases h

namespace Step

variable {s : Step} {turn : Nat} {record : Record} {ids : IdStream .task} {l : StepLaunch}
  (launched : ((s.execute turn record).answer ids).1.launch = some l)

include launched

/-- Tasks that a step launches as such have the limit of the step. -/
theorem launch_policy (uses : s.body.usesPolicy) : l.batch.policy = s.policy := by
  unfold execute at launched
  cases hb : s.body with
  | tasks make =>
    rw [hb] at launched
    exact StepBody.uniform_policy (StepBody.launching_launch launched)
  | polled monitor make =>
    rw [hb] at launched
    exact StepBody.uniform_policy (StepBody.launching_launch launched)
  | _ => rw [hb] at uses; cases uses

end Step

namespace Definition

/-- The limit of every step of a built definition was checked. -/
theorem step_policy {flowType : String} {properties : FlowProperties} {drafts : List StepDraft}
    {d : Definition} (built : build flowType properties drafts = .ok d) {s : Step}
    (hs : s ∈ d.steps) : s.policy.maxConcurrency ≠ some 0 := by
  have each : (.ok s : Except BuildError Step) ∈ drafts.map StepDraft.build :=
    build_steps built ▸ List.mem_map_of_mem hs
  obtain ⟨draft, -, hdraft⟩ := List.mem_map.1 each
  obtain ⟨-, limit, body, -, rfl⟩ := StepDraft.build_eq_ok.1 hdraft
  exact limit

/-- **Of the batches that a built definition launches just those with launches and a limit of zero
deadlock.**  Let all calls of a launched batch answer:

* whenever it starts, and whatever is due happens in whichever order, it completes after finitely
  many steps if and only if it has no launches or its limit is not zero;
* the same holds in virtual time;
* the limit is not zero if the step's tasks run with the limit of the step;
* in no run of it is a permit lost or made, whatever it was that ended a worker. -/
theorem launched_batch_completes_iff {flowType : String} {properties : FlowProperties}
    {drafts : List StepDraft} {d : Definition} (built : build flowType properties drafts = .ok d)
    {s : Step} (hs : s ∈ d.steps) {turn : Nat} {record : Record} {ids : IdStream .task}
    {l : StepLaunch} (launched : ((s.execute turn record).answer ids).1.launch = some l)
    (answers : ∀ x ∈ l.batch.launches, x.Answers) :
    (∀ now counts, l.batch.Finishes now counts ↔
      l.batch.policy.maxConcurrency ≠ some 0 ∨ l.batch.launches = []) ∧
    ((∃ limit fuel, .completed ∈ TimedCrew.told (TimedCrew.runAlone l.batch limit fuel).2) ↔
      l.batch.policy.maxConcurrency ≠ some 0 ∨ l.batch.launches = []) ∧
    (s.body.usesPolicy → l.batch.policy.maxConcurrency ≠ some 0) ∧
    ∀ c told, Crew.Runs TimedWorker.worker l.batch c told →
      Crew.Staffed TimedWorker.worker (l.batch.policy.maxConcurrency.map UInt64.toNat) c := by
  refine ⟨Batch.finishes_iff answers, Batch.runAlone_completes_iff answers, fun uses => ?_,
    fun _ _ runs => runs.staffed⟩
  rw [Step.launch_policy launched uses]
  exact step_policy built hs

/-- The deployment of a rollout whose calls are made one at a time completes. -/
theorem launched_batch_completes_iff_rollout : ∃ (r : Rollout) (d : Definition) (s : Step)
    (l : StepLaunch), Definition.build "rollout" r.flow r.steps = .ok d ∧ s ∈ d.steps ∧
      ((s.execute 1 default).answer .counting).1.launch = some l ∧
      l.batch.policy.maxConcurrency = some 1 ∧ (∀ x ∈ l.batch.launches, x.Answers) ∧
      ∀ now counts, l.batch.Finishes now counts := by
  obtain ⟨d, s, l, built, hs, launched, policy, -, answers⟩ :=
    Rollout.launches { (default : Rollout) with batch := ⟨some 1⟩ } 1 default .counting
  obtain ⟨completes, -, -, -⟩ := launched_batch_completes_iff built hs launched answers
  refine ⟨_, d, s, l, built, hs, launched, by rw [policy], answers, fun now counts => ?_⟩
  exact (completes now counts).2 (.inl (by simp [policy]))

/-- The settings of a rollout may say that no call runs at all.  Its definition is built, its
deployment is launched, and nothing ever happens in it, though every call would answer. -/
theorem rollout_without_permits : ∃ (r : Rollout) (d : Definition) (s : Step) (l : StepLaunch),
    Rollout.ofJson? (.object [("batch", .object [("max_concurrency", .ofNat 0)])]) = some r ∧
    Definition.build "rollout" r.flow r.steps = .ok d ∧ s ∈ d.steps ∧
    ((s.execute 1 default).answer .counting).1.launch = some l ∧
    (∀ x ∈ l.batch.launches, x.Answers) ∧ ∀ now counts, ¬l.batch.Finishes now counts := by
  have read : Rollout.ofJson? (.object [("batch", .object [("max_concurrency", .ofNat 0)])]) =
      some { (default : Rollout) with batch := ⟨some 0⟩ } := rfl
  obtain ⟨d, s, l, built, hs, launched, policy, some_, answers⟩ :=
    Rollout.launches { (default : Rollout) with batch := ⟨some 0⟩ } 1 default .counting
  refine ⟨_, d, s, l, read, built, hs, launched, answers, fun now counts completes => ?_⟩
  rcases (Batch.finishes_iff answers now counts).1 completes with permits | nothing
  · exact permits (by rw [policy])
  · exact some_ nothing

end Definition

end Workflow
