import Workflow.Proofs.Flow.Building
import Workflow.Proofs.Step.Targets
import Workflow.Proofs.Worker.Termination
import Workflow.Rollout.Definition

/-!
# Workflow.Proofs.Rollout.Deployment — a rollout is built, and its calls answer

The steps of every rollout build a definition.  Every call that its deployment launches answers:
updates take a fixed time, and the polled host is in progress only as often as the settings say.
The number of permits is the only setting that the deployment may never come to an end with.
-/

namespace Workflow

/-- The jobs of a group whose template makes jobs. -/
theorem Task.mem_expand_group {P : Job → Prop} {spread : Spread}
    {template : TaskId → TaskPolicy → Target → Task}
    (h : ∀ id target, ∃ job, template id spread.policy target = .job job ∧ P job)
    (ids : IdStream .task) : ∀ job ∈ ((Task.group spread template).expand ids).1, P job := by
  unfold expand
  generalize drawFor ids spread.targets = drawn
  obtain ⟨drawn, ids⟩ := drawn
  have kept : ∀ (drawn : List (TaskId × Target)) (acc : List Job × IdStream .task),
      (∀ job ∈ acc.1, P job) → ∀ job ∈ (drawn.foldl (fun acc d =>
        (acc.1 ++ (expand (template d.1 spread.policy d.2) acc.2).1,
          (expand (template d.1 spread.policy d.2) acc.2).2)) acc).1, P job := by
    intro drawn
    induction drawn with
    | nil => exact fun acc hacc => hacc
    | cons d drawn ih =>
      intro acc hacc
      obtain ⟨job, hjob, hP⟩ := h d.1 d.2
      refine ih _ fun j hj => ?_
      simp only [hjob, expand, List.mem_append, List.mem_singleton] at hj
      rcases hj with hj | rfl
      · exact hacc j hj
      · exact hP
  exact kept drawn ([], ids) (by simp)

/-- A step launches the batch that was made for it. -/
theorem StepBody.launching_answer (handler : Handler) {make : Factory Batch} {turn : Nat}
    {context : StepContext} {ids ids' : IdStream .task} {b : Batch}
    (h : make turn context ids = (.ok b, ids')) :
    (launching handler make turn context).answer ids = (.ofLaunch b handler.fresh, ids') := by
  simp [launching, h]

namespace Rollout

variable (r : Rollout)

/-- The polled host is in progress at most as often as the settings say. -/
theorem progressMonitor_inProgress {task : TaskId} {n : Nat} {last answer : TaskResult}
    (h : r.progressMonitor.InProgress task n last answer) : n ≤ r.pendingPolls.toNat := by
  obtain ⟨⟨call, started, reply⟩, -, verdict, interpreted, incomplete⟩ := h
  cases started
  cases reply
  refine Nat.le_of_not_lt fun late => ?_
  simp [progressMonitor, pollAnswer, TaskResult.withPayload, Json.member, Json.member?,
    Nat.not_le_of_lt late] at interpreted
  subst interpreted
  cases incomplete _ rfl

/-- What a deployment launches: jobs that are submitted, and one that is polled. -/
theorem deployment_eq (turn : Nat) (context : StepContext) (ids : IdStream .task) :
    ∃ (jobs : List Job) (id : TaskId) (answer : TaskResult) (ids' : IdStream .task),
      (∀ job ∈ jobs, ∀ n, (job.attempt n).time ≠ none) ∧
      r.deployment turn context ids = (.ok ⟨jobs.map (⟨·, .submit⟩) ++
        [⟨⟨id, r.task, fun _ => ⟨some 0, .answer (.ok answer)⟩⟩, .poll r.progressMonitor⟩],
        r.batch⟩, ids') := by
  refine ⟨(r.updates.expand ids).1, (r.updates.expand ids).2.next.1, _, _, ?_, rfl⟩
  exact Task.mem_expand_group (fun id target => ⟨_, rfl, by simp [updateCall]⟩) ids

/-- **Every call of a deployment answers**, and it runs with the permits of the settings. -/
theorem deployment_answers (turn : Nat) (context : StepContext) (ids : IdStream .task) :
    ∃ b ids', r.deployment turn context ids = (.ok b, ids') ∧ b.policy = r.batch ∧
      b.launches ≠ [] ∧ ∀ l ∈ b.launches, l.Answers := by
  obtain ⟨jobs, id, answer, ids', times, deployed⟩ := r.deployment_eq turn context ids
  refine ⟨_, ids', deployed, rfl, by simp, fun l hl => ?_⟩
  rcases List.mem_append.1 hl with submitted | polled
  · obtain ⟨job, hjob, rfl⟩ := List.mem_map.1 submitted
    exact .of_submit (times job hjob)
  · obtain rfl := List.mem_singleton.1 polled
    refine ⟨fun n => by simp, fun monitor kind n last call started => ?_,
      fun monitor kind n answer _ _ => ?_⟩
    · cases kind
      cases started
      simp
    · cases kind
      exact ⟨r.pendingPolls.toNat, .of_bound (fun n last answer => r.progressMonitor_inProgress)
        _ (by omega) _⟩

/-- The step that updates all hosts. -/
def deployStep : Step :=
  ⟨{ StepProperties.named "deploy" with desc := "update every host", weight := 5 },
    .batch r.deployment, .ofRoutes (.onResult "verify" "handleError"), .unbounded⟩

/-- The steps of a rollout, once they are built. -/
def builtSteps : List Step := [
  ⟨{ StepProperties.named "start" with weight := 0 }, .fixed (.runTo "deploy"), .empty, .unbounded⟩,
  r.deployStep,
  ⟨.named "verify", verification, .empty, .unbounded⟩,
  ⟨.named "stop", .fixed (.park .completed .success (some "rollout finished")), .empty, .unbounded⟩,
  ⟨{ StepProperties.named "handleError" with isErrorStep := true },
    .fixed (.park .completed .failed (some "rollout failed")), .empty, .unbounded⟩]

/-- The steps of every rollout build a definition. -/
theorem builds :
    ∃ d, Definition.build "rollout" r.flow r.steps = .ok d ∧ d.steps = r.builtSteps := by
  have each : r.steps.map StepDraft.build = r.builtSteps.map .ok := rfl
  have ids : stepIds r.builtSteps = ["start", "deploy", "verify", "stop", "handleError"] := rfl
  refine Definition.build_of_known each (by simp [builtSteps]) (ids ▸ by decide) ?known ?unflagged
  case known =>
    intro s hs target ht
    rw [ids]
    simp only [builtSteps, List.mem_cons, List.not_mem_nil, or_false] at hs
    rcases hs with rfl | rfl | rfl | rfl | rfl
    · have start : target ∈ ["deploy"] := ht
      simp_all
    · have handled : target ∈ (Routes.onResult "verify" "handleError").targets := ht
      rcases Routes.mem_targets_onResult handled with rfl | rfl <;> simp
    all_goals cases ht
  case unflagged =>
    intro s hs
    simp only [builtSteps, List.mem_cons, List.not_mem_nil, or_false] at hs
    rcases hs with rfl | rfl | rfl | rfl | rfl <;> rfl

/-- The definition of a rollout has a step that launches a batch with the permits of the settings,
and every call of this batch answers. -/
theorem launches (turn : Nat) (record : Record) (ids : IdStream .task) :
    ∃ d s l, Definition.build "rollout" r.flow r.steps = .ok d ∧ s ∈ d.steps ∧
      ((s.execute turn record).answer ids).1.launch = some l ∧ l.batch.policy = r.batch ∧
      l.batch.launches ≠ [] ∧ ∀ x ∈ l.batch.launches, x.Answers := by
  obtain ⟨d, built, steps⟩ := r.builds
  obtain ⟨b, ids', deployed, policy, some_, answers⟩ :=
    r.deployment_answers turn ⟨"deploy", record⟩ ids
  have deploy : r.deployStep ∈ d.steps := by
    rw [steps]
    exact List.mem_cons_of_mem _ List.mem_cons_self
  have launched := StepBody.launching_answer r.deployStep.handler deployed
  exact ⟨d, r.deployStep, ⟨b, r.deployStep.handler.fresh⟩, built, deploy,
    congrArg (fun a => a.1.launch) launched, policy, some_, answers⟩

end Rollout

end Workflow
