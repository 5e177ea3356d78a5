import Workflow.Proofs.Batch.Harvest
import Workflow.Proofs.Rollout.Deployment
import Workflow.Proofs.Supply

/-!
# Workflow.Proofs.Rollout.Outcomes — what every call of a deployment comes to

A deployment draws an identifier for each host in order of the settings, however often a host occurs
there, and one more for the polled host (`Rollout.deployment_launches`).  Updates come to the result
of their only kind of answer, repeated up to the limit of retries if it is a failure, and the polled
update is through with the first poll that does not find it running (`Rollout.allYield`).
-/

namespace Workflow

/-! ### What is launched -/

/-- The jobs of a group whose template makes jobs. -/
theorem Task.expand_group {spread : Spread} {template : TaskId → TaskPolicy → Target → Task}
    {job : TaskId → Target → Job}
    (h : ∀ id target, template id spread.policy target = .job (job id target))
    (ids : IdStream .task) : (Task.group spread template).expand ids =
      ((ids.upcoming spread.targets.length).zipWith job spread.targets,
        ids.skip spread.targets.length) := by
  have kept (drawn : List (TaskId × Target)) (acc : List Job × IdStream .task) :
      drawn.foldl (fun acc d => (acc.1 ++ (expand (template d.1 spread.policy d.2) acc.2).1,
        (expand (template d.1 spread.policy d.2) acc.2).2)) acc =
      (acc.1 ++ drawn.map fun d => job d.1 d.2, acc.2) := by
    induction drawn generalizing acc with
    | nil => simp
    | cons d drawn ih =>
      rw [List.foldl_cons, ih, h]
      simp [expand]
  unfold expand
  simp only [drawFor_eq]
  rw [kept, List.nil_append, List.zip, List.map_zipWith]

namespace Spread

/-- Without parameter sets there is one target for each occurrence of a host. -/
theorem targets_of_no_sets (policy : TaskPolicy) (hosts : List String) :
    (Spread.mk policy hosts []).targets = hosts.map (⟨·, []⟩) := by
  induction hosts with
  | nil => rfl
  | cons host hosts ih =>
    have rest : List.flatMap (Spread.targetsOn ⟨policy, host :: hosts, []⟩) hosts =
        hosts.map (⟨·, []⟩) := ih
    rw [targets, List.flatMap_cons, rest]
    rfl

end Spread

namespace Rollout

variable (r : Rollout)

/-- The job that updates one host. -/
def updateJob (id : TaskId) (host : String) : Job := ⟨id, r.task, fun _ => r.updateCall id host⟩

/-- What the submission for the polled host answers. -/
def accepted (id : TaskId) : TaskResult :=
  (TaskResult.success id).withMessage (r.polledHost ++ ": update submitted")

/-- The job that submits the update of the polled host. -/
def submissionJob (id : TaskId) : Job :=
  ⟨id, r.task, fun _ => ⟨some 0, .answer (.ok (r.accepted id))⟩⟩

/-- A deployment launches one update for each occurrence of a host, and one polled update. -/
theorem deployment_launches (turn : Nat) (context : StepContext) (ids : IdStream .task) :
    r.deployment turn context ids =
      (.ok ⟨(ids.upcoming r.hosts.length).zipWith
          (fun id host => ⟨r.updateJob id host, .submit⟩) r.hosts ++
        [⟨r.submissionJob (ids.skip r.hosts.length).next.1, .poll r.progressMonitor⟩], r.batch⟩,
        (ids.skip r.hosts.length).next.2) := by
  let spread : Spread := ⟨r.task, r.hosts, []⟩
  have jobs : r.updates.expand ids =
      ((ids.upcoming spread.targets.length).zipWith
        (fun id target => r.updateJob id target.host) spread.targets,
        ids.skip spread.targets.length) := Task.expand_group (fun _ _ => rfl) ids
  rw [Spread.targets_of_no_sets, List.length_map, List.zipWith_map_right] at jobs
  simp only [deployment, Batch.push, jobs, List.map_zipWith, Batch.empty, List.nil_append]
  rfl

/-! ### What becomes of it -/

/-- What the update of a host comes to. -/
def updateResult (id : TaskId) (host : String) : TaskResult :=
  if r.failingHost = some host then
    (TaskResult.failed id ("request retry limit reached, last error: "
      ++ (host ++ ": connection refused"))).withCause (host ++ ": connection refused")
  else (TaskResult.success id).withMessage (host ++ ": updated")

/-- What the polled update comes to. -/
def polledResult (id : TaskId) : TaskResult :=
  ((TaskResult.success id).withMessage "update applied").withPayload
    (.object [("state", .string "done"), ("poll", .ofNat (r.pendingPolls.toNat + 1))])

/-- What the calls of a deployment come to, in the order in which they are launched. -/
def outcomes (ids : IdStream .task) : List TaskResult :=
  (ids.upcoming r.hosts.length).zipWith r.updateResult r.hosts ++
    [r.polledResult (ids.skip r.hosts.length).next.1]

theorem length_outcomes (ids : IdStream .task) :
    (r.outcomes ids).length = r.hosts.length + 1 := by
  simp [outcomes]

/-- Some call of the rollout always fails. -/
def Fails : Prop := ∃ host ∈ r.hosts, r.failingHost = some host

instance : Decidable r.Fails :=
  inferInstanceAs (Decidable (∃ host ∈ r.hosts, r.failingHost = some host))

theorem updateResult_task (id : TaskId) (host : String) : (r.updateResult id host).task = id := by
  unfold updateResult
  split <;> rfl

theorem updateResult_status (id : TaskId) (host : String) :
    (r.updateResult id host).status = .success ↔ r.failingHost ≠ some host := by
  unfold updateResult
  split
  · simp [TaskResult.withCause, TaskResult.failed, TaskResult.withMessage, TaskResult.ofStatus, *]
  · simp [TaskResult.success, TaskResult.withMessage, TaskResult.ofStatus, *]

/-- Every task of the deployment has a result of its own. -/
theorem outcomes_task (ids : IdStream .task) :
    (r.outcomes ids).map TaskResult.task = ids.upcoming (r.hosts.length + 1) := by
  have each (hosts : List String) (ids : IdStream .task) :
      ((ids.upcoming hosts.length).zipWith r.updateResult hosts).map TaskResult.task =
        ids.upcoming hosts.length := by
    induction hosts generalizing ids with
    | nil => rfl
    | cons host hosts ih =>
      simp [IdStream.upcoming, updateResult_task, ih]
  rw [outcomes, List.map_append, each, IdStream.upcoming_succ]
  rfl

/-- All calls of the deployment succeed unless some call always fails. -/
theorem outcomes_succeed (ids : IdStream .task) :
    (∀ q ∈ r.outcomes ids, q.status = .success) ↔ ¬ r.Fails := by
  have each (hosts : List String) (ids : IdStream .task) :
      (∀ q ∈ (ids.upcoming hosts.length).zipWith r.updateResult hosts, q.status = .success) ↔
        ∀ host ∈ hosts, r.failingHost ≠ some host := by
    induction hosts generalizing ids with
    | nil => simp
    | cons host hosts ih =>
      simp only [IdStream.upcoming, List.length_cons, List.zipWith_cons_cons, List.forall_mem_cons,
        updateResult_status, ih]
  have polled : (r.polledResult (ids.skip r.hosts.length).next.1).status = .success := rfl
  simp only [outcomes, List.forall_mem_append, each, List.forall_mem_singleton, polled, and_true,
    Fails, not_exists, not_and, ne_eq]

section Yields

variable {r} (valid : r.task.validate = .ok ()) (untimed : r.task.timeoutMs = 0)
  (retries : r.task.maxRetry.toNat < UInt32.size - 1)

include valid untimed retries

/-- The update of a host yields its result. -/
theorem update_yields (id : TaskId) (host : String) :
    Launch.Yields ⟨r.updateJob id host, .submit⟩ (r.updateResult id host) 0 := by
  have yields (k : Nat) (submits : (r.updateJob id host).Submits k (r.updateResult id host)) :
      Launch.Yields ⟨r.updateJob id host, .submit⟩ (r.updateResult id host) 0 :=
    Launch.yields_of_submits rfl (fun n => by simp [updateJob, updateCall])
      (by simp [updateJob, TaskPolicy.hasTimeout, untimed]) valid retries submits
  by_cases fails : r.failingHost = some host
  · have failed (n : Nat) : ((r.updateJob id host).attempt n).reply.success? = none := by
      simp [updateJob, updateCall, fails, Reply.success?, Reply.outcome, TaskResult.failed,
        TaskResult.ofStatus, TaskResult.withMessage]
    have result : (r.updateJob id host).exhausted
        ((r.updateJob id host).attempt (r.task.maxRetry.toNat + 1)).reply =
          r.updateResult id host := by
      simp [updateJob, updateCall, fails, updateResult, Job.exhausted, Reply.reason,
        Reply.cause?, Reply.outcome, TaskResult.failed, TaskResult.withMessage,
        TaskResult.withCause, TaskResult.ofStatus]
    have spent : (r.updateJob id host).Submits _ _ := .givesUp fun i _ => failed (i + 1)
    exact yields _ (result ▸ spent)
  · have succeeded : ((r.updateJob id host).attempt 1).reply.success? =
        some (r.updateResult id host) := by
      simp [updateJob, updateCall, fails, updateResult, Reply.success?, Reply.outcome,
        TaskResult.success, TaskResult.ofStatus, TaskResult.withMessage]
    have own : { r.updateResult id host with task := (r.updateJob id host).id } =
        r.updateResult id host := by
      simp [updateResult, fails, updateJob, TaskResult.success, TaskResult.withMessage,
        TaskResult.ofStatus]
    have first := Job.Submits.succeeds (n := 0) (fun i hi => absurd hi (Nat.not_lt_zero i))
      (Nat.zero_le _) succeeded
    exact yields 1 (own ▸ first)

/-- The polls of the polled host. -/
def course (r : Rollout) (id : TaskId) : PollCourse (r.submissionJob id).id where
  monitor := r.progressMonitor
  start := 0
  first := 1
  submitted := r.accepted id
  time _ := 50
  outcome j := .answered (r.pollAnswer (j + 1) id)
    (if j + 1 ≤ r.pendingPolls.toNat then none else
      some (((TaskResult.success id).withMessage "update applied").withPayload
        (r.pollAnswer (j + 1) id).payload))

omit valid untimed retries in
theorem course_attempt (id : TaskId) (j : Nat) : (r.course id).attempt j =
    .started ⟨some 50, .answer (.ok (r.pollAnswer (j + 1) id))⟩ := by
  rw [Nat.add_comm]
  rfl

omit valid untimed retries in
theorem course_follows (id : TaskId) (n : Nat) : (r.course id).Follows n := by
  intro j _
  have interpreted : r.progressMonitor.interpret id (r.pollAnswer (j + 1) id) =
      .ok (if j + 1 ≤ r.pendingPolls.toNat then none else
        some (((TaskResult.success id).withMessage "update applied").withPayload
          (r.pollAnswer (j + 1) id).payload)) := by
    by_cases running : j + 1 ≤ r.pendingPolls.toNat
    · simp [progressMonitor, pollAnswer, running, TaskResult.withPayload, Json.member,
        Json.member?]
    · simp [progressMonitor, pollAnswer, running, TaskResult.withPayload, Json.member,
        Json.member?, TaskResult.success, TaskResult.ofStatus]
  exact .answered (course_attempt id j) rfl rfl rfl interpreted

omit valid untimed retries in
theorem course_goesOn (id : TaskId) : (r.course id).GoesOn r.pendingPolls.toNat := by
  intro j hj result stops
  have early : j + 1 ≤ r.pendingPolls.toNat := hj
  have running : ((r.course id).outcome j).meaning = .inProgress (r.pollAnswer (j + 1) id) := by
    simp only [course, pollAnswer, if_pos early]
    simp [Worker.PollOutcome.meaning, TaskResult.success, TaskResult.ofStatus,
      TaskResult.withPayload]
  cases stops with
  | complete complete => cases running.symm.trans complete
  | exhausted failed => cases running.symm.trans failed

omit valid untimed retries in
theorem course_stops (id : TaskId) :
    (r.course id).Stops r.pendingPolls.toNat (r.polledResult id) := by
  have late : ¬ r.pendingPolls.toNat + 1 ≤ r.pendingPolls.toNat := by omega
  have done : ((r.course id).outcome r.pendingPolls.toNat).meaning =
      .complete (r.polledResult id) := by
    simp only [course, pollAnswer, if_neg late]
    simp [Worker.PollOutcome.meaning, TaskResult.success, TaskResult.ofStatus,
      TaskResult.withPayload, TaskResult.withMessage, polledResult, Option.filter]
  exact .complete done

/-- The polled update yields its result, once it is found to be through. -/
theorem submission_yields (interval : r.monitor.validate = .ok ())
    (polls : r.pendingPolls.toNat < UInt32.size - 1) (id : TaskId) :
    Launch.Yields ⟨r.submissionJob id, .poll r.progressMonitor⟩ (r.polledResult id)
      (r.pendingPolls.toNat + 1) := by
  have success : ((r.submissionJob id).attempt 1).reply.success? = some (r.accepted id) := rfl
  have submits := Job.Submits.succeeds (n := 0) (fun i hi => absurd hi (Nat.not_lt_zero i))
    (Nat.zero_le _) success
  have small : (r.course id).first + r.pendingPolls.toNat < UInt32.size := by
    simp only [course]
    omega
  exact Launch.yields_of_polls (c := r.course id) rfl (fun j _ => ⟨_, course_attempt id j⟩)
    (course_follows id _) small (fun n => by simp [submissionJob])
    (by simp [submissionJob, TaskPolicy.hasTimeout, untimed]) valid retries submits rfl interval rfl
    (course_goesOn id) (course_stops id)

/-- **Every call of a deployment yields its outcome**, and only the polled host is polled. -/
theorem allYield (interval : r.monitor.validate = .ok ())
    (polls : r.pendingPolls.toNat < UInt32.size - 1) (turn : Nat) (context : StepContext)
    (ids : IdStream .task) {b : Batch} {ids' : IdStream .task}
    (deployed : r.deployment turn context ids = (.ok b, ids')) :
    Launch.AllYield b.launches (r.outcomes ids) (r.pendingPolls.toNat + 1) := by
  have each (hosts : List String) (ids : IdStream .task) :
      Launch.AllYield ((ids.upcoming hosts.length).zipWith
        (fun id host => ⟨r.updateJob id host, .submit⟩) hosts)
        ((ids.upcoming hosts.length).zipWith r.updateResult hosts) 0 := by
    induction hosts generalizing ids with
    | nil => exact .nil
    | cons host hosts ih =>
      have first := update_yields valid untimed retries ids.next.1 host
      exact .cons (r.updateResult_task ..) first (ih ids.next.2)
  cases (r.deployment_launches turn context ids).symm.trans deployed
  have polled := Launch.AllYield.cons rfl
    (submission_yields valid untimed retries interval polls (ids.skip r.hosts.length).next.1) .nil
  have all := (each r.hosts ids).append polled
  rwa [Nat.add_zero, Nat.zero_add] at all

end Yields

/-- The tasks of a deployment are those that its outcomes are of. -/
theorem deployment_taskIds {turn : Nat} {context : StepContext} {ids ids' : IdStream .task}
    {b : Batch} (deployed : r.deployment turn context ids = (.ok b, ids')) :
    b.taskIds = ids.upcoming (r.hosts.length + 1) := by
  have each (hosts : List String) (ids : IdStream .task) :
      ((ids.upcoming hosts.length).zipWith (fun id host => Launch.mk (r.updateJob id host) .submit)
        hosts).map (·.job.id) = ids.upcoming hosts.length := by
    induction hosts generalizing ids with
    | nil => rfl
    | cons host hosts ih =>
      rw [List.length_cons, IdStream.upcoming, List.zipWith_cons_cons, List.map_cons, ih]
      rfl
  cases (r.deployment_launches turn context ids).symm.trans deployed
  rw [Batch.taskIds, List.map_append, each, IdStream.upcoming_succ]
  rfl

end Rollout

end Workflow
