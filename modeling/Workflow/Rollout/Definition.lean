import Workflow.Flow.Definition
import Workflow.Rollout.Config

/-!
# Workflow.Rollout.Definition — the flow of a rollout

`deploy` updates all hosts as one batch; success leads over `verify` to `stop`, and everything else
to `handleError`.  Remote calls are simulated: each takes a fixed time and has an answer known
beforehand.
-/

namespace Workflow

namespace Rollout

/-- The call that updates one host takes a tenth of a second. -/
def updateCall (r : Rollout) (task : TaskId) (host : String) : Call :=
  let result := if r.failingHost = some host then .failed task (host ++ ": connection refused")
    else (TaskResult.success task).withMessage (host ++ ": updated")
  ⟨some 100, .answer (.ok result)⟩

/-- The update of every host that is not polled. -/
def updates (r : Rollout) : Task :=
  .group ⟨r.task, r.hosts, []⟩ fun id policy target =>
    .job ⟨id, policy, fun _ => r.updateCall id target.host⟩

/-- The update of the polled host is submitted at once. -/
def submission (r : Rollout) (id : TaskId) : Task :=
  let result := (TaskResult.success id).withMessage (r.polledHost ++ ": update submitted")
  .job ⟨id, r.task, fun _ => ⟨some 0, .answer (.ok result)⟩⟩

/-- The answer to the n-th poll. -/
def pollAnswer (r : Rollout) (n : Nat) (task : TaskId) : TaskResult :=
  let state := if n ≤ r.pendingPolls.toNat then "running" else "done"
  (TaskResult.success task).withPayload (.object [("state", .string state), ("poll", .ofNat n)])

/-- Polls take a twentieth of a second, and the update is through when one of them finds it done. -/
def progressMonitor (r : Rollout) : Monitor where
  key := []
  policy := r.monitor
  poll n task _ := .started ⟨some 50, .answer (.ok (r.pollAnswer n task))⟩
  interpret _ answer :=
    match answer.payload.member "state" with
    | .string "done" =>
      let through := (TaskResult.success answer.task).withMessage "update applied"
      .ok (some (through.withPayload answer.payload))
    | _ => .ok none

/-- The tasks of `deploy`. -/
def deployment (r : Rollout) : Factory Batch := fun _ _ ids =>
  let (batch, ids) := (Batch.empty r.batch).push r.updates .submit ids
  let (id, ids) := ids.next
  let (batch, ids) := batch.push (r.submission id) (.poll r.progressMonitor) ids
  (.ok batch, ids)

/-- Counts the hosts that were updated. -/
def verification : StepBody :=
  .custom fun _ context =>
    let updated := context.resultCount "deploy"
    .atOnce (.plain (.ok
      ((Transition.runTo "stop").withLog (toString updated ++ " host(s) updated") none)))

/-- The steps of a rollout. -/
def steps (r : Rollout) : List StepDraft := [
  ((StepDraft.named "start").weigh 0).runTo "deploy",
  ((((StepDraft.named "deploy").describe "update every host").weigh 5).withBody
    (.batch r.deployment)).onResult "verify" "handleError",
  (StepDraft.named "verify").withBody verification,
  (StepDraft.named "stop").park .completed .success (some "rollout finished"),
  (StepDraft.named "handleError").asErrorStep.park .completed .failed (some "rollout failed")]

/-- Why a rollout does not start. -/
inductive Refusal where
  | policy (error : PolicyError)
  | build (error : BuildError)
deriving DecidableEq, Inhabited, Repr

def Refusal.message : Refusal → String
  | policy error => (FlowError.ofPolicy error).message
  | build error => error.message

/-- The flow of a rollout; the polls must have an interval. -/
def definition (r : Rollout) : Except Refusal Definition :=
  match r.monitor.validate with
  | .error e => .error (.policy e)
  | .ok _ => (Definition.build "rollout" r.flow r.steps).mapError .build

end Rollout

end Workflow
