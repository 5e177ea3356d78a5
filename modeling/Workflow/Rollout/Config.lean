import Workflow.Flow.Properties
import Workflow.Json.Parser
import Workflow.Task.Policy

/-!
# Workflow.Rollout.Config — which hosts to update, and how

A rollout updates some hosts with one call each, of which one may be known to fail, and one more
host that is polled until its update is through.  Every setting has a value of its own if it is left
out.
-/

namespace Workflow

/-- Settings of a rollout. -/
structure Rollout where
  /-- Hosts that are updated with one call. -/
  hosts : List String
  /-- The host whose call always fails. -/
  failingHost : Option String
  /-- The host whose update is submitted and then polled. -/
  polledHost : String
  /-- How many polls find the update still running. -/
  pendingPolls : UInt32
  task : TaskPolicy
  monitor : PollPolicy
  batch : BatchPolicy
  flow : FlowProperties

namespace Rollout

instance : Inhabited Rollout where
  default := {
    hosts := ["host-a", "host-b"]
    failingHost := some "host-b"
    polledHost := "host-c"
    pendingPolls := 2
    task := { (default : TaskPolicy) with maxRetry := 1, retryDelayMs := 200 }
    monitor := ⟨300, 3⟩
    batch := .unbounded
    flow := default }

/-- Reads settings; the members of a policy that is given have the values of the policy itself. -/
def ofJson? (j : Json) : Option Rollout :=
  let base : Rollout := default
  match Json.members? ["hosts", "failing_host", "polled_host", "pending_polls", "task", "monitor",
      "batch", "flow"] j with
  | some [hosts, failingHost, polledHost, pendingPolls, task, monitor, batch, flow] => do
    some {
      hosts := ← hosts.orElse (Json.list? Json.text?) base.hosts
      failingHost := ← failingHost.orElse (Json.nullable? Json.text?) base.failingHost
      polledHost := ← polledHost.orElse Json.text? base.polledHost
      pendingPolls := ← pendingPolls.orElse Json.word32? base.pendingPolls
      task := ← task.orElse TaskPolicy.ofJson? base.task
      monitor := ← monitor.orElse PollPolicy.ofJson? base.monitor
      batch := ← batch.orElse BatchPolicy.ofJson? base.batch
      flow := ← flow.orElse FlowProperties.ofJson? base.flow }
  | _ => none

/-- Reads the text of settings. -/
def ofText? (text : String) : Option Rollout := (Json.parse text).bind ofJson?

end Rollout

end Workflow
