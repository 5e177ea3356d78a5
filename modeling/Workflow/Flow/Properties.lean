import Workflow.Json.Reader
import Workflow.Text.Shown

/-!
# Workflow.Flow.Properties — settings of a whole flow
-/

namespace Workflow

/-- Settings of a flow. -/
structure FlowProperties where
  /-- An error that no step takes over ends the flow as failed; otherwise it pauses the flow. -/
  killNonRecoverable : Bool
  /-- Deadline in seconds from every start and every resume; 0 is none. -/
  timeoutSec : UInt64
  /-- For the order of flows among each other. -/
  priority : Int32
deriving DecidableEq, Repr

namespace FlowProperties

instance : Inhabited FlowProperties := ⟨⟨true, 0, 0⟩⟩

def toJson (p : FlowProperties) : Json :=
  .object [("kill_non_recoverable", .bool p.killNonRecoverable),
    ("timeout_sec", .ofNat p.timeoutSec.toNat), ("priority", .integer p.priority.toInt)]

def ofJson? (j : Json) : Option FlowProperties :=
  match Json.members? ["kill_non_recoverable", "timeout_sec", "priority"] j with
  | some [kill, timeout, priority] => do
    some {
      killNonRecoverable := ← kill.orElse Json.flag? true
      timeoutSec := ← timeout.orElse Json.word64? 0
      priority := ← priority.orElse Json.int32? 0 }
  | _ => none

def shown (p : FlowProperties) : String :=
  Text.shownRecord "FlowProperties" [("kill_non_recoverable", Text.shownBool p.killNonRecoverable),
    ("timeout_sec", toString p.timeoutSec.toNat), ("priority", toString p.priority.toInt)]

end FlowProperties

end Workflow
