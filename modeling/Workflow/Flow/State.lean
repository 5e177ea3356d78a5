import Workflow.Json.Reader
import Workflow.Task.Status

/-!
# Workflow.Flow.State — life cycle and result of a flow

A flow is created, runs, may be paused and run again, and completes.
-/

namespace Workflow

/-- Where a flow is in its life. -/
inductive FlowState where
  | created
  | running
  | paused
  | completed
deriving DecidableEq, Inhabited, Repr

namespace FlowState

def all : List FlowState := [created, running, paused, completed]

def isComplete (s : FlowState) : Bool := s = completed

/-- Whether nothing moves until an operator acts. -/
def isSettled (s : FlowState) : Bool := s = paused || s = completed

def name : FlowState → String
  | created => "Created"
  | running => "Running"
  | paused => "Paused"
  | completed => "Completed"

def ofName? (s : String) : Option FlowState := all.find? (·.name == s)

def toJson (s : FlowState) : Json := .string s.name

def ofJson? (j : Json) : Option FlowState := (Json.name? j).bind ofName?

end FlowState

/-- The final result of a flow, or the best known so far. -/
inductive FlowResult where
  | unknown
  | success
  | failed
  | timeout
  | canceled
deriving DecidableEq, Inhabited, Repr

namespace FlowResult

def all : List FlowResult := [unknown, success, failed, timeout, canceled]

def name : FlowResult → String
  | unknown => "Unknown"
  | success => "Success"
  | failed => "Failed"
  | timeout => "Timeout"
  | canceled => "Canceled"

def ofName? (s : String) : Option FlowResult := all.find? (·.name == s)

/-- The result of a flow that ends with a task's status. -/
def ofStatus : Status → FlowResult
  | .success => success
  | .unknown => unknown
  | .canceled => canceled
  | .timeout => timeout
  | .failed => failed

def toJson (r : FlowResult) : Json := .string r.name

def ofJson? (j : Json) : Option FlowResult := (Json.name? j).bind ofName?

end FlowResult

end Workflow
