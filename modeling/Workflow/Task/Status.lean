/-!
# Workflow.Task.Status — how a task ended, from the mildest to the most severe

The order is `success < unknown < canceled < timeout < failed`.  `unknown` is a task that has not
ended, so it never outranks a real error.
-/

namespace Workflow

/-- Status of a task's result. -/
inductive Status where
  | success
  | unknown
  | canceled
  | timeout
  | failed
deriving DecidableEq, Inhabited, Repr

namespace Status

/-- Every status, mildest first. -/
def all : List Status := [success, unknown, canceled, timeout, failed]

/-- Place in the order of severity. -/
def severity : Status → Nat
  | success => 0
  | unknown => 1
  | canceled => 2
  | timeout => 3
  | failed => 4

/-- Everything but success counts as an error. -/
def isError (s : Status) : Bool := s ≠ success

/-- Whether the status is final. -/
def isComplete (s : Status) : Bool := s ≠ unknown

def moreSevere (a b : Status) : Bool := b.severity < a.severity

instance : Ord Status := ⟨fun a b => compare a.severity b.severity⟩

def name : Status → String
  | success => "Success"
  | unknown => "Unknown"
  | canceled => "Canceled"
  | timeout => "Timeout"
  | failed => "Failed"

def ofName? (s : String) : Option Status := all.find? (·.name == s)

end Status

end Workflow
