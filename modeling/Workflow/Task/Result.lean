import Workflow.Id
import Workflow.Json.Reader
import Workflow.Task.Status

/-!
# Workflow.Task.Result — what a task or a poll answered

A result has a status, may have a message and a cause, and carries any JSON value.  In written form
an absent message, an absent cause and a null payload are left out.
-/

namespace Workflow

/-- Outcome of one task. -/
structure TaskResult where
  task : TaskId
  status : Status
  message : Option String
  cause : Option String
  payload : Json
deriving Inhabited, BEq

namespace Id

variable {kind : IdKind}

def toJson (id : Id kind) : Json := .object [("ulid", .string id.ulid)]

def ofJson? (j : Json) : Option (Id kind) :=
  match Json.members? ["ulid"] j with
  | some [ulid] => do
    match ofUlid (← ulid.required Json.text?) with
    | .ok id => some id
    | .error _ => none
  | _ => none

end Id

namespace Status

def toJson (s : Status) : Json := .string s.name

def ofJson? (j : Json) : Option Status := (Json.name? j).bind ofName?

end Status

namespace TaskResult

/-- A result without message, cause and payload. -/
def ofStatus (task : TaskId) (status : Status) : TaskResult := ⟨task, status, none, none, .null⟩

def success (task : TaskId) : TaskResult := ofStatus task .success

/-- Not ended yet. -/
def unknown (task : TaskId) : TaskResult := ofStatus task .unknown

def withMessage (r : TaskResult) (message : String) : TaskResult :=
  { r with message := some message }

def withCause (r : TaskResult) (cause : String) : TaskResult := { r with cause := some cause }

def withPayload (r : TaskResult) (payload : Json) : TaskResult := { r with payload := payload }

def failed (task : TaskId) (message : String) : TaskResult :=
  (ofStatus task .failed).withMessage message

def timeout (task : TaskId) (message : String) : TaskResult :=
  (ofStatus task .timeout).withMessage message

def canceled (task : TaskId) (message : String) : TaskResult :=
  (ofStatus task .canceled).withMessage message

def isError (r : TaskResult) : Bool := r.status.isError

def isComplete (r : TaskResult) : Bool := r.status.isComplete

def moreSevere (a b : TaskResult) : Bool := a.status.moreSevere b.status

def messageOrEmpty (r : TaskResult) : String := r.message.getD ""

/-- The message, or the name of the status where there is none. -/
def errorText (r : TaskResult) : String := r.message.getD r.status.name

/-- The results with `r` in the place of an earlier result of its task, else at the end. -/
def store (r : TaskResult) : List TaskResult → List TaskResult
  | [] => [r]
  | x :: rest => if x.task = r.task then r :: rest else x :: store r rest

def toJson (r : TaskResult) : Json :=
  .object ([("task_id", r.task.toJson), ("status", r.status.toJson)]
    ++ Json.optionalMember "message" .string r.message
    ++ Json.optionalMember "cause" .string r.cause
    ++ if r.payload.isNull then [] else [("payload", r.payload)])

def ofJson? (j : Json) : Option TaskResult :=
  match Json.members? ["task_id", "status", "message", "cause", "payload"] j with
  | some [task, status, message, cause, payload] => do
    some {
      task := ← task.required Id.ofJson?
      status := ← status.required Status.ofJson?
      message := ← message.orElse (Json.nullable? Json.text?) none
      cause := ← cause.orElse (Json.nullable? Json.text?) none
      payload := ← payload.orElse Json.any? .null }
  | _ => none

end TaskResult

end Workflow
