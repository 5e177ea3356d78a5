import Workflow.Json.Reader
import Workflow.Text.Shown

/-!
# Workflow.Step.Properties — the declarative settings of a step

Every member may be left out of the written form; an empty description and absent targets are.
-/

namespace Workflow

/-- Settings of one step. -/
structure StepProperties where
  id : String
  desc : String
  /-- Share of the flow's progress that the step stands for. -/
  weight : UInt32
  /-- Whether the step's log lines are kept. -/
  logging : Bool
  /-- Start the flow here instead of at the first declared step. -/
  firstStep : Bool
  /-- An error step does not count as progress. -/
  isErrorStep : Bool
  onSuccess : Option String
  onElse : Option String
  /-- Where errors of the step lead. -/
  onException : Option String
deriving DecidableEq, Repr

namespace StepProperties

def named (id : String) : StepProperties :=
  ⟨id, "", 1, true, false, false, none, none, none⟩

instance : Inhabited StepProperties := ⟨named ""⟩

/-- The steps that the settings name. -/
def targets (p : StepProperties) : List String :=
  p.onSuccess.toList ++ p.onElse.toList ++ p.onException.toList

def toJson (p : StepProperties) : Json :=
  .object ([("id", .string p.id)]
    ++ (if p.desc.isEmpty then [] else [("desc", .string p.desc)])
    ++ [("weight", .ofNat p.weight.toNat), ("logging", .bool p.logging),
      ("first_step", .bool p.firstStep), ("is_error_step", .bool p.isErrorStep)]
    ++ Json.optionalMember "on_success" .string p.onSuccess
    ++ Json.optionalMember "on_else" .string p.onElse
    ++ Json.optionalMember "on_exception" .string p.onException)

def ofJson? (j : Json) : Option StepProperties :=
  match Json.members? ["id", "desc", "weight", "logging", "first_step", "is_error_step",
      "on_success", "on_else", "on_exception"] j with
  | some [id, desc, weight, logging, firstStep, isErrorStep, onSuccess, onElse, onException] => do
    some {
      id := ← id.orElse Json.text? ""
      desc := ← desc.orElse Json.text? ""
      weight := ← weight.orElse Json.word32? 1
      logging := ← logging.orElse Json.flag? true
      firstStep := ← firstStep.orElse Json.flag? false
      isErrorStep := ← isErrorStep.orElse Json.flag? false
      onSuccess := ← onSuccess.orElse (Json.nullable? Json.text?) none
      onElse := ← onElse.orElse (Json.nullable? Json.text?) none
      onException := ← onException.orElse (Json.nullable? Json.text?) none }
  | _ => none

/-- The settings on one line. -/
def shown (p : StepProperties) : String :=
  let target (t : Option String) := Text.shownOption (t.map Text.quoted)
  Text.shownRecord "StepProperties" [("id", Text.quoted p.id), ("desc", Text.quoted p.desc),
    ("weight", toString p.weight.toNat), ("logging", Text.shownBool p.logging),
    ("first_step", Text.shownBool p.firstStep), ("is_error_step", Text.shownBool p.isErrorStep),
    ("on_success", target p.onSuccess), ("on_else", target p.onElse),
    ("on_exception", target p.onException)]

end StepProperties

end Workflow
