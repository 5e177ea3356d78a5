import Workflow.Flow.Properties
import Workflow.Step.Draft

/-!
# Workflow.Flow.Definition — the steps of one type of flow

A definition is built from drafts.  What the drafts must satisfy is kept in its type: no name is
used twice, every step that is known to be led to exists, and so does the first step.
-/

namespace Workflow

/-- The names of steps, in order. -/
abbrev stepIds (steps : List Step) : List String := steps.map Step.id

/-- The steps of a flow type. -/
structure Definition where
  flowType : String
  properties : FlowProperties
  /-- In order of declaration. -/
  steps : List Step
  /-- The step at which a flow starts. -/
  firstStep : String
  nodup : (stepIds steps).Nodup
  firstStep_mem : firstStep ∈ stepIds steps
  targets_mem : ∀ s ∈ steps, ∀ t ∈ s.targets, t ∈ stepIds steps

namespace Definition

/-! ## Building -/

/-- Steps with distinct names. -/
structure Distinct where
  steps : List Step
  nodup : (stepIds steps).Nodup

/-- Adds the step of a draft. -/
def Distinct.add (built : Distinct) (draft : StepDraft) : Except BuildError Distinct :=
  match draft.build with
  | .error e => .error e
  | .ok step =>
    if h : step.id ∈ stepIds built.steps then .error (.duplicateStep step.id)
    else .ok ⟨built.steps ++ [step], by
      simp only [stepIds, List.map_append, List.map_cons, List.map_nil]
      exact List.nodup_append.2 ⟨built.nodup, by simp, by
        intro a ha b hb hab
        simp only [List.mem_singleton] at hb
        exact h (hb ▸ hab ▸ ha)⟩⟩

/-- The first step that leads to one that does not exist, with the first such target. -/
def unknownTarget? (steps : List Step) : Option (String × String) :=
  steps.findSome? fun s => (s.targets.find? (· ∉ stepIds steps)).map (s.id, ·)

theorem targets_mem_of_unknownTarget? {steps : List Step} (h : unknownTarget? steps = none) :
    ∀ s ∈ steps, ∀ t ∈ s.targets, t ∈ stepIds steps := by
  intro s hs t ht
  have hfind := List.findSome?_eq_none_iff.1 h s hs
  simp only [Option.map_eq_none_iff, List.find?_eq_none] at hfind
  simpa using hfind t ht

/-- The names of the steps that are flagged as the first one. -/
def flagged (steps : List Step) : List String :=
  stepIds (steps.filter (·.properties.firstStep))

theorem mem_of_mem_flagged {steps : List Step} {id : String} (h : id ∈ flagged steps) :
    id ∈ stepIds steps := by
  obtain ⟨s, hs, rfl⟩ := List.mem_map.1 h
  exact List.mem_map_of_mem (List.mem_filter.1 hs).1

/-- The name of the flagged step, or of the first one if none is flagged; an error if several are.
-/
def chooseFirst (first : Step) (rest : List Step) :
    Except BuildError { id : String // id ∈ stepIds (first :: rest) } :=
  match h : flagged (first :: rest) with
  | [] => .ok ⟨first.id, by simp⟩
  | [id] => .ok ⟨id, mem_of_mem_flagged (by rw [h]; simp)⟩
  | ids => .error (.multipleFirstSteps ids)

/-- The definition of checked steps. -/
def ofDistinct (flowType : String) (properties : FlowProperties) (built : Distinct) :
    Except BuildError Definition :=
  match built with
  | ⟨[], _⟩ => .error (.noSteps flowType)
  | ⟨first :: rest, nodup⟩ =>
    match h : unknownTarget? (first :: rest) with
    | some (step, target) => .error (.unknownTarget step target)
    | none =>
      match chooseFirst first rest with
      | .error e => .error e
      | .ok ⟨id, hid⟩ =>
        .ok ⟨flowType, properties, first :: rest, id, nodup, hid, targets_mem_of_unknownTarget? h⟩

/-- The definition of drafts in order of declaration. -/
def build (flowType : String) (properties : FlowProperties) (drafts : List StepDraft) :
    Except BuildError Definition :=
  match drafts.foldlM Distinct.add ⟨[], List.nodup_nil⟩ with
  | .error e => .error e
  | .ok built => ofDistinct flowType properties built

/-! ## Look-ups and progress -/

/-- The step with a name. -/
def step? (d : Definition) (id : String) : Option Step := d.steps.find? (·.id = id)

def hasStep (d : Definition) (id : String) : Bool := (d.step? id).isSome

/-- The step with a name, or the error that there is none. -/
def step (d : Definition) (id : String) : Except FlowError Step :=
  match d.step? id with
  | some s => .ok s
  | none => .error (.stepNotFound id)

/-- The weight of steps, each counted as often as it is there. -/
def weightOf (steps : List Step) : Nat := steps.foldr (fun s total => s.weight + total) 0

/-- The weight of all steps that count as progress. -/
def totalWeight (d : Definition) : Nat := weightOf d.steps

/-- The weight of completed steps that count as progress; unknown steps have none. -/
def completedWeight (d : Definition) (completed : List String) : Nat :=
  weightOf (completed.filterMap d.step?)

/-- The share of the weight that is completed, between 0 and 1; nothing without weight. -/
def progress (d : Definition) (r : Record) : Double :=
  let total := d.totalWeight
  let completed := d.completedWeight r.completedSteps
  if total = 0 then .ofNat 0
  else if total ≤ completed then .one
  else (Double.ofNat completed).div (.ofNat total)

/-- The definition on one line. -/
def shown (d : Definition) : String :=
  Text.shownRecord "FlowDefinition" [("flow_type", Text.quoted d.flowType),
    ("properties", d.properties.shown),
    ("steps", Text.shownList ((stepIds d.steps).map Text.quoted)),
    ("first_step", Text.quoted d.firstStep)]

end Definition

end Workflow
