import Workflow.Flow.Definition

/-!
# Workflow.Proofs.Flow.Building — what a definition is built from

The steps of a built definition are those of its drafts, in order (`Definition.build_steps`), so
every check of a draft holds of them, and the first of them is where a flow starts unless one is
flagged (`Definition.build_firstStep`).  Conversely drafts that become steps with distinct names and
known targets do build a definition, unless several are flagged as the first one
(`Definition.build_of_known`).
-/

namespace Workflow

theorem BatchPolicy.validate_eq_ok {p : BatchPolicy} :
    p.validate = .ok () ↔ p.maxConcurrency ≠ some 0 := by
  unfold validate
  split <;> simp_all

/-- A draft with a name, a body and a limit that is not zero becomes a step. -/
theorem StepDraft.build_eq_ok {draft : StepDraft} {s : Step} :
    draft.build = .ok s ↔ draft.properties.id.isEmpty = false ∧
      draft.policy.maxConcurrency ≠ some 0 ∧ ∃ body, draft.body = some body ∧
        s = ⟨draft.properties, body, draft.completeHandler, draft.policy⟩ := by
  rw [← BatchPolicy.validate_eq_ok]
  unfold build
  simp only
  cases draft.properties.id.isEmpty with
  | true => simp
  | false =>
    cases draft.policy.validate with
    | error e => simp
    | ok _ =>
      cases draft.body with
      | none => simp
      | some body => simp [eq_comm]

namespace Definition

section Adding

variable {drafts : List StepDraft} {built all : Distinct}

theorem Distinct.eq_of_steps (h : built.steps = all.steps) : built = all := by
  cases built
  cases all
  cases h
  rfl

theorem add_eq_ok {draft : StepDraft} : built.add draft = .ok all ↔
    ∃ s, draft.build = .ok s ∧ all.steps = built.steps ++ [s] := by
  unfold Distinct.add
  cases draft.build with
  | error e => simp
  | ok s =>
    simp only
    split
    · -- the name is used, and distinct steps do not use it again
      rename_i known
      constructor
      · intro h
        cases h
      · rintro ⟨_, ⟨⟩, hall⟩
        have nodup := all.nodup
        rw [hall, stepIds, List.map_append] at nodup
        exact absurd rfl ((List.nodup_append.1 nodup).2.2 _ known _ (by simp))
    · constructor
      · rintro ⟨⟩
        exact ⟨s, rfl, rfl⟩
      · rintro ⟨_, ⟨⟩, hall⟩
        exact congrArg Except.ok (Distinct.eq_of_steps hall.symm)

/-- Drafts are added if they become steps with new names. -/
theorem foldlM_add_eq_ok : drafts.foldlM Distinct.add built = .ok all ↔
    ∃ steps, drafts.map StepDraft.build = steps.map .ok ∧ all.steps = built.steps ++ steps := by
  induction drafts generalizing built with
  | nil =>
    constructor
    · intro h
      cases h
      exact ⟨[], rfl, by simp⟩
    · rintro ⟨steps, each, hall⟩
      obtain rfl : steps = [] := by simpa using each.symm
      exact congrArg Except.ok (Distinct.eq_of_steps (by simpa using hall.symm))
  | cons draft drafts ih =>
    rw [List.foldlM_cons]
    constructor
    · intro h
      cases hadd : built.add draft with
      | error e =>
        rw [hadd] at h
        cases h
      | ok next =>
        rw [hadd] at h
        obtain ⟨s, hs, hnext⟩ := add_eq_ok.1 hadd
        obtain ⟨steps, each, hall⟩ := ih.1 h
        exact ⟨s :: steps, by simp [hs, each], by simp [hall, hnext]⟩
    · rintro ⟨steps, each, hall⟩
      cases steps with
      | nil => cases each
      | cons s steps =>
        obtain ⟨hs, hrest⟩ := List.cons.inj each
        have nodup := all.nodup
        rw [hall, List.append_cons, stepIds, List.map_append] at nodup
        -- the names of all steps differ, so those of the first ones do
        have hadd : built.add draft = .ok ⟨built.steps ++ [s], (List.nodup_append.1 nodup).1⟩ :=
          add_eq_ok.2 ⟨s, hs, rfl⟩
        rw [hadd]
        exact ih.2 ⟨steps, hrest, by simpa using hall⟩

end Adding

variable {flowType : String} {properties : FlowProperties} {drafts : List StepDraft}
  {steps : List Step}

/-- What a definition is made of. -/
theorem ofDistinct_eq_ok {built : Distinct} {d : Definition}
    (h : ofDistinct flowType properties built = .ok d) : d.properties = properties ∧
      d.steps = built.steps ∧ ∃ first rest hid, built.steps = first :: rest ∧
        chooseFirst first rest = .ok ⟨d.firstStep, hid⟩ := by
  unfold ofDistinct at h
  split at h
  · cases h
  · rename_i first rest _
    split at h
    · cases h
    · split at h
      · cases h
      · rename_i id hid chosen
        cases h
        exact ⟨rfl, rfl, first, rest, hid, rfl, chosen⟩

/-- What a definition that is built is made of. -/
theorem build_eq_ok {d : Definition} (h : build flowType properties drafts = .ok d) :
    ∃ built, drafts.foldlM Distinct.add ⟨[], List.nodup_nil⟩ = .ok built ∧
      ofDistinct flowType properties built = .ok d := by
  unfold build at h
  split at h
  · cases h
  · exact ⟨_, ‹_›, h⟩

/-- The steps of a definition are those of its drafts. -/
theorem build_steps {d : Definition} (h : build flowType properties drafts = .ok d) :
    drafts.map StepDraft.build = d.steps.map .ok := by
  obtain ⟨built, added, made⟩ := build_eq_ok h
  obtain ⟨steps, each, hsteps⟩ := foldlM_add_eq_ok.1 added
  rw [(ofDistinct_eq_ok made).2.1, hsteps]
  exact each

theorem build_properties {d : Definition} (h : build flowType properties drafts = .ok d) :
    d.properties = properties := by
  obtain ⟨built, -, made⟩ := build_eq_ok h
  exact (ofDistinct_eq_ok made).1

section Unflagged

variable {first : Step} {rest : List Step}
  (unflagged : ∀ s ∈ first :: rest, s.properties.firstStep = false)
include unflagged

/-- Unless one of them is flagged, the first of the steps is chosen. -/
theorem chooseFirst_of_unflagged : ∃ hid, chooseFirst first rest = .ok ⟨first.id, hid⟩ := by
  have none_ : flagged (first :: rest) = [] := by
    rw [flagged, List.filter_eq_nil_iff.2 fun s hs => by simp [unflagged s hs]]
    rfl
  unfold chooseFirst
  split
  · exact ⟨by simp, rfl⟩
  · simp_all
  · simp_all

theorem build_firstStep {d : Definition} (h : build flowType properties drafts = .ok d)
    (steps : d.steps = first :: rest) : d.firstStep = first.id := by
  obtain ⟨built, -, made⟩ := build_eq_ok h
  obtain ⟨-, same, first', rest', hid, made, chosen⟩ := ofDistinct_eq_ok made
  obtain ⟨rfl, rfl⟩ := List.cons.inj (steps.symm.trans (same.trans made))
  obtain ⟨_, first⟩ := chooseFirst_of_unflagged unflagged
  exact congrArg Subtype.val (Except.ok.inj (chosen.symm.trans first))

end Unflagged

/-- Drafts that become steps with distinct names and known targets, none of them flagged, build a
definition. -/
theorem build_of_known (each : drafts.map StepDraft.build = steps.map .ok) (some_ : steps ≠ [])
    (nodup : (stepIds steps).Nodup)
    (known : ∀ s ∈ steps, ∀ t ∈ s.targets, t ∈ stepIds steps)
    (unflagged : ∀ s ∈ steps, s.properties.firstStep = false) :
    ∃ d, build flowType properties drafts = .ok d ∧ d.steps = steps := by
  have added : drafts.foldlM Distinct.add ⟨[], List.nodup_nil⟩ = .ok ⟨steps, nodup⟩ :=
    foldlM_add_eq_ok.2 ⟨steps, each, rfl⟩
  have found : unknownTarget? steps = none := by
    refine List.findSome?_eq_none_iff.2 fun s hs => ?_
    simpa using known s hs
  obtain ⟨first, rest, rfl⟩ := List.exists_cons_of_ne_nil some_
  obtain ⟨_, chosen⟩ := chooseFirst_of_unflagged unflagged
  have built : ∃ d, ofDistinct flowType properties ⟨first :: rest, nodup⟩ = .ok d := by
    unfold ofDistinct
    simp only
    split
    · simp_all
    · rw [chosen]
      exact ⟨_, rfl⟩
  obtain ⟨d, hd⟩ := built
  exact ⟨d, by rw [build, added]; exact hd, (ofDistinct_eq_ok hd).2.1⟩

/-- Names are used once, so every step is found by its name. -/
theorem step?_of_mem {d : Definition} {s : Step} (hs : s ∈ d.steps) : d.step? s.id = some s := by
  have nodup := d.nodup
  unfold step?
  generalize d.steps = steps at hs nodup
  induction steps with
  | nil => cases hs
  | cons first rest ih =>
    obtain ⟨new, nodup⟩ := List.nodup_cons.1 nodup
    rcases List.mem_cons.1 hs with rfl | hs
    · simp
    · have other : first.id ≠ s.id := fun same => new (same ▸ List.mem_map_of_mem hs)
      simp [other, ih hs nodup]

end Definition

end Workflow
