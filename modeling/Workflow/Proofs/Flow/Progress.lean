import Workflow.Proofs.Flow.Building
import Workflow.Proofs.Flow.Durability
import Workflow.Proofs.Flow.FinalResult
import Workflow.Proofs.Flow.Standing
import Workflow.Proofs.Number.Rounding
import Mathlib.Data.List.Nodup

/-!
# Workflow.Proofs.Flow.Progress — progress is exact and never falls

Every section leaves the completed steps as they are or adds one that counts and is not among them
(`Record.Gains`), and a resume takes the completed steps that it had, as long as the store has the
record in memory.  So the completed steps of a run are there once each, and count (`Counts`); their
weight is that of the steps of the definition that are among them (`Counts.weight`), which is at
most the total weight, and all of it just if nothing with a weight is left (`progress_exact`).
-/

namespace Workflow

namespace Definition

/-! ### Weights -/

theorem weightOf_append (steps rest : List Step) :
    weightOf (steps ++ rest) = weightOf steps + weightOf rest := by
  induction steps with
  | nil => simp [weightOf]
  | cons s steps ih =>
    show s.weight + weightOf (steps ++ rest) = s.weight + weightOf steps + weightOf rest
    omega

theorem weightOf_perm {steps steps' : List Step} (h : steps.Perm steps') :
    weightOf steps = weightOf steps' := by
  induction h with
  | nil => rfl
  | cons s _ ih =>
    show s.weight + weightOf _ = s.weight + weightOf _
    rw [ih]
  | swap s s' rest =>
    show s'.weight + (s.weight + weightOf rest) = s.weight + (s'.weight + weightOf rest)
    omega
  | trans _ _ ih ih' => exact ih.trans ih'

theorem weightOf_eq_zero {steps : List Step} : weightOf steps = 0 ↔ ∀ s ∈ steps, s.weight = 0 := by
  induction steps with
  | nil => simp [weightOf]
  | cons s steps ih =>
    show s.weight + weightOf steps = 0 ↔ _
    rw [Nat.add_eq_zero_iff, ih, List.forall_mem_cons]

/-- The weights of the steps that count, added up. -/
def sumOfWeights (steps : List Step) : Nat :=
  ((steps.filter (!·.properties.isErrorStep)).map (·.properties.weight.toNat)).sum

theorem weightOf_eq_sum (steps : List Step) : weightOf steps = sumOfWeights steps := by
  induction steps with
  | nil => rfl
  | cons s steps ih =>
    show s.weight + weightOf steps = _
    rw [ih, Step.weight, sumOfWeights, sumOfWeights, List.filter_cons]
    cases s.properties.isErrorStep <;> simp

/-- A completed weight does not fall when more is completed. -/
theorem completedWeight_mono {d : Definition} {completed completed' : List String}
    (h : completed <+: completed') :
    d.completedWeight completed ≤ d.completedWeight completed' := by
  obtain ⟨more, rfl⟩ := h
  unfold completedWeight
  rw [List.filterMap_append, weightOf_append]
  omega

/-! ### What is completed -/

/-- Every completed step is there once, and it is a step of the definition that counts. -/
structure Counts (d : Definition) (completed : List String) : Prop where
  nodup : completed.Nodup
  counts : ∀ id ∈ completed, ∃ s ∈ d.steps, s.id = id ∧ s.properties.isErrorStep = false

section Counts

variable {d : Definition} {completed : List String} (h : d.Counts completed)
include h

theorem Counts.perm :
    (completed.filterMap d.step?).Perm (d.steps.filter (·.id ∈ completed)) := by
  have once : ∀ id id' s, s ∈ d.step? id → s ∈ d.step? id' → id = id' := by
    intro id id' s found found'
    have own : s.id = id := by simpa using List.find?_some found
    have own' : s.id = id' := by simpa using List.find?_some found'
    exact own.symm.trans own'
  have steps : d.steps.Nodup := .of_map Step.id d.nodup
  refine (List.perm_ext_iff_of_nodup (h.nodup.filterMap once) (steps.filter _)).2 fun s => ?_
  rw [List.mem_filterMap, List.mem_filter, decide_eq_true_iff]
  constructor
  · rintro ⟨id, mem, found⟩
    have own : s.id = id := by simpa using List.find?_some found
    exact ⟨mem_of_step? found, own ▸ mem⟩
  · rintro ⟨step, mem⟩
    exact ⟨s.id, mem, step?_of_mem step⟩

/-- The completed weight is that of the steps that are completed. -/
theorem Counts.weight :
    d.completedWeight completed = weightOf (d.steps.filter (·.id ∈ completed)) :=
  weightOf_perm h.perm

/-- What is completed and what is left weigh as much as everything. -/
theorem Counts.weight_add : d.completedWeight completed +
    weightOf (d.steps.filter fun s => !decide (s.id ∈ completed)) = d.totalWeight := by
  rw [h.weight, ← weightOf_append]
  exact weightOf_perm (List.filter_append_perm (fun s : Step => decide (s.id ∈ completed)) d.steps)

theorem Counts.weight_le : d.completedWeight completed ≤ d.totalWeight := by
  have := h.weight_add
  omega

/-- Everything is completed just if no step with a weight is left. -/
theorem Counts.weight_eq_iff : d.completedWeight completed = d.totalWeight ↔
    ∀ s ∈ d.steps, s.properties.isErrorStep = false → 0 < s.properties.weight.toNat →
      s.id ∈ completed := by
  -- all is done if what is left has no weight
  have nothing : d.completedWeight completed = d.totalWeight ↔
      weightOf (d.steps.filter fun s => !decide (s.id ∈ completed)) = 0 := by
    have := h.weight_add
    omega
  rw [nothing, weightOf_eq_zero]
  simp only [List.mem_filter, Bool.not_eq_true', decide_eq_false_iff_not, Step.weight]
  constructor
  · intro light s mem counts weighs
    by_contra left
    have := light s ⟨mem, left⟩
    simp [counts] at this
    omega
  · rintro all s ⟨mem, left⟩
    by_contra weighs
    refine left (all s mem ?_ ?_)
    · by_contra error
      simp [error] at weighs
    · split at weighs <;> omega

end Counts

/-- The progress is the share of the completed weight in the total one, as it is. -/
theorem progress_eq {d : Definition} {r : Record} (h : d.Counts r.completedSteps)
    (weighs : d.totalWeight ≠ 0) : d.progress r =
      (Double.ofNat (d.completedWeight r.completedSteps)).div (.ofNat d.totalWeight) := by
  have le := h.weight_le
  unfold progress
  rw [if_neg weighs]
  split
  · have all : d.completedWeight r.completedSteps = d.totalWeight := by omega
    rw [all, Double.share_self (Nat.pos_of_ne_zero weighs)]
  · rfl

/-- The progress does not fall when more is completed. -/
theorem progress_mono {d : Definition} {r r' : Record} (h : d.Counts r.completedSteps)
    (h' : d.Counts r'.completedSteps) (more : r.completedSteps <+: r'.completedSteps) :
    (d.progress r).AtMost (d.progress r') := by
  by_cases weighs : d.totalWeight = 0
  · have same : d.progress r = d.progress r' := by
      rw [progress, if_pos weighs, progress, if_pos weighs]
    rw [same]
    exact .refl _
  · rw [progress_eq h weighs, progress_eq h' weighs]
    exact Double.share_mono (Nat.pos_of_ne_zero weighs) (completedWeight_mono more)

end Definition

/-! ### Completing steps -/

namespace Record

/-- Nothing more is completed, or one step is that counts and was not completed. -/
def Gains (d : Definition) (r r' : Record) : Prop :=
  r'.completedSteps = r.completedSteps ∨ ∃ s ∈ d.steps, s.properties.isErrorStep = false ∧
    s.id ∉ r.completedSteps ∧ r'.completedSteps = r.completedSteps ++ [s.id]

namespace Gains

variable {d : Definition} {r r' : Record} (h : r.Gains d r')
include h

theorem isPrefix : r.completedSteps <+: r'.completedSteps := by
  rcases h with same | ⟨s, -, -, -, more⟩
  · exact same ▸ List.prefix_refl _
  · exact more ▸ List.prefix_append ..

theorem counts (before : d.Counts r.completedSteps) : d.Counts r'.completedSteps := by
  rcases h with same | ⟨s, mem, error, new, more⟩
  · exact same ▸ before
  · rw [more]
    refine ⟨List.nodup_append.2 ⟨before.nodup, List.nodup_singleton _, ?_⟩, fun id hid => ?_⟩
    · rintro id hid _ (last : _ ∈ [s.id]) rfl
      exact new (List.mem_singleton.1 last ▸ hid)
    · rcases List.mem_append.1 hid with hid | last
      · exact before.counts id hid
      · exact ⟨s, mem, (List.mem_singleton.1 last).symm, error⟩

end Gains

end Record

namespace Driver

section Gains

variable (d : Driver) (now : Instant) (step : String)

/-- An error completes nothing. -/
theorem routeError_completed (e : FlowError) :
    (d.routeError now step e).record.completedSteps = d.record.completedSteps :=
  congrArg Standing.completed (routeError_standing d now step e)

/-- The step that an edge completes is one that counts. -/
theorem takeEdge_gains (t : Transition) :
    d.record.Gains d.definition (d.takeEdge now step t).record := by
  unfold Record.Gains
  rw [takeEdge_completed]
  split
  · exact .inl rfl
  · rename_i gains
    rw [not_or, Bool.not_eq_false] at gains
    obtain ⟨counts, new⟩ := gains
    unfold completes at counts
    split at counts
    · rename_i s found
      have own : s.id = step := by simpa using List.find?_some found
      exact .inr ⟨s, Definition.mem_of_step? found, by simpa using counts, own ▸ new, by rw [own]⟩
    · exact absurd counts Bool.false_ne_true

theorem applyDecision_gains (decision : Decision) :
    d.record.Gains d.definition (d.applyDecision now step decision).record := by
  cases decision with
  | error e => exact .inl (routeError_completed d now step e)
  | ok t =>
    unfold applyDecision applyEdge
    dsimp only
    split
    · exact .inl (routeError_completed d now step _)
    · exact takeEdge_gains d now step t

end Gains

/-- What any section saves: the completed steps are those in memory, or one more; a resume has
those that are stored. -/
theorem Revision.gains {x : Driver × Services} {e : Event} {r : Record} (h : Revision x e r)
    (stored : x.2.store.find? x.1.flow = some x.1.record) : x.1.record.Gains x.1.definition r := by
  have kept {r' : Record} (same : r'.standing = x.1.record.standing) :
      r'.completedSteps = x.1.record.completedSteps := congrArg Standing.completed same
  cases h with
  | starts => exact .inl rfl
  | resumes _ _ found =>
    obtain rfl := Option.some.inj (found.symm.trans stored)
    exact .inl rfl
  | pauses => exact .inl rfl
  | moves => exact .inl rfl
  | decides _ _ _ definition record =>
    rw [← record, ← definition]
    exact applyDecision_gains ..
  | waits => exact .inl (kept (logStep_keptBut ..).standing)
  | launches =>
    exact .inl (kept ((launch_keptBut ..).standing.trans (logStep_keptBut ..).standing))
  | updates => exact .inl (kept (applyUpdate_keptBut ..).standing)
  | expires => exact .inl rfl

/-! ### Runs -/

variable {x : Driver × Services} {flow : FlowId} {type : String}

/-- One event completes at most one more step. -/
theorem happen_gains (h : Mirrored flow type (view x)) {e : Event}
    (saved : ¬ FailsToSave x e) : x.1.record.Gains x.1.definition (happen x e).1.record := by
  rcases e.own_or_outside with own | ⟨change, rfl⟩
  · have drives : x.1.flow = flow := h.coherent.drives
    have stored : x.2.store.find? x.1.flow = some x.1.record := drives ▸ h.stored
    rcases (happen_revises h.coherent.known own).taken own saved with same | ⟨r, hr, -, heq⟩
    · exact .inl (congrArg (·.record.completedSteps) same)
    · have new : (happen x e).1.record = r := congrArg (·.record) heq
      exact new ▸ hr.gains stored
  · exact .inl rfl

/-- A run completes more and more, and what it completes counts. -/
theorem run_gains (h : Mirrored flow type (view x)) {es : List Event}
    (spares : ∀ e ∈ es, e.SparesRecord flow) (saved : AllSaved x es)
    (counts : x.1.definition.Counts x.1.record.completedSteps) :
    x.1.record.completedSteps <+: (run x es).1.record.completedSteps ∧
      x.1.definition.Counts (run x es).1.record.completedSteps := by
  induction es generalizing x with
  | nil => exact ⟨List.prefix_refl _, counts⟩
  | cons e es ih =>
    have gains := happen_gains h saved.1
    have definition := happen_definition x e
    have counts' : (happen x e).1.definition.Counts (happen x e).1.record.completedSteps :=
      definition ▸ gains.counts counts
    obtain ⟨grows, counted⟩ := ih (h.happen (spares e List.mem_cons_self) saved.1)
      (fun e' he' => spares e' (List.mem_cons_of_mem _ he')) saved.2 counts'
    exact ⟨gains.isPrefix.trans grows, definition ▸ counted⟩

/-! ### Progress -/

/-- **Progress is exact and never falls.**  A flow was created, and anything has happened to its
driver, while nobody else changed its stored record and no save failed.  Then

* no step is among the completed ones twice, and each is a step of the definition that counts;
* the completed weight is at most the total one, and all of it just if every step that counts and
  has a weight is completed; both are sums of weights, added up exactly;
* so the share that is the progress, where there is a weight at all, lies between 0 and 1 as it is;
* whatever happens next, resumes included, nothing that is completed is lost, and neither the
  completed weight nor the progress falls. -/
theorem progress_exact {w w' : World} {definition : Definition} {source : Nat} {d : Driver}
    (created : w.create definition source = (.ok d, w')) (es : List Event)
    (spares : ∀ e ∈ es, e.SparesRecord d.flow) (saved : AllSaved (d, w'.services) es)
    (x : Driver × Services) (hx : run (d, w'.services) es = x) :
    definition.Counts x.1.record.completedSteps ∧
    definition.completedWeight x.1.record.completedSteps ≤ definition.totalWeight ∧
    (definition.completedWeight x.1.record.completedSteps = definition.totalWeight ↔
      ∀ s ∈ definition.steps, s.properties.isErrorStep = false →
        0 < s.properties.weight.toNat → s.id ∈ x.1.record.completedSteps) ∧
    definition.completedWeight x.1.record.completedSteps =
      Definition.sumOfWeights (definition.steps.filter (·.id ∈ x.1.record.completedSteps)) ∧
    definition.totalWeight = Definition.sumOfWeights definition.steps ∧
    (definition.totalWeight ≠ 0 →
      x.1.progress = (Double.ofNat (definition.completedWeight x.1.record.completedSteps)).div
        (.ofNat definition.totalWeight) ∧
      x.1.progress.isNegative = false ∧ x.1.progress.AtMost .one) ∧
    ∀ fs, (∀ e ∈ fs, e.SparesRecord d.flow) → AllSaved x fs →
      x.1.record.completedSteps <+: (run x fs).1.record.completedSteps ∧
      definition.completedWeight x.1.record.completedSteps ≤
        definition.completedWeight (run x fs).1.record.completedSteps ∧
      x.1.progress.AtMost (run x fs).1.progress := by
  subst hx
  obtain ⟨flow, hd⟩ := World.create_driver created
  have drives : d.definition = definition := by rw [hd, ofRecord]
  have counts₀ : d.definition.Counts d.record.completedSteps := by
    have none_ : d.record.completedSteps = [] := by
      rw [hd]
      rfl
    rw [none_]
    exact ⟨List.nodup_nil, nofun⟩
  have mirrored : Mirrored d.flow definition.flowType (view (d, w'.services)) :=
    create_mirrored created
  have same : (run (d, w'.services) es).1.definition = definition :=
    (run_definition (d, w'.services) es).trans drives
  have counts : definition.Counts (run (d, w'.services) es).1.record.completedSteps :=
    drives ▸ (run_gains mirrored spares saved counts₀).2
  generalize hx : run (d, w'.services) es = x at *
  have later : Mirrored d.flow definition.flowType (view x) := hx ▸ mirrored.run spares saved
  refine ⟨counts, counts.weight_le, counts.weight_eq_iff,
    counts.weight.trans (Definition.weightOf_eq_sum _), Definition.weightOf_eq_sum _,
    fun weighs => ?share, fun fs spares' saved' => ?later⟩
  case share =>
    have some_ : 0 < definition.totalWeight := Nat.pos_of_ne_zero weighs
    rw [progress, same, Definition.progress_eq counts weighs]
    exact ⟨rfl, Double.isNegative_share some_ _, Double.share_le_one some_ counts.weight_le⟩
  case later =>
    obtain ⟨grows, counts'⟩ := run_gains later spares' saved' (same ▸ counts)
    refine ⟨grows, Definition.completedWeight_mono grows, ?_⟩
    rw [progress, progress, run_definition, same]
    exact Definition.progress_mono counts (same ▸ counts') grows

/-- A flow that leads through two steps of different weights to one without any; a step for errors
does not count. -/
def weighed : Definition where
  flowType := "weighed"
  properties := default
  steps := [⟨.named "start", .fixed (.runTo "work"), .empty, default⟩,
    ⟨{ StepProperties.named "work" with weight := 3 }, .fixed (.runTo "stop"), .empty, default⟩,
    ⟨{ StepProperties.named "stop" with weight := 0 }, .fixed (.park .completed .success none),
      .empty, default⟩,
    ⟨{ StepProperties.named "handleError" with weight := 5, isErrorStep := true },
      .fixed (.park .paused .failed none), .empty, default⟩]
  firstStep := "start"
  nodup := by decide
  firstStep_mem := by decide
  targets_mem := by decide

/-- The flow is paused after its first step, a quarter of the weight, and then resumed: once its
second step is completed, nothing with a weight is left. -/
theorem progress_exact_weighed : ∃ d w' x,
    World.empty.create weighed 0 = (.ok d, w') ∧
    run (d, w'.services) [.move 0 .start, .move 0 (.proceed 0), .move 0 (.proceed 0),
      .move 0 .pause] = x ∧
    x.1.record.completedSteps = ["start"] ∧
    x.1.progress = (Double.ofNat 1).div (.ofNat 4) ∧ x.1.progress.AtMost .one ∧
    ["start"] <+: (run x [.move 0 .resume, .move 0 (.proceed 2),
      .move 0 (.proceed 2)]).1.record.completedSteps ∧
    weighed.completedWeight (run x [.move 0 .resume, .move 0 (.proceed 2),
      .move 0 (.proceed 2)]).1.record.completedSteps = weighed.totalWeight := by
  have created : World.empty.create weighed 0 = (.ok _, _) := rfl
  have works {x : Driver × Services} {e : Event} (h : x.2.saving.call.1 = false) :
      ¬ FailsToSave x e := not_failsToSave h
  obtain ⟨-, -, -, -, -, share, later⟩ := progress_exact created
    [.move 0 .start, .move 0 (.proceed 0), .move 0 (.proceed 0), .move 0 .pause]
    (by simp [Event.SparesRecord]) (.cons (works rfl) (.cons (works rfl) (.cons (works rfl)
      (.cons (works rfl) trivial)))) _ rfl
  obtain ⟨exact_, -, most⟩ := share (by decide)
  obtain ⟨grows, -⟩ := later [.move 0 .resume, .move 0 (.proceed 2), .move 0 (.proceed 2)]
    (by simp [Event.SparesRecord])
    (.cons (works rfl) (.cons (works rfl) (.cons (works rfl) trivial)))
  exact ⟨_, _, _, created, rfl, rfl, exact_, most, grows, rfl⟩

end Driver

end Workflow
