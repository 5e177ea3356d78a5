import Workflow.Flow.Activation

/-!
# Workflow.Proofs.Step.Targets — a plain step leads only where it declares

A step is plain if its transition or its tasks are fixed by its body, and its handler reduces
results by severity.  Whatever results its tasks deliver, in whatever order they are heard, the edge
that comes of them has a target that the step declares, or none.  `Within` says for each thing that
an edge can come from, a transition, a handler, an answer, a listener, that its targets satisfy a
predicate; the predicate of interest is to be a step of the definition.
-/

namespace Workflow

/-! ### Declared targets -/

theorem mem_eraseReps_loop {α : Type} [BEq α] [LawfulBEq α] {b : α} {a : α} {as acc : List α} :
    b ∈ List.eraseRepsBy.loop (· == ·) a as acc ↔ b = a ∨ b ∈ as ∨ b ∈ acc := by
  induction as generalizing a acc with
  | nil => simp [List.eraseRepsBy.loop, or_comm]
  | cons a' as ih =>
    unfold List.eraseRepsBy.loop
    split
    · rename_i same
      obtain rfl : a = a' := by simpa using same
      rw [ih, List.mem_cons]
      grind
    · rw [ih, List.mem_cons, List.mem_cons]
      grind

theorem mem_eraseReps {α : Type} [BEq α] [LawfulBEq α] {b : α} {as : List α} :
    b ∈ as.eraseReps ↔ b ∈ as := by
  cases as with
  | nil => simp [List.eraseReps, List.eraseRepsBy]
  | cons a as =>
    simp only [List.eraseReps, List.eraseRepsBy]
    rw [mem_eraseReps_loop]
    simp

@[simp] theorem Status.mem_all (s : Status) : s ∈ Status.all := by
  cases s <;> decide

namespace Routes

variable {r : Routes}

theorem mem_targets {step : String} :
    step ∈ r.targets ↔ ∃ t ∈ r.transitions, t.target = some step := by
  unfold targets
  rw [mem_eraseReps, List.mem_mergeSort, List.mem_filterMap]

theorem mem_transitions {t : Transition} :
    t ∈ r.transitions ↔ (∃ status, r.mapping status = some t) ∨ r.fallback = some t := by
  simp [transitions]

theorem default_target {step : String} (h : r.default.target = some step) : step ∈ r.targets := by
  unfold default at h
  cases hf : r.fallback with
  | none =>
    rw [hf] at h
    cases h
  | some t =>
    rw [hf] at h
    exact mem_targets.2 ⟨t, mem_transitions.2 (.inr hf), h⟩

theorem mem_targets_onResult {success other step : String}
    (h : step ∈ (onResult success other).targets) : step = success ∨ step = other := by
  obtain ⟨t, ht, target⟩ := mem_targets.1 h
  have two : t = .runTo success ∨ t = (Transition.runTo other).withResult .failed := by
    rcases mem_transitions.1 ht with ⟨status, mapped⟩ | fallback
    · simp only [onResult, mapTo] at mapped
      grind
    · exact .inr (Option.some.inj fallback).symm
  rcases two with rfl | rfl
  · exact .inl (Option.some.inj target).symm
  · exact .inr (Option.some.inj target).symm

/-- Results lead to a declared target, or to none. -/
theorem reduce_target {results : List TaskResult} {t : Transition} {step : String}
    (h : r.reduce results = .ok t) (target : t.target = some step) : step ∈ r.targets := by
  unfold reduce at h
  split at h
  · cases h
    exact default_target target
  · rename_i worst _
    split at h
    · rename_i mapped hmapped
      cases h
      exact mem_targets.2 ⟨mapped, mem_transitions.2 (.inl ⟨_, hmapped⟩), target⟩
    · split at h
      · cases h
      · cases h
        exact default_target target

end Routes

/-! ### Edges within a set of steps -/

section Within

variable (P : String → Prop)

/-- The transition has no target, or one with the property. -/
def Transition.Within (t : Transition) : Prop := ∀ step, t.target = some step → P step

/-- The handler has no processor of its own, and its routes have targets with the property. -/
structure Handler.Within (h : Handler) : Prop where
  reduces : h.processor = none
  routes : ∀ step ∈ h.routes.targets, P step

/-- The answer has targets with the property, and so has what comes of tasks that it launches. -/
structure StepAnswer.Within (a : StepAnswer) : Prop where
  outcome : ∀ t, a.outcome = .ok t → t.Within P
  launch : ∀ l, a.launch = some l → l.handler.Within P

/-- The decision of a listener, now or later, has targets with the property. -/
structure Listener.Within (l : Listener) : Prop where
  handler : l.handler.Within P
  decision : ∀ t, l.decision = some (.ok t) → t.Within P

end Within

section Events

variable {P : String → Prop}

theorem Transition.within_of_none {t : Transition} (h : t.target = none) : t.Within P :=
  fun _ target => absurd (h.symm.trans target) (by simp)

theorem StepAnswer.within_error (e : FlowError) : (StepAnswer.plain (.error e)).Within P :=
  ⟨nofun, nofun⟩

theorem Handler.Within.fresh {h : Handler} (hw : h.Within P) : h.fresh.Within P :=
  ⟨hw.reduces, hw.routes⟩

/-- Whatever the results are. -/
theorem Handler.Within.decide {h : Handler} (hw : h.Within P) {results : List TaskResult}
    {t : Transition} (decided : h.decide results = .ok t) : t.Within P := by
  intro step target
  unfold Handler.decide at decided
  rw [hw.reduces] at decided
  exact hw.routes step (Routes.reduce_target decided target)

/-- A handler stays the same apart from its results, and what it answers stays within the targets
of its routes. -/
theorem Handler.Within.handle {h : Handler} (hw : h.Within P) (event : TaskEvent) :
    (h.handle event).2.Within P ∧ ∀ t, (h.handle event).1 = .ok t → t.Within P := by
  cases event with
  | created task =>
    refine ⟨hw, fun t ht => ?_⟩
    cases ht
    exact Transition.within_of_none rfl
  | submitted task =>
    refine ⟨hw, fun t ht => ?_⟩
    cases ht
    exact Transition.within_of_none rfl
  | result task r =>
    refine ⟨⟨hw.reduces, hw.routes⟩, fun t ht => ?_⟩
    cases ht
    exact Transition.within_of_none rfl
  | completed => exact ⟨hw, fun t ht => hw.decide ht⟩

theorem Listener.Within.hear {l : Listener} (hw : l.Within P) (event : TaskEvent) :
    (l.hear event).1.Within P := by
  unfold Listener.hear
  split
  · exact hw
  · obtain ⟨handler, answers⟩ := hw.handler.handle event
    unfold Handler.hear
    rcases hh : l.handler.handle event with ⟨answer, h⟩
    rw [hh] at handler answers
    cases answer with
    | error e => exact ⟨handler, nofun⟩
    | ok t =>
      refine ⟨handler, fun t' decided => ?_⟩
      simp only at decided
      split at decided
      · cases decided
        exact answers t rfl
      · cases decided

theorem Listener.within_ofHandler {h : Handler} (hw : h.Within P) :
    (Listener.ofHandler h).Within P :=
  ⟨hw, nofun⟩

/-- What is told of an activation is a decision of its listener, or an error. -/
theorem Activation.decision_within {a : Activation} (hw : a.listener.Within P) {t : Transition}
    (decides : a.decision? = some (.ok t)) : t.Within P := by
  unfold Activation.decision? at decides
  split at decides
  · cases decides
  · split at decides
    · cases decides
    · split at decides
      · rename_i decided
        rw [decides] at decided
        exact hw.decision t decided
      · split at decides <;> cases decides

end Events

/-! ### Plain steps -/

namespace Step

/-- The step has no work of its own, and its handler has no processor of its own. -/
def isPlain (s : Step) : Bool :=
  match s.body with
  | .custom _ => false
  | _ => s.handler.processor.isNone

variable {P : String → Prop} {s : Step}

theorem launching_within {handler : Handler} (hw : handler.Within P) (make : Factory Batch)
    (turn : Nat) (context : StepContext) (ids : IdStream .task) :
    ((StepBody.launching handler make turn context).answer ids).1.Within P := by
  simp only [StepBody.launching]
  split
  · refine ⟨fun t ht => ?_, fun l hl => ?_⟩
    · cases ht
      exact Transition.within_of_none rfl
    · cases hl
      exact hw.fresh
  · exact StepAnswer.within_error _

/-- **What a plain step answers leads where the step declares**, and so does the handler of tasks
that it launches. -/
theorem execute_within (plain : s.isPlain) (declared : ∀ step ∈ s.declaredTargets, P step)
    (turn : Nat) (record : Record) (ids : IdStream .task) :
    ((s.execute turn record).answer ids).1.Within P := by
  unfold isPlain at plain
  unfold declaredTargets at declared
  unfold execute
  have handler : s.handler.processor.isNone → (∀ step ∈ s.handler.routes.targets, P step) →
      s.handler.Within P := fun none routes => ⟨Option.isNone_iff_eq_none.1 none, routes⟩
  cases hbody : s.body with
  | fixed t =>
    rw [hbody] at declared
    refine ⟨fun t' ht => ?_, nofun⟩
    cases ht
    exact fun step target => declared step (by simp [target])
  | custom work =>
    rw [hbody] at plain
    cases plain
  | tasks make =>
    rw [hbody] at plain declared
    exact launching_within (handler plain declared) _ _ _ _
  | polled monitor make =>
    rw [hbody] at plain declared
    exact launching_within (handler plain declared) _ _ _ _
  | batch make =>
    rw [hbody] at plain declared
    exact launching_within (handler plain declared) _ _ _ _

end Step

end Workflow
