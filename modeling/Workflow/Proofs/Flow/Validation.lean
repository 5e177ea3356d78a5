import Workflow.Proofs.Flow.Building
import Workflow.Proofs.Step.Targets
import Mathlib.Data.List.Dedup
import Mathlib.Data.List.Forall2
import Mathlib.Data.List.Sort

/-!
# Workflow.Proofs.Flow.Validation — which drafts build a definition, and what is wrong with others

What drafts must satisfy is said of the drafts themselves (`Buildable`), and so is what is found
first if they do not (`FirstFault`): each draft is checked in its turn, alone and then against the
ones before it, then targets, then the flags.  Building succeeds just for the former and fails just
with the latter (`Definition.build_verdict`).  Where the results of a draft's tasks lead is said of
the handler that the draft has and of its settings (`StepDraft.leads?`), and the handler that the
step gets is one that leads there (`StepDraft.Becomes`).
-/

namespace Workflow

/-! ### Sorted targets -/

theorem eraseReps_loop {α : Type} [BEq α] (a : α) (as acc : List α) :
    List.eraseRepsBy.loop (· == ·) a as acc = acc.reverse ++ (a :: as).eraseReps := by
  simp only [List.eraseReps, List.eraseRepsBy]
  induction as generalizing a acc with
  | nil => simp [List.eraseRepsBy.loop]
  | cons b as ih =>
    unfold List.eraseRepsBy.loop
    split
    · exact ih a acc
    · rw [ih b (a :: acc), ih b [a]]
      simp

theorem eraseReps_cons_cons {α : Type} [BEq α] [LawfulBEq α] (a b : α) (as : List α) :
    (a :: b :: as).eraseReps =
      if a == b then (b :: as).eraseReps else a :: (b :: as).eraseReps := by
  have unfolded : (a :: b :: as).eraseReps = List.eraseRepsBy.loop (· == ·) a (b :: as) [] := rfl
  rw [unfolded, List.eraseRepsBy.loop]
  cases same : a == b with
  | true =>
    rw [eq_of_beq same]
    rfl
  | false =>
    rw [eraseReps_loop b as [a]]
    rfl

/-- Without repetitions a sorted list is strictly sorted. -/
theorem pairwise_eraseReps {α : Type} [BEq α] [LawfulBEq α] {r : α → α → Prop}
    (trans : ∀ {a b c}, r a b → r b c → r a c) {as : List α}
    (sorted : as.Pairwise fun a b => r a b ∨ a = b) : as.eraseReps.Pairwise r := by
  induction as with
  | nil => exact .nil
  | cons a as ih =>
    cases as with
    | nil => exact List.pairwise_singleton ..
    | cons b as =>
      obtain ⟨least, sorted⟩ := List.pairwise_cons.1 sorted
      rw [eraseReps_cons_cons]
      split
      · exact ih sorted
      · rename_i differ
        have first : r a b := (least b (by simp)).resolve_right fun same => differ (by simp [same])
        refine List.pairwise_cons.2 ⟨fun c hc => ?_, ih sorted⟩
        rcases List.mem_cons.1 (mem_eraseReps.1 hc) with rfl | later
        · exact first
        · rcases (List.pairwise_cons.1 sorted).1 c later with below | rfl
          · exact trans first below
          · exact first

/-- The targets of routes are sorted, and none is named twice. -/
theorem Routes.targets_sorted (r : Routes) : r.targets.Pairwise (· < ·) := by
  have le_iff (a b : String) : (!decide (b < a)) = true ↔ a ≤ b := by
    simp only [Bool.not_eq_true', decide_eq_false_iff_not, String.not_lt]
  have sorted : (List.mergeSort (r.transitions.filterMap Transition.target)
      fun a b => !(b < a)).Pairwise fun a b => (!decide (b < a)) = true := by
    refine List.pairwise_mergeSort (fun a b c le le' => ?_) (fun a b => ?_) _
    · rw [le_iff] at le le' ⊢
      exact String.le_trans le le'
    · rw [Bool.or_eq_true, le_iff, le_iff]
      exact String.le_total a b
  refine pairwise_eraseReps (r := (· < ·)) String.lt_trans (sorted.imp fun {a b} le => ?_)
  have le : a ≤ b := (le_iff a b).1 le
  by_cases below : a < b
  · exact .inl below
  · exact .inr (String.le_antisymm le (String.not_lt.1 below))

/-- Names in order, once each. -/
def inOrder (names : List String) : List String := names.dedup.insertionSort (· ≤ ·)

@[simp] theorem mem_inOrder {names : List String} {name : String} :
    name ∈ inOrder names ↔ name ∈ names := by
  rw [inOrder, (List.perm_insertionSort _ _).mem_iff, List.mem_dedup]

/-- What is in order is sorted, and nothing is named twice. -/
theorem inOrder_pairwise (names : List String) : (inOrder names).Pairwise (· < ·) := by
  have total : Std.Total (α := String) (· ≤ ·) := ⟨String.le_total⟩
  have trans : IsTrans String (· ≤ ·) := ⟨fun _ _ _ => String.le_trans⟩
  have nodup : (inOrder names).Nodup :=
    (List.perm_insertionSort _ _).nodup_iff.2 (List.nodup_dedup names)
  refine (List.pairwise_insertionSort _ _).imp₂ (fun a b le differ => ?_) nodup
  exact String.not_le.1 fun ge => differ (String.le_antisymm le ge)

/-- Names that are strictly sorted are in order. -/
theorem eq_inOrder {sorted names : List String} (strict : sorted.Pairwise (· < ·))
    (same : ∀ name, name ∈ sorted ↔ name ∈ names) : sorted = inOrder names := by
  have nodup {l : List String} (strict : l.Pairwise (· < ·)) : l.Nodup :=
    strict.imp fun below => String.ne_of_lt below
  have perm : sorted.Perm (inOrder names) :=
    (List.perm_ext_iff_of_nodup (nodup strict) (nodup (inOrder_pairwise names))).2 fun name => by
      rw [same, mem_inOrder]
  -- Of two different names only one can be below the other.
  exact perm.eq_of_pairwise (fun _ _ _ _ below above => absurd above (String.lt_asymm below))
    strict (inOrder_pairwise names)

/-! ### What drafts must satisfy -/

namespace StepDraft

abbrev id (d : StepDraft) : String := d.properties.id

/-- Where a status leads: as the handler of the draft says, and where that says nothing, as the
settings say, success to one step, and everything else to another with a failed flow. -/
def leads? (d : StepDraft) (status : Status) : Option Transition :=
  match d.handler.bind (·.routes.mapping status) with
  | some t => some t
  | none =>
    if status = .success then
      d.properties.onSuccess.map fun step => ⟨some step, none, none, [], true⟩
    else d.properties.onElse.map fun step => ⟨some step, none, some .failed, [], true⟩

/-- Where everything else leads, if the handler says so. -/
def default? (d : StepDraft) : Option Transition := d.handler.bind (·.routes.fallback)

/-- The steps that results of launched tasks may lead to. -/
def led (d : StepDraft) : List String :=
  inOrder ((Status.all.filterMap d.leads? ++ d.default?.toList).filterMap (·.target))

/-- The steps that the body leads to: the target of a fixed transition, or those that results of
launched tasks may lead to. -/
def declaredTargets (d : StepDraft) : List String :=
  match d.body with
  | none => []
  | some (.fixed t) => t.target.toList
  | some (.custom _) => []
  | some _ => d.led

/-- Every step that a draft names, those of its settings first. -/
def targets (d : StepDraft) : List String :=
  d.properties.onSuccess.toList ++ d.properties.onElse.toList ++ d.properties.onException.toList
    ++ d.declaredTargets

/-- Nothing is wrong with the draft itself. -/
structure Complete (d : StepDraft) : Prop where
  named : d.id ≠ ""
  permits : d.policy.maxConcurrency ≠ some 0
  works : d.body ≠ none

/-- What is found wrong with the draft itself. -/
inductive Faulty (d : StepDraft) : BuildError → Prop
  | nameless (id : d.id = "") : Faulty d .emptyStepId
  | permitless (named : d.id ≠ "") (none_ : d.policy.maxConcurrency = some 0) :
    Faulty d (.invalidPolicy d.id .zeroConcurrency)
  | bodiless (named : d.id ≠ "") (permits : d.policy.maxConcurrency ≠ some 0)
    (none_ : d.body = none) : Faulty d (.missingExecution d.id)

/-- The step is that of the draft: its handler leads where the draft does, and it is that of the
draft otherwise. -/
structure Becomes (d : StepDraft) (s : Step) : Prop where
  properties : s.properties = d.properties
  body : d.body = some s.body
  mapping : ∀ status, s.handler.routes.mapping status = d.leads? status
  fallback : s.handler.routes.fallback = d.default?
  processor : s.handler.processor = d.handler.bind (·.processor)
  results : s.handler.results = (d.handler.map (·.results)).getD []
  policy : s.policy = d.policy

variable {d : StepDraft} {s : Step}

theorem Becomes.id (h : d.Becomes s) : s.id = d.id := congrArg StepProperties.id h.properties

theorem Becomes.routes_targets (h : d.Becomes s) : s.handler.routes.targets = d.led := by
  have mapping : s.handler.routes.mapping = d.leads? := funext h.mapping
  refine eq_inOrder (Routes.targets_sorted _) fun name => ?_
  rw [Routes.mem_targets, Routes.transitions, mapping, h.fallback, List.mem_filterMap]

theorem Becomes.targets (h : d.Becomes s) : s.targets = d.targets := by
  have routes := h.routes_targets
  obtain ⟨properties, body, -⟩ := h
  simp only [Step.targets, StepDraft.targets, Step.declaredTargets, StepDraft.declaredTargets, body,
    routes, properties, StepProperties.targets]
  cases s.body <;> rfl

/-- A draft becomes one step only. -/
theorem Becomes.unique (h : d.Becomes s) {s' : Step} (h' : d.Becomes s') : s = s' := by
  obtain ⟨properties, body, ⟨⟨mapping, fallback⟩, processor, results⟩, policy⟩ := s
  obtain ⟨properties', body', ⟨⟨mapping', fallback'⟩, processor', results'⟩, policy'⟩ := s'
  obtain rfl : properties = properties' := h.properties.trans h'.properties.symm
  obtain rfl : body = body' := Option.some.inj (h.body.symm.trans h'.body)
  -- The routes are functions: they agree because they lead the same way from each status.
  obtain rfl : mapping = mapping' :=
    funext fun status => (h.mapping status).trans (h'.mapping status).symm
  obtain rfl : fallback = fallback' := h.fallback.trans h'.fallback.symm
  obtain rfl : processor = processor' := h.processor.trans h'.processor.symm
  obtain rfl : results = results' := h.results.trans h'.results.symm
  obtain rfl : policy = policy' := h.policy.trans h'.policy.symm
  rfl

theorem declaredTargets_of_isAsync {body : StepBody} (hbody : d.body = some body)
    (async : body.isAsync) : d.declaredTargets = d.led := by
  unfold declaredTargets
  rw [hbody]
  cases body <;> first | rfl | cases async

/-- Tasks lead where the handler of the draft leads, and where the settings lead from a status that
this handler does not map. -/
theorem mem_led {target : String} : target ∈ d.led ↔
    (∃ h t, d.handler = some h ∧ t.target = some target ∧
      ((∃ status, h.routes.mapping status = some t) ∨ h.routes.fallback = some t)) ∨
    (d.properties.onSuccess = some target ∧
      ∀ h, d.handler = some h → h.routes.mapping .success = none) ∨
    (d.properties.onElse = some target ∧ ∃ status, status ≠ .success ∧
      ∀ h, d.handler = some h → h.routes.mapping status = none) := by
  rw [led, mem_inOrder, List.mem_filterMap]
  simp only [List.mem_append, List.mem_filterMap, Status.mem_all, true_and, Option.mem_toList]
  constructor
  · rintro ⟨t, ⟨status, leads⟩ | default, target⟩
    · unfold leads? at leads
      cases hown : d.handler.bind (·.routes.mapping status) with
      | some own =>
        rw [hown] at leads
        -- the handler of the draft maps the status
        obtain ⟨h, hh, mapped⟩ := Option.bind_eq_some_iff.1 hown
        exact .inl ⟨h, t, hh, target, .inl ⟨status, mapped.trans leads⟩⟩
      | none =>
        -- it does not, so the settings do
        have unmapped := Option.bind_eq_none_iff.1 hown
        simp only [hown] at leads
        split at leads
        · rename_i success
          obtain ⟨step, hstep, rfl⟩ := Option.map_eq_some_iff.1 leads
          exact .inr (.inl ⟨hstep.trans target, success ▸ unmapped⟩)
        · rename_i other
          obtain ⟨step, hstep, rfl⟩ := Option.map_eq_some_iff.1 leads
          exact .inr (.inr ⟨hstep.trans target, status, other, unmapped⟩)
    · obtain ⟨h, hh, fallback⟩ := Option.bind_eq_some_iff.1 default
      exact .inl ⟨h, t, hh, target, .inr fallback⟩
  · rintro (⟨h, t, hh, target, ⟨status, mapped⟩ | fallback⟩ | ⟨setting, unmapped⟩ |
      ⟨setting, status, other, unmapped⟩)
    · exact ⟨t, .inl ⟨status, by simp [leads?, hh, mapped]⟩, target⟩
    · exact ⟨t, .inr (by simp [default?, hh, fallback]), target⟩
    · refine ⟨⟨some target, none, none, [], true⟩, .inl ⟨.success, ?_⟩, rfl⟩
      simp [leads?, Option.bind_eq_none_iff.2 unmapped, setting]
    · refine ⟨⟨some target, none, some .failed, [], true⟩, .inl ⟨status, ?_⟩, rfl⟩
      simp [leads?, Option.bind_eq_none_iff.2 unmapped, setting, other]

theorem complete_iff : d.Complete ↔ ∃ s, d.build = .ok s := by
  constructor
  · rintro ⟨named, permits, works⟩
    obtain ⟨body, hbody⟩ := Option.ne_none_iff_exists'.1 works
    exact ⟨_, build_eq_ok.2 ⟨by simpa using named, permits, body, hbody, rfl⟩⟩
  · rintro ⟨s, hs⟩
    obtain ⟨named, permits, body, hbody, -⟩ := build_eq_ok.1 hs
    exact ⟨by simpa using named, permits, by simp [hbody]⟩

theorem foldl_mapIfUnmapped_mapping (t : Transition) (statuses : List Status) (r : Routes)
    (status : Status) : (statuses.foldl (·.mapIfUnmapped · t) r).mapping status =
      if status ∈ statuses then (r.mapping status).or (some t) else r.mapping status := by
  induction statuses generalizing r with
  | nil => rfl
  | cons first statuses ih =>
    rw [List.foldl_cons, ih]
    by_cases same : status = first
    · subst same
      simp [Routes.mapIfUnmapped]
    · simp [Routes.mapIfUnmapped, same]

theorem foldl_mapIfUnmapped_fallback (t : Transition) (statuses : List Status) (r : Routes) :
    (statuses.foldl (·.mapIfUnmapped · t) r).fallback = r.fallback := by
  induction statuses generalizing r with
  | nil => rfl
  | cons first statuses ih => rw [List.foldl_cons, ih, Routes.mapIfUnmapped]

/-- Completed routes lead where they did, and from the other statuses where the settings say. -/
theorem completeRoutes_mapping (p : StepProperties) (r : Routes) (status : Status) :
    (completeRoutes p r).mapping status = (r.mapping status).or
      (if status = .success then p.onSuccess.map fun step => ⟨some step, none, none, [], true⟩
        else p.onElse.map fun step => ⟨some step, none, some .failed, [], true⟩) := by
  have others : status ∈ Status.all.filter (· ≠ .success) ↔ status ≠ .success := by simp
  unfold completeRoutes
  cases p.onElse with
  | none =>
    cases p.onSuccess with
    | none => simp
    | some step =>
      by_cases same : status = .success
      · simp [Routes.mapIfUnmapped, same, Transition.runTo]
      · simp [Routes.mapIfUnmapped, same]
  | some other =>
    simp only [foldl_mapIfUnmapped_mapping, others]
    by_cases same : status = .success
    · -- What success leads to is settled before everything else is looked at.
      cases p.onSuccess <;> simp [Routes.mapIfUnmapped, same, Transition.runTo]
    · cases p.onSuccess <;>
        simp [Routes.mapIfUnmapped, same, Transition.runTo, Transition.withResult]

theorem completeRoutes_fallback (p : StepProperties) (r : Routes) :
    (completeRoutes p r).fallback = r.fallback := by
  unfold completeRoutes
  cases p.onElse with
  | none => cases p.onSuccess <;> rfl
  | some other =>
    simp only [foldl_mapIfUnmapped_fallback]
    cases p.onSuccess <;> rfl

theorem Becomes.of_build (h : d.build = .ok s) : d.Becomes s := by
  obtain ⟨-, -, body, hbody, rfl⟩ := build_eq_ok.1 h
  have routes : d.completeHandler.routes =
      completeRoutes d.properties (d.handler.getD .empty).routes := rfl
  refine ⟨rfl, hbody, fun status => ?_, ?_, ?_, ?_, rfl⟩
  · -- the own mapping of the draft comes first, and then its settings
    rw [routes, completeRoutes_mapping]
    unfold leads?
    cases d.handler with
    | none => rfl
    | some own =>
      show (own.routes.mapping status).or _ = _
      cases hown : own.routes.mapping status <;> simp [hown]
  · rw [routes, completeRoutes_fallback]
    unfold default?
    cases d.handler <;> rfl
  · show (d.handler.getD .empty).processor = _
    cases d.handler <;> rfl
  · show (d.handler.getD .empty).results = _
    cases d.handler <;> rfl

/-- **What a draft is refused for.** -/
theorem build_eq_error {e : BuildError} : d.build = .error e ↔ d.Faulty e := by
  have named : d.properties.id.isEmpty = false ↔ d.id ≠ "" := by simp [StepDraft.id]
  constructor
  · intro h
    unfold build BatchPolicy.validate at h
    simp only at h
    -- first the name
    split at h
    · rename_i empty
      cases h
      exact .nameless (by simpa using empty)
    · rename_i nonempty
      have nonempty : d.id ≠ "" := named.1 (by simpa using nonempty)
      split at h
      · -- then the limit
        rename_i invalid
        cases h
        split at invalid
        · cases invalid
          exact .permitless nonempty ‹_›
        · cases invalid
      · rename_i valid
        -- and at last the body
        have permits := BatchPolicy.validate_eq_ok.1 valid
        split at h
        · cases h
          exact .bodiless nonempty permits ‹_›
        · cases h
  · rintro (empty | ⟨nonempty, none_⟩ | ⟨nonempty, permits, none_⟩)
    · have : d.properties.id = "" := empty
      simp [build, this]
    · simp [build, named.2 nonempty, BatchPolicy.validate, none_, StepDraft.id]
    · simp [build, named.2 nonempty, BatchPolicy.validate_eq_ok.2 permits, none_, StepDraft.id]

end StepDraft

namespace Definition

/-- The names of drafts, in order. -/
abbrev draftIds (drafts : List StepDraft) : List String := drafts.map StepDraft.id

/-- The names of the drafts that are flagged as the first step. -/
def flaggedDrafts (drafts : List StepDraft) : List String :=
  draftIds (drafts.filter (·.properties.firstStep))

/-- Nothing is wrong with the drafts one by one, and no name is used twice. -/
structure Separate (drafts : List StepDraft) : Prop where
  complete : ∀ d ∈ drafts, d.Complete
  nodup : (draftIds drafts).Nodup

/-- Every step that a draft names is there. -/
def Closed (drafts : List StepDraft) : Prop :=
  ∀ d ∈ drafts, ∀ target ∈ d.targets, target ∈ draftIds drafts

/-- What drafts must satisfy. -/
structure Buildable (drafts : List StepDraft) : Prop extends Separate drafts where
  some_ : drafts ≠ []
  closed : Closed drafts
  single : (flaggedDrafts drafts).length ≤ 1

/-- What is found wrong with drafts: nothing else is, or it is found later. -/
inductive FirstFault (flowType : String) (drafts : List StepDraft) : BuildError → Prop
  | noSteps (none_ : drafts = []) : FirstFault flowType drafts (.noSteps flowType)
  | faulty {before after : List StepDraft} {d : StepDraft} {e : BuildError}
    (split : drafts = before ++ d :: after) (fine : Separate before) (fault : d.Faulty e) :
    FirstFault flowType drafts e
  | duplicate {before after : List StepDraft} {d : StepDraft}
    (split : drafts = before ++ d :: after) (fine : Separate before) (complete : d.Complete)
    (known : d.id ∈ draftIds before) : FirstFault flowType drafts (.duplicateStep d.id)
  | unknownTarget {before after : List StepDraft} {d : StepDraft} {known rest : List String}
    {target : String} (fine : Separate drafts) (split : drafts = before ++ d :: after)
    (led : ∀ b ∈ before, ∀ target ∈ b.targets, target ∈ draftIds drafts)
    (targets : d.targets = known ++ target :: rest)
    (there : ∀ target ∈ known, target ∈ draftIds drafts) (missing : target ∉ draftIds drafts) :
    FirstFault flowType drafts (.unknownTarget d.id target)
  | multipleFirstSteps (fine : Separate drafts) (closed : Closed drafts)
    (several : 1 < (flaggedDrafts drafts).length) :
    FirstFault flowType drafts (.multipleFirstSteps (flaggedDrafts drafts))

/-- The definition is that of the drafts: their steps in order, and it starts at the flagged one, or
else at the first. -/
structure IsOf (definition : Definition) (flowType : String) (properties : FlowProperties)
    (drafts : List StepDraft) : Prop where
  flowType : definition.flowType = flowType
  properties : definition.properties = properties
  steps : List.Forall₂ StepDraft.Becomes drafts definition.steps
  firstStep : (flaggedDrafts drafts ++ draftIds drafts).head? = some definition.firstStep

/-! ### Drafts and their steps -/

section Steps

variable {drafts : List StepDraft} {steps : List Step}
  (h : List.Forall₂ StepDraft.Becomes drafts steps)
include h

theorem stepIds_of_becomes : stepIds steps = draftIds drafts := by
  induction h with
  | nil => rfl
  | cons becomes _ ih => simp [becomes.id, ih]

theorem flagged_of_becomes : flagged steps = flaggedDrafts drafts := by
  unfold flagged flaggedDrafts
  induction h with
  | nil => rfl
  | cons becomes _ ih =>
    simp only [List.filter_cons, becomes.properties]
    split <;> simp [becomes.id, ih]

/-- A target that is missing is found as well among the drafts. -/
theorem unknownTarget?_of_becomes : unknownTarget? steps =
    drafts.findSome? fun d => (d.targets.find? (· ∉ draftIds drafts)).map (d.id, ·) := by
  rw [unknownTarget?, stepIds_of_becomes h]
  generalize draftIds drafts = ids
  induction h with
  | nil => rfl
  | cons becomes _ ih => simp only [List.findSome?_cons, becomes.targets, becomes.id, ih]

theorem unknownTarget?_eq_none : unknownTarget? steps = none ↔ Closed drafts := by
  rw [unknownTarget?_of_becomes h, List.findSome?_eq_none_iff]
  simp [Closed]

theorem unknownTarget?_eq_some {id target : String} : unknownTarget? steps = some (id, target) ↔
    ∃ before d after known rest, drafts = before ++ d :: after ∧
      (∀ b ∈ before, ∀ target ∈ b.targets, target ∈ draftIds drafts) ∧
      d.targets = known ++ target :: rest ∧ (∀ target ∈ known, target ∈ draftIds drafts) ∧
      target ∉ draftIds drafts ∧ d.id = id := by
  rw [unknownTarget?_of_becomes h, List.findSome?_eq_some_iff]
  simp only [Option.map_eq_some_iff, Prod.mk.injEq, List.find?_eq_some_iff_append,
    Option.map_eq_none_iff, List.find?_eq_none, decide_eq_true_eq, Bool.not_eq_true',
    decide_eq_false_iff_not, not_not]
  constructor
  · rintro ⟨before, d, after, split, ⟨_, ⟨missing, known, rest, targets, there⟩, own, rfl⟩, led⟩
    exact ⟨before, d, after, known, rest, split, led, targets, there, missing, own⟩
  · rintro ⟨before, d, after, known, rest, split, led, targets, there, missing, own⟩
    exact ⟨before, d, after, split, ⟨_, ⟨missing, known, rest, targets, there⟩, own, rfl⟩, led⟩

end Steps

/-! ### Adding drafts -/

theorem foldlM_eq_error {α β ε : Type} {f : β → α → Except ε β} {xs : List α} {b : β} {e : ε} :
    xs.foldlM f b = .error e ↔ ∃ before x after mid, xs = before ++ x :: after ∧
      before.foldlM f b = .ok mid ∧ f mid x = .error e := by
  induction xs generalizing b with
  | nil => simp [pure, Except.pure]
  | cons x xs ih =>
    rw [List.foldlM_cons]
    cases hx : f b x with
    | error e' =>
      constructor
      · intro h
        exact ⟨[], x, xs, b, rfl, rfl, hx.trans h⟩
      · rintro ⟨before, y, after, mid, split, reached, fails⟩
        cases before with
        | nil =>
          obtain ⟨rfl, -⟩ := List.cons.inj split
          cases reached
          exact hx.symm.trans fails
        | cons z before =>
          -- `x` cannot have been passed
          obtain ⟨rfl, -⟩ := List.cons.inj split
          rw [List.foldlM_cons, hx] at reached
          cases reached
    | ok b' =>
      constructor
      · intro h
        obtain ⟨before, y, after, mid, rfl, reached, fails⟩ := ih.1 h
        refine ⟨x :: before, y, after, mid, rfl, ?_, fails⟩
        rw [List.foldlM_cons, hx]
        exact reached
      · rintro ⟨before, y, after, mid, split, reached, fails⟩
        cases before with
        | nil =>
          obtain ⟨rfl, -⟩ := List.cons.inj split
          cases reached
          cases hx.symm.trans fails
        | cons z before =>
          obtain ⟨rfl, rfl⟩ := List.cons.inj split
          rw [List.foldlM_cons, hx] at reached
          exact ih.2 ⟨before, y, after, mid, rfl, reached, fails⟩

section Adding

variable {drafts : List StepDraft} {built : Distinct}

/-- A draft is not added if something is wrong with it, or if its name is used. -/
theorem add_eq_error {d : StepDraft} {e : BuildError} : built.add d = .error e ↔
    d.Faulty e ∨ d.Complete ∧ d.id ∈ stepIds built.steps ∧ e = .duplicateStep d.id := by
  rw [← StepDraft.build_eq_error, StepDraft.complete_iff]
  unfold Distinct.add
  cases hd : d.build with
  | error e' => simp
  | ok s =>
    have own : s.id = d.id := (StepDraft.Becomes.of_build hd).id
    simp only [own, reduceCtorEq, false_or, Except.ok.injEq, exists_eq', true_and]
    split
    · rename_i known
      simp [known, eq_comm]
    · rename_i unknown
      simp [unknown]

theorem becomes_of_each {steps : List Step} (each : drafts.map StepDraft.build = steps.map .ok) :
    List.Forall₂ StepDraft.Becomes drafts steps := by
  have same : List.Forall₂ Eq (drafts.map StepDraft.build) (steps.map .ok) :=
    List.forall₂_eq_eq_eq ▸ each
  rw [List.forall₂_map_left_iff, List.forall₂_map_right_iff] at same
  exact same.imp fun _ _ => StepDraft.Becomes.of_build

/-- What is added are the steps of the drafts. -/
theorem becomes_of_added (h : drafts.foldlM Distinct.add ⟨[], List.nodup_nil⟩ = .ok built) :
    List.Forall₂ StepDraft.Becomes drafts built.steps := by
  obtain ⟨steps, each, hbuilt⟩ := foldlM_add_eq_ok.1 h
  obtain rfl : built.steps = steps := by simpa using hbuilt
  exact becomes_of_each each

/-- Just drafts with which nothing is wrong one by one, and whose names differ, are added. -/
theorem added_iff :
    (∃ built, drafts.foldlM Distinct.add ⟨[], List.nodup_nil⟩ = .ok built) ↔ Separate drafts := by
  constructor
  · rintro ⟨built, added⟩
    obtain ⟨steps, each, -⟩ := foldlM_add_eq_ok.1 added
    refine ⟨fun d hd => StepDraft.complete_iff.2 ?_, ?_⟩
    · have mem : d.build ∈ steps.map Except.ok := each ▸ List.mem_map_of_mem hd
      obtain ⟨s, -, hs⟩ := List.mem_map.1 mem
      exact ⟨s, hs.symm⟩
    · rw [← stepIds_of_becomes (becomes_of_added added)]
      exact built.nodup
  · rintro ⟨complete, nodup⟩
    have each : ∃ steps : List Step, drafts.map StepDraft.build = steps.map .ok := by
      clear nodup
      induction drafts with
      | nil => exact ⟨[], rfl⟩
      | cons d drafts ih =>
        obtain ⟨s, hs⟩ := StepDraft.complete_iff.1 (complete d List.mem_cons_self)
        obtain ⟨steps, each⟩ := ih fun d' hd' => complete d' (List.mem_cons_of_mem _ hd')
        exact ⟨s :: steps, by simp [hs, each]⟩
    obtain ⟨steps, each⟩ := each
    refine ⟨⟨steps, ?_⟩, foldlM_add_eq_ok.2 ⟨steps, each, rfl⟩⟩
    rw [stepIds_of_becomes (becomes_of_each each)]
    exact nodup

end Adding

/-! ### The first step -/

section ChooseFirst

variable {first : Step} {rest : List Step}

theorem chooseFirst_eq_ok {id : String} {hid : id ∈ stepIds (first :: rest)}
    (h : chooseFirst first rest = .ok ⟨id, hid⟩) : (flagged (first :: rest)).length ≤ 1 ∧
      (flagged (first :: rest) ++ stepIds (first :: rest)).head? = some id := by
  unfold chooseFirst at h
  split at h
  · rename_i none_
    cases h
    simp [none_]
  · rename_i single
    cases h
    simp [single]
  · cases h

theorem chooseFirst_eq_error {e : BuildError} : chooseFirst first rest = .error e ↔
    1 < (flagged (first :: rest)).length ∧
      e = .multipleFirstSteps (flagged (first :: rest)) := by
  unfold chooseFirst
  split
  · rename_i none_
    simp [none_]
  · rename_i single
    simp [single]
  · rename_i none_ single
    have several : 1 < (flagged (first :: rest)).length := by
      rcases h : flagged (first :: rest) with _ | ⟨id, _ | ⟨id', ids⟩⟩
      · exact absurd h none_
      · exact absurd h (single id)
      · simp
    simp [several, eq_comm]

end ChooseFirst

/-! ### Building -/

variable {flowType : String} {properties : FlowProperties} {drafts : List StepDraft}

section OfDistinct

variable {built : Distinct} (added : drafts.foldlM Distinct.add ⟨[], List.nodup_nil⟩ = .ok built)
include added

theorem ofDistinct_eq_error {e : BuildError} : ofDistinct flowType properties built = .error e ↔
    drafts = [] ∧ e = .noSteps flowType ∨
    (∃ id target, unknownTarget? built.steps = some (id, target) ∧ e = .unknownTarget id target) ∨
    Closed drafts ∧ 1 < (flaggedDrafts drafts).length ∧
      e = .multipleFirstSteps (flaggedDrafts drafts) := by
  have becomes := becomes_of_added added
  rw [← unknownTarget?_eq_none becomes, ← flagged_of_becomes becomes]
  rcases built with ⟨_ | ⟨first, rest⟩, nodup⟩
  · obtain rfl : drafts = [] := by simpa using becomes
    simp [ofDistinct, unknownTarget?, flagged, eq_comm]
  · have some_ : drafts ≠ [] := by
      rintro rfl
      cases becomes
    simp only [ofDistinct, some_, false_and, false_or]
    split
    · rename_i id target missing
      simp [missing, eq_comm]
    · rename_i none_
      simp only [none_, reduceCtorEq, false_and, exists_false, false_or, true_and]
      rw [← chooseFirst_eq_error]
      split <;> simp [*]

/-- A definition that is made of these steps is that of the drafts. -/
theorem isOf_of_ofDistinct {d : Definition} (h : ofDistinct flowType properties built = .ok d) :
    (flaggedDrafts drafts).length ≤ 1 ∧ d.IsOf flowType properties drafts := by
  have becomes := becomes_of_added added
  have type : d.flowType = flowType := by
    unfold ofDistinct at h
    split at h
    · cases h
    · split at h
      · cases h
      · split at h
        · cases h
        · cases h
          rfl
  obtain ⟨same, steps, first, rest, hid, made, chosen⟩ := ofDistinct_eq_ok h
  obtain ⟨single, starts⟩ := chooseFirst_eq_ok chosen
  rw [← made, flagged_of_becomes becomes, stepIds_of_becomes becomes] at starts
  rw [← made, flagged_of_becomes becomes] at single
  exact ⟨single, type, same, steps ▸ becomes, starts⟩

end OfDistinct

/-- Drafts that build a definition are as they must be, and the definition is theirs. -/
theorem buildable_of_ok {d : Definition} (h : build flowType properties drafts = .ok d) :
    Buildable drafts ∧ d.IsOf flowType properties drafts := by
  obtain ⟨built, added, made⟩ := build_eq_ok h
  obtain ⟨single, isOf⟩ := isOf_of_ofDistinct added made
  have none_ : unknownTarget? d.steps = none := by
    refine List.findSome?_eq_none_iff.2 fun s hs => ?_
    simpa using d.targets_mem s hs
  have closed : Closed drafts := (unknownTarget?_eq_none isOf.steps).1 none_
  refine ⟨⟨added_iff.1 ⟨built, added⟩, ?_, closed, single⟩, isOf⟩
  rintro rfl
  have empty : d.steps = [] := by simpa using isOf.steps
  exact absurd d.firstStep_mem (by simp [empty])

/-- Once all drafts are added, only what is wrong between them is left. -/
theorem build_of_added {built : Distinct}
    (added : drafts.foldlM Distinct.add ⟨[], List.nodup_nil⟩ = .ok built) :
    build flowType properties drafts = ofDistinct flowType properties built := by
  rw [build, added]

/-- A draft that is not added is what the drafts are refused for. -/
theorem build_of_stuck {before after : List StepDraft} {d : StepDraft} {e : BuildError}
    (split : drafts = before ++ d :: after) (fine : Separate before)
    (fails : d.Faulty e ∨ d.Complete ∧ d.id ∈ draftIds before ∧ e = .duplicateStep d.id) :
    build flowType properties drafts = .error e := by
  obtain ⟨mid, reached⟩ := added_iff.2 fine
  rw [← stepIds_of_becomes (becomes_of_added reached), ← add_eq_error] at fails
  rw [build, foldlM_eq_error.2 ⟨before, d, after, mid, split, reached, fails⟩]

/-- **What drafts are refused for.** -/
theorem build_eq_error {e : BuildError} :
    build flowType properties drafts = .error e ↔ FirstFault flowType drafts e := by
  constructor
  · intro h
    cases hadd : drafts.foldlM Distinct.add ⟨[], List.nodup_nil⟩ with
    | error e' =>
      obtain rfl : e' = e := by
        rw [build, hadd] at h
        exact Except.error.inj h
      obtain ⟨before, d, after, mid, split, reached, fails⟩ := foldlM_eq_error.1 hadd
      have fine := added_iff.1 ⟨mid, reached⟩
      rw [add_eq_error, stepIds_of_becomes (becomes_of_added reached)] at fails
      rcases fails with fault | ⟨complete, known, rfl⟩
      · exact .faulty split fine fault
      · exact .duplicate split fine complete known
    | ok built =>
      have fine := added_iff.1 ⟨built, hadd⟩
      rw [build_of_added hadd, ofDistinct_eq_error hadd] at h
      rcases h with ⟨none_, rfl⟩ | ⟨id, target, missing, rfl⟩ | ⟨closed, several, rfl⟩
      · exact .noSteps none_
      · obtain ⟨before, d, after, known, rest, split, led, targets, there, absent, rfl⟩ :=
          (unknownTarget?_eq_some (becomes_of_added hadd)).1 missing
        exact .unknownTarget fine split led targets there absent
      · exact .multipleFirstSteps fine closed several
  · rintro (none_ | ⟨split, fine, fault⟩ | ⟨split, fine, complete, known⟩ |
      ⟨fine, split, led, targets, there, missing⟩ | ⟨fine, closed, several⟩)
    · subst none_
      rfl
    · exact build_of_stuck split fine (.inl fault)
    · exact build_of_stuck split fine (.inr ⟨complete, known, rfl⟩)
    · obtain ⟨built, hadd⟩ := added_iff.2 fine
      rw [build_of_added hadd, ofDistinct_eq_error hadd]
      refine .inr (.inl ⟨_, _, (unknownTarget?_eq_some (becomes_of_added hadd)).2 ?_, rfl⟩)
      exact ⟨_, _, _, _, _, split, led, targets, there, missing, rfl⟩
    · obtain ⟨built, hadd⟩ := added_iff.2 fine
      rw [build_of_added hadd, ofDistinct_eq_error hadd]
      exact .inr (.inr ⟨closed, several, rfl⟩)

/-- With drafts that are as they must be, nothing is found wrong. -/
theorem Buildable.not_firstFault (h : Buildable drafts) (e : BuildError) :
    ¬ FirstFault flowType drafts e := by
  rintro (none_ | ⟨split, fine, fault⟩ | ⟨split, fine, complete, known⟩ |
    ⟨fine, split, led, targets, there, missing⟩ | ⟨fine, closed, several⟩)
  · exact h.some_ none_
  · have complete := h.complete _ (split ▸ List.mem_append_right _ List.mem_cons_self)
    cases fault with
    | nameless empty => exact complete.named empty
    | permitless _ none_ => exact complete.permits none_
    | bodiless _ _ none_ => exact complete.works none_
  · have nodup := h.nodup
    rw [split, draftIds, List.map_append] at nodup
    exact (List.nodup_append.1 nodup).2.2 _ known _ (by simp) rfl
  · refine missing (h.closed _ (split ▸ List.mem_append_right _ List.mem_cons_self) _ ?_)
    simp [targets]
  · exact absurd h.single (by omega)

theorem becomes_unique {steps steps' : List Step} (h : List.Forall₂ StepDraft.Becomes drafts steps)
    (h' : List.Forall₂ StepDraft.Becomes drafts steps') : steps = steps' := by
  induction h generalizing steps' with
  | nil =>
    cases h'
    rfl
  | cons becomes _ ih =>
    obtain ⟨s', rest, becomes', others, rfl⟩ := List.forall₂_cons_left_iff.1 h'
    rw [becomes.unique becomes', ih others]

/-- Drafts are those of one definition only. -/
theorem IsOf.unique {d d' : Definition} (h : d.IsOf flowType properties drafts)
    (h' : d'.IsOf flowType properties drafts) : d = d' := by
  obtain ⟨rfl, rfl, steps, first⟩ := h
  obtain ⟨type, same, steps', first'⟩ := h'
  cases d
  cases d'
  obtain rfl := becomes_unique steps steps'
  obtain rfl := Option.some.inj (first.symm.trans first')
  cases type
  cases same
  rfl

/-- **Which drafts build a definition, and what the others are refused for.**

* Building gives a definition just if the drafts are as they must be (`Buildable`), and that
  definition is theirs (`IsOf`): it has their steps in order, and starts at the flagged one, or at
  the first.
* Building fails with an error just if this is what is found first (`FirstFault`).
* Where the tasks of a draft may lead, which is looked at in order and once each, is where the
  handler of the draft leads, by a status or else, and where the settings lead from a status that
  this handler does not map. -/
theorem build_verdict (flowType : String) (properties : FlowProperties) (drafts : List StepDraft) :
    ((∃ d, build flowType properties drafts = .ok d) ↔ Buildable drafts) ∧
    (∀ d, build flowType properties drafts = .ok d ↔
      Buildable drafts ∧ d.IsOf flowType properties drafts) ∧
    (∀ e, build flowType properties drafts = .error e ↔ FirstFault flowType drafts e) ∧
    ∀ (draft : StepDraft) (body : StepBody), draft.body = some body → body.isAsync →
      draft.declaredTargets.Pairwise (· < ·) ∧
      ∀ target, target ∈ draft.declaredTargets ↔
        (∃ h t, draft.handler = some h ∧ t.target = some target ∧
          ((∃ status, h.routes.mapping status = some t) ∨ h.routes.fallback = some t)) ∨
        (draft.properties.onSuccess = some target ∧
          ∀ h, draft.handler = some h → h.routes.mapping .success = none) ∨
        (draft.properties.onElse = some target ∧ ∃ status, status ≠ .success ∧
          ∀ h, draft.handler = some h → h.routes.mapping status = none) := by
  have succeeds : Buildable drafts → ∃ d, build flowType properties drafts = .ok d := by
    intro able
    cases h : build flowType properties drafts with
    | ok d => exact ⟨d, rfl⟩
    | error e => exact absurd (build_eq_error.1 h) (able.not_firstFault e)
  refine ⟨⟨fun ⟨d, h⟩ => (buildable_of_ok h).1, succeeds⟩, fun d => ⟨buildable_of_ok, ?_⟩,
    fun e => build_eq_error, fun draft body hbody async => ?_⟩
  · rintro ⟨able, isOf⟩
    obtain ⟨d', h⟩ := succeeds able
    rw [h, (buildable_of_ok h).2.unique isOf]
  · have declared := StepDraft.declaredTargets_of_isAsync hbody async
    exact ⟨declared ▸ inOrder_pairwise _, fun target => declared ▸ StepDraft.mem_led⟩

/-- A draft whose step has tasks to launch, though none as it happens. -/
def launchingDraft (id : String) : StepDraft :=
  (StepDraft.named id).withBody (.tasks fun _ _ ids => (.ok [], ids))

/-- The handler of the first draft is merged from two, the second one has settings only, and the
others end the flow. -/
def mergedDrafts (ids : List String) : List StepDraft :=
  ((launchingDraft "work").onResult "stop" "redo").callback
      (.ofRoutes (Routes.empty.mapTo (.runTo "aside") [.canceled])) ::
    ((launchingDraft "check").onSuccess "stop").onElse "late" ::
    ids.map fun id => (StepDraft.named id).park .completed .success none

theorem mergedDrafts_separate {ids : List String} (named : "" ∉ ids)
    (nodup : (draftIds (mergedDrafts ids)).Nodup) : Separate (mergedDrafts ids) := by
  refine ⟨List.forall_mem_cons.2 ⟨⟨nofun, nofun, nofun⟩, List.forall_mem_cons.2
    ⟨⟨nofun, nofun, nofun⟩, fun d hd => ?_⟩⟩, nodup⟩
  obtain ⟨id, hid, rfl⟩ := List.mem_map.1 hd
  exact ⟨fun empty => named (empty ▸ hid), nofun, nofun⟩

/-- The steps that a merged handler leads to are all looked for, and the later of the two handlers
has the say about a canceled task.  Without a handler the settings lead everywhere. -/
theorem build_verdict_merged :
    build "demo" default (mergedDrafts ["stop", "aside", "late"]) =
      .error (.unknownTarget "work" "redo") ∧
    ∃ d s s' rest, build "demo" default (mergedDrafts ["stop", "aside", "late", "redo"]) = .ok d ∧
      d.firstStep = "work" ∧ d.steps = s :: s' :: rest ∧ s.id = "work" ∧ s'.id = "check" ∧
      s.handler.routes.mapping .success = some (.runTo "stop") ∧
      s.handler.routes.mapping .canceled = some (.runTo "aside") ∧
      s.handler.routes.mapping .failed = some ((Transition.runTo "redo").withResult .failed) ∧
      s.handler.routes.fallback = some ((Transition.runTo "redo").withResult .failed) ∧
      s'.handler.routes.mapping .success = some (.runTo "stop") ∧
      s'.handler.routes.mapping .failed = some ((Transition.runTo "late").withResult .failed) ∧
      s'.handler.routes.fallback = none := by
  constructor
  · have targets : (mergedDrafts ["stop", "aside", "late"]).head?.map StepDraft.targets =
        some (["aside"] ++ "redo" :: ["stop"]) := by decide +kernel
    have fine : Separate (mergedDrafts ["stop", "aside", "late"]) :=
      mergedDrafts_separate (by decide) (by decide)
    exact ((build_verdict "demo" default _).2.2.1 _).2 (.unknownTarget fine
      (List.nil_append _).symm (List.forall_mem_nil _) (Option.some.inj targets) (by decide)
      (by decide))
  · have able : Buildable (mergedDrafts ["stop", "aside", "late", "redo"]) := by
      refine ⟨mergedDrafts_separate (by decide) (by decide), List.cons_ne_nil _ _, ?_, by decide⟩
      unfold Closed
      decide +kernel
    obtain ⟨d, hd⟩ := (build_verdict "demo" default _).1.2 able
    have isOf := (((build_verdict "demo" default _).2.1 d).1 hd).2
    have first : "work" = d.firstStep := Option.some.inj isOf.firstStep
    obtain ⟨s, rest, work, others, made⟩ := List.forall₂_cons_left_iff.1 isOf.steps
    obtain ⟨s', rest, check, -, rfl⟩ := List.forall₂_cons_left_iff.1 others
    exact ⟨d, s, s', rest, hd, first.symm, made, work.id, check.id, work.mapping _, work.mapping _,
      work.mapping _, work.fallback, check.mapping _, check.mapping _, check.fallback⟩

/-- A draft without a body is found before the missing target of the one in front of it. -/
example : build "demo" default [(StepDraft.named "a").runTo "nowhere", .named "b", .named ""] =
    .error (.missingExecution "b") := rfl

end Definition

end Workflow
