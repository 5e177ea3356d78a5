import Mathlib.Data.List.Induction
import Mathlib.Logic.ExistsUnique
import Workflow.Proofs.Step.Reduction

/-!
# Workflow.Proofs.Step.Severity — the first of the most severe results decides

Routes reduce results by going through them once and keeping the worst so far.  What is kept in the
end is the first result that no other one exceeds (`Routes.worst_eq_some_iff`), so the reduction can
be read off that result (`severity_reduction`).  In another order another result may come first, but
it has the same status: the outcome leads the same way.
-/

namespace Workflow

/-! ### The first of the most severe results -/

/-- A result that no other one exceeds, with no such result in front of it. -/
def FirstMostSevere (results : List TaskResult) (w : TaskResult) : Prop :=
  ∃ before after, results = before ++ w :: after ∧ MostSevere results w ∧
    ∀ q ∈ before, ¬ MostSevere results q

theorem MostSevere.of_append {results more : List TaskResult} {q : TaskResult}
    (h : MostSevere (results ++ more) q) (hq : q ∈ results) : MostSevere results q :=
  ⟨hq, fun p hp => h.most p (List.mem_append_left more hp)⟩

namespace FirstMostSevere

variable {results : List TaskResult} {w w' r : TaskResult}

theorem unique (h : FirstMostSevere results w) (h' : FirstMostSevere results w') : w = w' := by
  obtain ⟨before, after, rfl, most, first⟩ := h
  obtain ⟨before', after', same, most', first'⟩ := h'
  rcases List.append_eq_append_iff.1 same with ⟨between, hb, ha⟩ | ⟨between, hb, ha⟩
  · cases between with
    | nil => exact (List.cons.inj ha).1
    | cons x between =>
      obtain ⟨rfl, -⟩ := List.cons.inj ha
      exact absurd most (first' w (by simp [hb]))
  · cases between with
    | nil => exact (List.cons.inj ha).1.symm
    | cons x between =>
      obtain ⟨rfl, -⟩ := List.cons.inj ha
      exact absurd most' (first w' (by simp [hb]))

/-- A further result that exceeds the one so far takes its place. -/
theorem exceeded (h : FirstMostSevere results w) (more : w.status.severity < r.status.severity) :
    FirstMostSevere (results ++ [r]) r := by
  obtain ⟨-, -, -, most, -⟩ := h
  have below : ∀ q ∈ results, q.status.severity < r.status.severity := fun q hq =>
    Nat.lt_of_le_of_lt (most.most q hq) more
  refine ⟨results, [], rfl, ⟨by simp, fun q hq => ?_⟩, fun q hq most' => ?_⟩
  · rcases List.mem_append.1 hq with hq | hq
    · exact Nat.le_of_lt (below q hq)
    · exact List.mem_singleton.1 hq ▸ Nat.le_refl _
  · exact absurd (most'.most r (by simp)) (Nat.not_le_of_lt (below q hq))

/-- Any other further result leaves it where it is. -/
theorem kept (h : FirstMostSevere results w) (less : r.status.severity ≤ w.status.severity) :
    FirstMostSevere (results ++ [r]) w := by
  obtain ⟨before, after, hresults, most, first⟩ := h
  refine ⟨before, after ++ [r], by simp [hresults], ⟨by simp [most.mem], fun q hq => ?_⟩,
    fun q hq most' => first q hq (most'.of_append (by simp [hresults, hq]))⟩
  rcases List.mem_append.1 hq with hq | hq
  · exact most.most q hq
  · rw [List.mem_singleton.1 hq]
    exact less

end FirstMostSevere

namespace Routes

theorem worst_concat (results : List TaskResult) (r : TaskResult) :
    worst (results ++ [r]) =
      match worst results with
      | none => some r
      | some w => if r.moreSevere w then some r else some w := by
  rw [worst, List.foldl_append]
  rfl

theorem firstMostSevere_of_worst {results : List TaskResult} {w : TaskResult}
    (h : worst results = some w) : FirstMostSevere results w := by
  induction results using List.reverseRecOn generalizing w with
  | nil => cases h
  | append_singleton results r ih =>
    rw [worst_concat] at h
    cases before : worst results with
    | none =>
      have nothing : results = [] := by
        cases results with
        | nil => rfl
        | cons q rest =>
          obtain ⟨w', found, -⟩ := worst_cons q rest
          cases before.symm.trans found
      subst nothing
      obtain rfl : r = w := by simpa [worst] using h
      exact ⟨[], [], rfl, ⟨by simp, by simp⟩, by simp⟩
    | some w' =>
      simp only [before] at h
      split at h
      · rename_i more
        cases h
        exact (ih before).exceeded
          (by simpa [TaskResult.moreSevere, Status.moreSevere] using more)
      · rename_i less
        cases h
        exact (ih before).kept (by simpa [TaskResult.moreSevere, Status.moreSevere] using less)

theorem exists_firstMostSevere {results : List TaskResult} (h : results ≠ []) :
    ∃ w, FirstMostSevere results w := by
  cases results with
  | nil => exact absurd rfl h
  | cons q rest =>
    obtain ⟨w, found, -⟩ := worst_cons q rest
    exact ⟨w, firstMostSevere_of_worst found⟩

/-- **What is kept is the first result that no other one exceeds.** -/
theorem worst_eq_some_iff {results : List TaskResult} {w : TaskResult} :
    worst results = some w ↔ FirstMostSevere results w := by
  refine ⟨firstMostSevere_of_worst, fun h => ?_⟩
  cases results with
  | nil =>
    obtain ⟨before, after, nothing, -⟩ := h
    simp at nothing
  | cons q rest =>
    obtain ⟨w', found, -⟩ := worst_cons q rest
    rw [found, h.unique (firstMostSevere_of_worst found)]

end Routes

/-! ### Outcomes -/

/-- Outcomes that lead the same way: transitions that differ at most in their log lines, or
aggregation errors about the same status. -/
inductive LeadAlike : Except FlowError Transition → Except FlowError Transition → Prop
  | transitions {t t' : Transition} (target : t.target = t'.target) (state : t.state = t'.state)
    (result : t.result = t'.result) (edge : t.isEdge = t'.isEdge) : LeadAlike (.ok t) (.ok t')
  | errors (status : Status) (message message' : String) (cause cause' : Option String) :
    LeadAlike (.error (.aggregation status message cause))
      (.error (.aggregation status message' cause'))

namespace Routes

variable (routes : Routes) {results results' : List TaskResult} {w : TaskResult}

/-- The reduction of results of which the first most severe one is known. -/
theorem reduce_of_first (h : FirstMostSevere results w) :
    routes.reduce results =
      match routes.mapping w.status with
      | some t => .ok (t.withLog w.messageOrEmpty w.cause)
      | none =>
        if w.isError then .error (.aggregation w.status w.messageOrEmpty w.cause)
        else .ok routes.default := by
  have first := worst_eq_some_iff.2 h
  cases mapping : routes.mapping w.status with
  | none => simp only [reduce, first, mapping]
  | some t => simp only [reduce, first, mapping]

theorem reduce_leadAlike (h : results.Perm results') :
    LeadAlike (routes.reduce results) (routes.reduce results') := by
  cases results with
  | nil =>
    rw [List.nil_perm.1 h]
    exact .transitions rfl rfl rfl rfl
  | cons q rest =>
    have some_ : results' ≠ [] := fun nothing => by simp [nothing] at h
    obtain ⟨w, first⟩ := exists_firstMostSevere (List.cons_ne_nil q rest)
    obtain ⟨w', first'⟩ := exists_firstMostSevere some_
    have status : w.status = w'.status := by
      obtain ⟨-, -, -, most, -⟩ := first
      obtain ⟨-, -, -, most', -⟩ := first'
      exact most.status_eq (most'.perm h.symm)
    rw [routes.reduce_of_first first, routes.reduce_of_first first', ← status]
    cases routes.mapping w.status with
    | some t => exact .transitions rfl rfl rfl rfl
    | none =>
      simp only [TaskResult.isError, ← status]
      by_cases error : w.status.isError
      · simpa only [error, if_true] using .errors ..
      · simpa only [error] using .transitions rfl rfl rfl rfl

end Routes

/-! ### Main result -/

/-- **Results are reduced by severity.**  Success is the mildest status, then come unknown,
canceled, timeout and failed.

* Without results the outcome is the default, or to stay.
* Otherwise there is one result that is the first not to be exceeded by any other.  If its status is
  mapped the outcome is that transition with one more log line, which quotes it.  If it is not
  mapped, and no success, the outcome is an error that quotes it, whatever the default; and if it is
  a success that is not mapped, the outcome is the default, or to stay.
* The same results in another order lead the same way. -/
theorem severity_reduction (routes : Routes) (results : List TaskResult) :
    (∀ s s' : Status, s.severity < s'.severity ↔
      [s, s'].Sublist [.success, .unknown, .canceled, .timeout, .failed]) ∧
    (results = [] → routes.reduce results = .ok (routes.fallback.getD .noop)) ∧
    (results ≠ [] → ∃! w, FirstMostSevere results w) ∧
    (∀ w, FirstMostSevere results w →
      (∀ t, routes.mapping w.status = some t → routes.reduce results =
        .ok { t with log := t.log ++ [⟨w.message.getD "", w.cause⟩] }) ∧
      (routes.mapping w.status = none → w.status ≠ .success → routes.reduce results =
        .error (.aggregation w.status (w.message.getD "") w.cause)) ∧
      (routes.mapping w.status = none → w.status = .success →
        routes.reduce results = .ok (routes.fallback.getD .noop))) ∧
    (∀ results', results.Perm results' →
      LeadAlike (routes.reduce results) (routes.reduce results')) := by
  refine ⟨fun s s' => ?_, ?_, fun some_ => ?_, fun w first => ⟨fun t mapped => ?_,
    fun unmapped error => ?_, fun unmapped success => ?_⟩, fun results' h => ?_⟩
  · cases s <;> cases s' <;> decide
  · rintro rfl
    rfl
  · obtain ⟨w, first⟩ := Routes.exists_firstMostSevere some_
    exact ⟨w, first, fun w' first' => first'.unique first⟩
  · rw [routes.reduce_of_first first, mapped]
    rfl
  · have isError : w.isError = true := by simpa [TaskResult.isError, Status.isError] using error
    rw [routes.reduce_of_first first, unmapped]
    simp only [isError, if_true]
    rfl
  · have noError : w.isError = false := by simp [TaskResult.isError, Status.isError, success]
    rw [routes.reduce_of_first first, unmapped]
    simp only [noError]
    rfl
  · exact routes.reduce_leadAlike h

/-- Two tasks have failed and one was canceled: an error quotes the failure that came first,
although there is a default, and in another order the other one. -/
theorem severity_reduction_failures :
    let routes : Routes := ⟨fun _ => none, some (.runTo "next")⟩
    let canceled := TaskResult.canceled (.ofNat 1) "a"
    let refused := TaskResult.failed (.ofNat 2) "b"
    let broken := TaskResult.failed (.ofNat 3) "c"
    FirstMostSevere [canceled, refused, broken] refused ∧
      routes.reduce [canceled, refused, broken] = .error (.aggregation .failed "b" none) ∧
      routes.reduce [broken, refused, canceled] = .error (.aggregation .failed "c" none) ∧
      LeadAlike (routes.reduce [canceled, refused, broken])
        (routes.reduce [broken, refused, canceled]) := by
  intro routes canceled refused broken
  have first : FirstMostSevere [canceled, refused, broken] refused :=
    Routes.worst_eq_some_iff.1 rfl
  obtain ⟨-, -, -, outcome, alike⟩ := severity_reduction routes [canceled, refused, broken]
  exact ⟨first, (outcome refused first).2.1 rfl (by decide), rfl,
    alike _ (List.reverse_perm _).symm⟩

end Workflow
