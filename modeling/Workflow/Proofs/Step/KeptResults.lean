import Workflow.Proofs.Step.Reduction

/-!
# Workflow.Proofs.Step.KeptResults — keeping results task by task

The first result of a task comes last, and a later one takes its place.  So no task has two results,
the results of some tasks can be looked at apart from the others (`filter_store`), and it does not
matter whether results are kept elsewhere as they come or all together in the end
(`storeAll_store`).
-/

namespace Workflow

namespace TaskResult

/-- A task whose result is kept keeps its place, any other comes last. -/
theorem map_task_store (r : TaskResult) (kept : List TaskResult) :
    (r.store kept).map task =
      if r.task ∈ kept.map task then kept.map task else kept.map task ++ [r.task] := by
  induction kept with
  | nil => rfl
  | cons x kept ih =>
    by_cases same : x.task = r.task
    · simp [store, same]
    · rw [store, if_neg same, List.map_cons, ih]
      by_cases known : r.task ∈ kept.map task <;> simp [known, Ne.symm same]

theorem nodup_store {kept : List TaskResult} (h : (kept.map task).Nodup) (r : TaskResult) :
    ((r.store kept).map task).Nodup := by
  rw [map_task_store]
  split
  · exact h
  · rename_i new
    exact List.nodup_append.2 ⟨h, by simp, fun a ha b hb heq => new (by simp_all)⟩

theorem mem_of_mem_store {r q : TaskResult} {kept : List TaskResult} (h : q ∈ r.store kept) :
    q = r ∨ q ∈ kept := by
  induction kept with
  | nil => exact .inl (List.mem_singleton.1 h)
  | cons x kept ih =>
    unfold store at h
    split at h
    · rcases List.mem_cons.1 h with rfl | h
      · exact .inl rfl
      · exact .inr (List.mem_cons_of_mem _ h)
    · rcases List.mem_cons.1 h with rfl | h
      · exact .inr List.mem_cons_self
      · exact (ih h).imp_right (List.mem_cons_of_mem _)

/-- The result of a task that has none yet comes last. -/
theorem store_new {r : TaskResult} {kept : List TaskResult}
    (new : ∀ p ∈ kept, p.task ≠ r.task) : r.store kept = kept ++ [r] := by
  induction kept with
  | nil => rfl
  | cons x kept ih =>
    obtain ⟨first, rest⟩ := List.forall_mem_cons.1 new
    rw [store, if_neg first, ih rest, List.cons_append]

/-! ### The results of some tasks -/

theorem filter_store (ids : List TaskId) (r : TaskResult) (kept : List TaskResult) :
    (r.store kept).filter (·.task ∈ ids) =
      if r.task ∈ ids then r.store (kept.filter (·.task ∈ ids))
      else kept.filter (·.task ∈ ids) := by
  induction kept with
  | nil => by_cases h : r.task ∈ ids <;> simp [store, h]
  | cons x kept ih =>
    by_cases same : x.task = r.task
    · by_cases h : r.task ∈ ids <;> simp [store, same, h]
    · rw [store, if_neg same]
      by_cases h : r.task ∈ ids <;> by_cases hx : x.task ∈ ids <;>
        simp [h, hx, store, same] at ih ⊢ <;> exact ih

theorem nodup_filter {kept : List TaskResult} (h : (kept.map task).Nodup)
    (p : TaskResult → Bool) : ((kept.filter p).map task).Nodup :=
  (List.filter_sublist.map task).nodup h

/-! ### Keeping results elsewhere -/

/-- The second result of a task is the one that counts. -/
theorem store_same {q r : TaskResult} (same : q.task = r.task) (kept : List TaskResult) :
    r.store (q.store kept) = r.store kept := by
  induction kept with
  | nil => simp [store, same]
  | cons x kept ih =>
    by_cases hx : x.task = r.task
    · simp [store, same, hx]
    · simp [store, same, hx, ih]

/-- A result that has its place is kept before or after that of another task. -/
theorem store_comm {q r : TaskResult} (other : q.task ≠ r.task) {kept : List TaskResult}
    (known : r.task ∈ kept.map task) : r.store (q.store kept) = q.store (r.store kept) := by
  induction kept with
  | nil => simp at known
  | cons x kept ih =>
    by_cases hq : x.task = q.task
    · simp [store, hq, other]
    · by_cases hr : x.task = r.task
      · simp [store, hr, Ne.symm other]
      · have known' : r.task ∈ kept.map task := by simpa [Ne.symm hr] using known
        simp [store, hq, hr, ih known']

theorem storeAll_comm {r : TaskResult} {new kept : List TaskResult}
    (other : ∀ q ∈ new, q.task ≠ r.task) (known : r.task ∈ kept.map task) :
    r.store (storeAll new kept) = storeAll new (r.store kept) := by
  induction new generalizing kept with
  | nil => rfl
  | cons q new ih =>
    obtain ⟨first, rest⟩ := List.forall_mem_cons.1 other
    have known' : r.task ∈ (q.store kept).map task := by
      rw [map_task_store]
      split <;> simp [known]
    rw [storeAll_cons, ih rest known', store_comm first known, storeAll_cons]

/-- A result may be kept among others before all of them are kept elsewhere, or after. -/
theorem storeAll_store {new : List TaskResult} (distinct : (new.map task).Nodup) (r : TaskResult)
    (kept : List TaskResult) : storeAll (r.store new) kept = r.store (storeAll new kept) := by
  induction new generalizing kept with
  | nil => rfl
  | cons q new ih =>
    obtain ⟨first, rest⟩ := List.nodup_cons.1 distinct
    by_cases same : q.task = r.task
    · have other : ∀ p ∈ new, p.task ≠ r.task := fun p hp heq =>
        first (List.mem_map.2 ⟨p, hp, heq.trans same.symm⟩)
      have known : r.task ∈ (q.store kept).map task := by
        rw [map_task_store]
        split <;> simp_all
      rw [store, if_pos same, storeAll_cons, storeAll_cons, storeAll_comm other known,
        store_same same]
    · rw [store, if_neg same, storeAll_cons, storeAll_cons, ih rest]

/-- Results of tasks that nothing is kept of come behind what is kept. -/
theorem storeAll_eq_append {new kept : List TaskResult} (distinct : (new.map task).Nodup)
    (apart : ∀ q ∈ new, ∀ p ∈ kept, p.task ≠ q.task) : storeAll new kept = kept ++ new := by
  induction new generalizing kept with
  | nil => exact (List.append_nil kept).symm
  | cons q new ih =>
    obtain ⟨first, rest⟩ := List.nodup_cons.1 distinct
    obtain ⟨apart, others⟩ := List.forall_mem_cons.1 apart
    have apart' : ∀ r ∈ new, ∀ p ∈ kept ++ [q], p.task ≠ r.task := by
      intro r hr p hp same
      rcases List.mem_append.1 hp with old | last
      · exact others r hr p old same
      · obtain rfl := List.mem_singleton.1 last
        exact first (List.mem_map.2 ⟨r, hr, same.symm⟩)
    rw [storeAll_cons, store_new apart, ih rest apart', List.append_assoc, List.singleton_append]

end TaskResult

end Workflow
