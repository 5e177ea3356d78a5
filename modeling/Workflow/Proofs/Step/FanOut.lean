import Workflow.Proofs.Batch.Runs
import Workflow.Proofs.Step.Reduction

/-!
# Workflow.Proofs.Step.FanOut — the decision about launched tasks does not depend on their order

A batch whose launches end with given results may report them in any order, and so a listener
without a processor of its own may hear them in any order.  Its decision is the same, up to which of
equally severe results it quotes.
-/

namespace Workflow

/-- The decision of a listener that has heard all events. -/
def Handler.verdict (h : Handler) (events : List TaskEvent) : Option Decision :=
  ((Listener.ofHandler h).hearAll events).1.decision

namespace TaskResult

/-- Results of distinct tasks are all kept, if nothing was kept before. -/
theorem storeAll_of_nodup {new : List TaskResult} (h : (new.map task).Nodup) :
    storeAll new [] = new := by
  have fresh : ∀ (new kept : List TaskResult), ((kept ++ new).map task).Nodup →
      storeAll new kept = kept ++ new := by
    intro new
    induction new with
    | nil => simp
    | cons r new ih =>
      intro kept h
      have hnew : ∀ q ∈ kept, q.task ≠ r.task := by
        intro q hq
        rw [List.map_append, List.nodup_append] at h
        exact h.2.2 q.task (List.mem_map_of_mem hq) r.task (by simp)
      have hstore : r.store kept = kept ++ [r] := by
        clear h ih
        induction kept with
        | nil => rfl
        | cons q kept ih =>
          rw [store, if_neg (hnew q (by simp)), ih fun p hp => hnew p (by simp [hp])]
          rfl
      rw [storeAll_cons, hstore, ih (kept ++ [r]) (by simpa using h)]
      simp
  exact fresh new [] h

end TaskResult

/-- What a listener keeps of a completed batch of distinct tasks, but for its order. -/
theorem Batch.Completes.verdict {b : Batch} (distinct : b.taskIds.Nodup) {h : Handler}
    (hp : h.processor = none) {ends : List TaskResult} {events : List TaskEvent}
    (run : b.Completes ends events) : ∃ kept, kept.Perm (TaskResult.storeAll ends h.results) ∧
      h.verdict events = concluded (h.routes.reduce kept) := by
  obtain ⟨before, rfl, hrunning, hperm⟩ := run.results
  refine ⟨_, TaskResult.storeAll_perm hperm ?_ h.results, Listener.hearAll_decision hrunning hp⟩
  refine (hperm.map TaskResult.task).nodup_iff.2 ?_
  rw [run.tasks]
  exact distinct

/-- Routes by result lead to the one step if every task of a completed batch succeeded, and
otherwise to the other one with a failed flow; the log quotes one of the most severe results. -/
theorem Batch.Completes.onResult_verdict {b : Batch} (distinct : b.taskIds.Nodup)
    (hne : b.launches ≠ []) (s e : String) {ends : List TaskResult} {events : List TaskEvent}
    (run : b.Completes ends events) : ∃ r, MostSevere ends r ∧
      (Handler.ofRoutes (.onResult s e)).verdict events =
        some (.ok ((if ∀ q ∈ ends, q.status = .success then .runTo s
          else (Transition.runTo e).withResult .failed).withLog r.messageOrEmpty r.cause)) := by
  obtain ⟨kept, hkept, hverdict⟩ := run.verdict distinct (h := .ofRoutes (.onResult s e)) rfl
  have hnodup : (ends.map TaskResult.task).Nodup := by rw [run.tasks]; exact distinct
  rw [Handler.ofRoutes, TaskResult.storeAll_of_nodup hnodup] at hkept
  have hends : kept ≠ [] := by
    rintro rfl
    have htasks := run.tasks
    rw [List.nil_perm.1 hkept] at htasks
    exact hne (List.map_eq_nil_iff.1 htasks.symm)
  obtain ⟨r, hmost, hreduce⟩ := Routes.onResult_reduce s e hends
  have hall : (∀ q ∈ kept, q.status = .success) ↔ ∀ q ∈ ends, q.status = .success :=
    ⟨fun hq q hmem => hq q (hkept.mem_iff.2 hmem), fun hq q hmem => hq q (hkept.mem_iff.1 hmem)⟩
  refine ⟨r, hmost.perm hkept, ?_⟩
  rw [hverdict, Handler.ofRoutes, hreduce]
  simp only [hall, concluded_withLog]
  rw [if_pos]
  split <;> rfl

/-- A task that is submitted once. -/
def Launch.once (n : Nat) : Launch :=
  ⟨⟨.ofNat n, ⟨0, 0, 0, .one⟩, fun _ => .succeeds (.ofNat n)⟩, .submit⟩

/-- The task on a seat succeeds. -/
def succeeds (seat : Nat) (message : String) : Nat × Worker.Signal :=
  (seat, .answered (.ok ((TaskResult.success default).withMessage message)))

end Workflow
