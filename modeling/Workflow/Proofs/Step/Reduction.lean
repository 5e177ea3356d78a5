import Workflow.Proofs.Worker.Reports
import Workflow.Step.Listener

/-!
# Workflow.Proofs.Step.Reduction — results that come in another order are reduced alike

A handler keeps one result per task, in order of arrival, and reduces what it keeps to the most
severe result.  If results of distinct tasks arrive in another order, the kept results are the same
but for their order (`storeAll_perm`), and the reduction may at most quote another of equally severe
results (`Agree`).  Nothing is decided before the last event (`hearAll_decision`).
-/

namespace Workflow

namespace TaskResult

/-! ### Keeping results -/

/-- Keeps new results one after the other. -/
def storeAll (new kept : List TaskResult) : List TaskResult :=
  new.foldl (fun kept r => r.store kept) kept

@[simp] theorem storeAll_nil (kept : List TaskResult) : storeAll [] kept = kept := rfl

@[simp] theorem storeAll_cons (r : TaskResult) (new kept : List TaskResult) :
    storeAll (r :: new) kept = storeAll new (r.store kept) := rfl

theorem storeAll_append (new more kept : List TaskResult) :
    storeAll (new ++ more) kept = storeAll more (storeAll new kept) := List.foldl_append

/-- Lists that differ in the order of two neighbours, which are of distinct tasks. -/
inductive Swapped : List TaskResult → List TaskResult → Prop
  | head {q r : TaskResult} (rest : List TaskResult) (h : q.task ≠ r.task) :
    Swapped (q :: r :: rest) (r :: q :: rest)
  | cons (x : TaskResult) {kept kept' : List TaskResult} (h : Swapped kept kept') :
    Swapped (x :: kept) (x :: kept')

theorem Swapped.perm {kept kept' : List TaskResult} (h : Swapped kept kept') :
    kept.Perm kept' := by
  induction h with
  | head rest _ => exact .swap ..
  | cons x _ ih => exact ih.cons x

/-- Whichever task the new result is of, it finds its place on both sides. -/
theorem Swapped.store {kept kept' : List TaskResult} (h : Swapped kept kept') (new : TaskResult) :
    Swapped (new.store kept) (new.store kept') := by
  induction h with
  | @head q r rest h =>
    by_cases hq : q.task = new.task
    · have hr : r.task ≠ new.task := fun hr => h (hq.trans hr.symm)
      simpa [TaskResult.store, hq, hr] using .head rest fun heq => hr heq.symm
    · by_cases hr : r.task = new.task
      · simpa [TaskResult.store, hq, hr] using .head rest hq
      · simpa [TaskResult.store, hq, hr] using .head _ h
  | @cons x kept kept' h ih =>
    by_cases hx : x.task = new.task
    · simpa [TaskResult.store, hx] using .cons new h
    · simpa [TaskResult.store, hx] using .cons x ih

theorem Swapped.storeAll_perm {kept kept' : List TaskResult} (h : Swapped kept kept')
    (new : List TaskResult) : (storeAll new kept).Perm (storeAll new kept') := by
  induction new generalizing kept kept' with
  | nil => exact h.perm
  | cons r new ih => exact ih (h.store r)

/-- Results of distinct tasks are kept in either order, up to the order of two new neighbours. -/
theorem store_store {q r : TaskResult} (h : q.task ≠ r.task) (kept : List TaskResult) :
    r.store (q.store kept) = q.store (r.store kept) ∨
      Swapped (r.store (q.store kept)) (q.store (r.store kept)) := by
  induction kept with
  | nil => exact .inr (by simpa [store, h, Ne.symm h] using .head [] h)
  | cons x kept ih =>
    by_cases hq : x.task = q.task
    · exact .inl (by simp [store, hq, h])
    · by_cases hr : x.task = r.task
      · exact .inl (by simp [store, hr, Ne.symm h])
      · rcases ih with heq | hswapped
        · exact .inl (by simp [store, hq, hr, heq])
        · exact .inr (by simpa [store, hq, hr] using .cons x hswapped)

/-- **Results of distinct tasks may arrive in any order**: what is kept is the same but for its
order. -/
theorem storeAll_perm {new new' : List TaskResult} (h : new.Perm new')
    (distinct : (new.map task).Nodup) (kept : List TaskResult) :
    (storeAll new kept).Perm (storeAll new' kept) := by
  induction h generalizing kept with
  | nil => exact .refl kept
  | cons r _ ih => exact ih (List.nodup_cons.1 distinct).2 (r.store kept)
  | swap q r rest =>
    have hne : r.task ≠ q.task := fun heq => (List.nodup_cons.1 distinct).1 (by simp [heq])
    rcases store_store hne kept with heq | hswapped
    · simp [heq]
    · exact hswapped.storeAll_perm rest
  | trans h _ ih ih' => exact (ih distinct kept).trans (ih' ((h.map task).nodup distinct) kept)

end TaskResult

/-! ### The most severe result -/

theorem Status.severity_injective {s s' : Status} (h : s.severity = s'.severity) : s = s' := by
  cases s <;> cases s' <;> first | rfl | cases h

/-- One of the results, and none is more severe. -/
structure MostSevere (results : List TaskResult) (r : TaskResult) : Prop where
  mem : r ∈ results
  most : ∀ q ∈ results, q.status.severity ≤ r.status.severity

theorem MostSevere.perm {results results' : List TaskResult} {r : TaskResult}
    (h : MostSevere results r) (hp : results.Perm results') : MostSevere results' r :=
  ⟨hp.mem_iff.1 h.mem, fun q hq => h.most q (hp.mem_iff.2 hq)⟩

/-- Results that are the most severe ones have the same status. -/
theorem MostSevere.status_eq {results : List TaskResult} {r r' : TaskResult}
    (h : MostSevere results r) (h' : MostSevere results r') : r.status = r'.status :=
  Status.severity_injective (Nat.le_antisymm (h'.most r h.mem) (h.most r' h'.mem))

namespace Routes

/-- The earlier of two results is kept unless the later one is more severe. -/
theorem worst_cons_cons (w q : TaskResult) (rest : List TaskResult) :
    worst (w :: q :: rest) = worst ((if q.moreSevere w then q else w) :: rest) := by
  unfold worst
  by_cases hq : q.moreSevere w
  · simp [hq]
  · simp [hq]

theorem worst_cons (w : TaskResult) (rest : List TaskResult) :
    ∃ r, worst (w :: rest) = some r ∧ MostSevere (w :: rest) r := by
  induction rest generalizing w with
  | nil => exact ⟨w, rfl, by simp, by simp⟩
  | cons q rest ih =>
    rw [worst_cons_cons]
    by_cases hq : q.moreSevere w
    · -- `q` is more severe than everything before it
      obtain ⟨r, hr, hmost⟩ := ih q
      refine ⟨r, by rw [if_pos hq, hr], List.mem_cons_of_mem w hmost.mem, fun p hp => ?_⟩
      have hwq : w.status.severity < q.status.severity := by
        simpa [TaskResult.moreSevere, Status.moreSevere] using hq
      have hqr := hmost.most q (by simp)
      rcases List.mem_cons.1 hp with rfl | hp
      · omega
      · exact hmost.most p hp
    · -- `w` stays, and is as severe as `q` at least
      obtain ⟨r, hr, hmost⟩ := ih w
      refine ⟨r, by rw [if_neg hq, hr], ?_, fun p hp => ?_⟩
      · rcases List.mem_cons.1 hmost.mem with rfl | hmem
        · simp
        · simp [hmem]
      have hqw : q.status.severity ≤ w.status.severity := by
        simpa [TaskResult.moreSevere, Status.moreSevere] using hq
      have hwr := hmost.most w (by simp)
      rcases List.mem_cons.1 hp with rfl | hp
      · exact hwr
      · rcases List.mem_cons.1 hp with rfl | hp
        · omega
        · exact hmost.most p (by simp [hp])

end Routes

/-! ### Decisions -/

/-- What a listener makes of the reduction: an error or an edge is a decision. -/
def concluded : Except FlowError Transition → Option Decision
  | .error e => some (.error e)
  | .ok t => if t.isEdge then some (.ok t) else none

/-- A log line makes no edge. -/
theorem concluded_withLog (t : Transition) (message : String) (detail : Option String) :
    concluded (.ok (t.withLog message detail)) =
      if t.isEdge then some (.ok (t.withLog message detail)) else none := rfl

/-- Decisions that agree about results.  They are the same, except that both may quote one of the
most severe results, and need not quote the same one: in the log line that is appended to an edge,
or in message and cause of an aggregation error. -/
inductive Agree (results : List TaskResult) : Option Decision → Option Decision → Prop
  | undecided : Agree results none none
  | unquoted (t : Transition) (edge : t.isEdge) : Agree results (some (.ok t)) (some (.ok t))
  | quoted (t : Transition) (edge : t.isEdge) {r r' : TaskResult} (hr : MostSevere results r)
    (hr' : MostSevere results r') :
    Agree results (some (.ok (t.withLog r.messageOrEmpty r.cause)))
      (some (.ok (t.withLog r'.messageOrEmpty r'.cause)))
  | failed {r r' : TaskResult} (hr : MostSevere results r) (hr' : MostSevere results r')
    (same : r.status = r'.status) :
    Agree results (some (.error (.aggregation r.status r.messageOrEmpty r.cause)))
      (some (.error (.aggregation r'.status r'.messageOrEmpty r'.cause)))

theorem Agree.perm {results results' : List TaskResult} {decision decision' : Option Decision}
    (h : Agree results decision decision') (hp : results.Perm results') :
    Agree results' decision decision' := by
  cases h with
  | undecided => exact .undecided
  | unquoted t edge => exact .unquoted t edge
  | quoted t edge hr hr' => exact .quoted t edge (hr.perm hp) (hr'.perm hp)
  | failed hr hr' same => exact .failed (hr.perm hp) (hr'.perm hp) same

/-- The default leads to the same decision, whatever the results. -/
theorem Agree.default (results : List TaskResult) (t : Transition) :
    Agree results (concluded (.ok t)) (concluded (.ok t)) := by
  unfold concluded
  by_cases h : t.isEdge
  · simpa [h] using .unquoted t h
  · simpa [h] using .undecided

namespace Routes

theorem onResult_mapping (s e : String) (status : Status) :
    (onResult s e).mapping status =
      some (if status = .success then .runTo s else (Transition.runTo e).withResult .failed) := by
  cases status <;> simp [onResult, mapTo, Status.all]

/-- With routes by result, success of all leads to the one step, and anything else to the other. -/
theorem onResult_reduce (s e : String) {results : List TaskResult} (h : results ≠ []) :
    ∃ r, MostSevere results r ∧ (onResult s e).reduce results =
      .ok ((if ∀ q ∈ results, q.status = .success then .runTo s
        else (Transition.runTo e).withResult .failed).withLog r.messageOrEmpty r.cause) := by
  cases results with
  | nil => exact absurd rfl h
  | cons w rest =>
    obtain ⟨r, hr, hmost⟩ := worst_cons w rest
    have hall : r.status = .success ↔ ∀ q ∈ w :: rest, q.status = .success := by
      refine ⟨fun hs q hq => ?_, fun hall => hall r hmost.mem⟩
      have := hmost.most q hq
      rw [hs] at this
      exact Status.severity_injective (Nat.le_antisymm this (Nat.zero_le _))
    refine ⟨r, hmost, ?_⟩
    simp only [reduce, hr, onResult_mapping, hall]

end Routes

/-! ### Hearing a whole run of events -/

/-- Before the last event a listener only keeps results. -/
theorem Listener.hear_of_ne_completed (h : Handler) {event : TaskEvent} (he : event ≠ .completed) :
    ((ofHandler h).hear event).1 =
      ofHandler { h with results := TaskResult.storeAll event.result?.toList h.results } := by
  cases event with
  | completed => exact absurd rfl he
  | _ => rfl

theorem Listener.hearAll_concat (l : Listener) (events : List TaskEvent) (event : TaskEvent) :
    (l.hearAll (events ++ [event])).1 = ((l.hearAll events).1.hear event).1 := by
  induction events generalizing l with
  | nil => rfl
  | cons first events ih => exact ih (l.hear first).1

theorem Listener.hearAll_of_ne_completed {h : Handler} {before : List TaskEvent}
    (hb : ∀ event ∈ before, event ≠ .completed) : ((ofHandler h).hearAll before).1 =
      ofHandler { h with
        results := TaskResult.storeAll (before.filterMap TaskEvent.result?) h.results } := by
  induction before generalizing h with
  | nil => rfl
  | cons event before ih =>
    have hheard := hear_of_ne_completed h (hb event (by simp))
    have htoList : (event :: before).filterMap TaskEvent.result? =
        event.result?.toList ++ before.filterMap TaskEvent.result? := by
      cases event <;> rfl
    simp only [hearAll, hheard, htoList, TaskResult.storeAll_append]
    exact ih fun e he => hb e (List.mem_cons_of_mem _ he)

section Completed

variable {h : Handler} {before : List TaskEvent} (hb : ∀ event ∈ before, event ≠ .completed)

include hb

/-- **The decision of a listener** that has heard everything is that of the kept results. -/
theorem Listener.hearAll_decision (hp : h.processor = none) :
    ((ofHandler h).hearAll (before ++ [.completed])).1.decision =
      concluded (h.routes.reduce
        (TaskResult.storeAll (before.filterMap TaskEvent.result?) h.results)) := by
  rw [hearAll_concat, hearAll_of_ne_completed hb]
  simp only [hear, ofHandler, Handler.hear, Handler.handle, Handler.decide, hp]
  cases h.routes.reduce (TaskResult.storeAll (before.filterMap TaskEvent.result?) h.results) <;> rfl

/-- The last event changes nothing about the results that are kept. -/
theorem Listener.hearAll_results :
    ((ofHandler h).hearAll (before ++ [.completed])).1.handler.results =
      TaskResult.storeAll (before.filterMap TaskEvent.result?) h.results := by
  rw [hearAll_concat, hearAll_of_ne_completed hb]
  generalize kept : ({ h with
    results := TaskResult.storeAll (before.filterMap TaskEvent.result?) h.results } : Handler) = h'
  have results : h'.results = TaskResult.storeAll (before.filterMap TaskEvent.result?) h.results :=
    kept ▸ rfl
  simp only [hear, ofHandler, Handler.hear, Handler.handle]
  rw [← results]
  cases h'.decide h'.results <;> rfl

end Completed

end Workflow
