import Workflow.Proofs.Batch.Completion
import Workflow.Proofs.Worker.Yield

/-!
# Workflow.Proofs.Batch.Harvest — a batch whose launches yield results comes to these results

If every launch of a batch yields a result, whatever happens at the same time, then the seats of its
crew yield these results in launch order and make a known number of polls together: as many as the
workers make that have not ended.  A step of the crew takes its polls off this number and leaves the
results as they are (`TimedCrew.step?_yields`), so a crew that is done has just these results
(`TimedCrew.SeatsYield.ends`).  The tasks of the batch must be distinct, for polls are counted per
task.
-/

namespace Workflow

theorem Worker.start_task (l : Launch) : (Worker.start l).1.task = l.job.id :=
  (Worker.start_reports l).task

namespace TimedWorker

theorem start_task (l : Launch) (now : Nat) : (start l now).1.worker.task = l.job.id :=
  (congrArg Worker.task (arrange_events ..).1).trans (Worker.start_task l)

theorem fire_task (w : TimedWorker) (now : Nat) (counts : PollCounts) :
    (w.fire now counts).worker.worker.task = w.worker.task := by
  cases w.fire_reacts now counts with
  | signal s h =>
    rw [← Worker.react_task w.worker s, h]
  | quiet h _ => exact congrArg Worker.task h

theorem Yields.of_result {w : TimedWorker} {r r' : TaskResult} {polls : Nat} {counts : PollCounts}
    (h : w.Yields r polls counts) (done : w.worker.result? = some r') : r = r' ∧ polls = 0 := by
  cases h with
  | ended h => exact ⟨Option.some.inj (h.symm.trans done), rfl⟩
  | fires going => cases going.symm.trans done

end TimedWorker

namespace TimedCrew

/-! ### Seats -/

/-- The seat yields a result for its task, after so many polls. -/
inductive SeatYields (counts : PollCounts) (r : TaskResult) : Seat TimedWorker → Nat → Prop
  | waiting {l : Launch} {polls : Nat} (own : r.task = l.job.id) (yields : l.Yields r polls)
    (fresh : ∀ key, counts.asked (key, l.job.id) = 0) : SeatYields counts r (.waiting l) polls
  | running {w : TimedWorker} {polls : Nat} (own : r.task = w.worker.task)
    (yields : w.Yields r polls counts) : SeatYields counts r (.running w) polls
  | finished : SeatYields counts r (.finished r) 0

/-- The seats yield these results in launch order, after so many polls together. -/
inductive SeatsYield (counts : PollCounts) :
    List (Seat TimedWorker) → List TaskResult → Nat → Prop
  | nil : SeatsYield counts [] [] 0
  | cons {seat : Seat TimedWorker} {seats : List (Seat TimedWorker)} {r : TaskResult}
    {rs : List TaskResult} {polls more : Nat} (h : SeatYields counts r seat polls)
    (rest : SeatsYield counts seats rs more) :
    SeatsYield counts (seat :: seats) (r :: rs) (polls + more)

section SeatsYield

variable {counts after : PollCounts} {seats : List (Seat TimedWorker)} {rs : List TaskResult}
  {polls : Nat}

theorem SeatYields.later {r : TaskResult} {seat : Seat TimedWorker}
    (h : SeatYields counts r seat polls) (same : PollCounts.SameFor r.task counts after) :
    SeatYields after r seat polls := by
  cases h with
  | waiting own yields fresh =>
    exact .waiting own yields fun key => (own ▸ same.asked key).trans (fresh key)
  | running own yields => exact .running own (yields.later (own ▸ same))
  | finished => exact .finished

theorem SeatsYield.later (h : SeatsYield counts seats rs polls)
    (same : ∀ r ∈ rs, PollCounts.SameFor r.task counts after) :
    SeatsYield after seats rs polls := by
  induction h with
  | nil => exact .nil
  | cons h _ ih =>
    obtain ⟨first, rest⟩ := List.forall_mem_cons.1 same
    exact .cons (h.later first) (ih rest)

/-- A worker that starts yields what its seat has yielded. -/
theorem SeatsYield.fills (h : SeatsYield counts seats rs polls) {now : Nat}
    {permits left : Option Nat} {filled : List (Seat TimedWorker)}
    (fills : Crew.Fills (TimedWorker.staff now) permits seats left filled) :
    SeatsYield counts filled rs polls := by
  induction fills generalizing rs polls with
  | nil => exact h
  | full => exact h
  | @starts _ _ l _ _ _ _ _ ih =>
    cases h with
    | cons first rest =>
      cases first with
      | waiting own yields fresh =>
        have task : _ = (TimedWorker.start l now).1.worker.task :=
          own.trans (TimedWorker.start_task l now).symm
        exact .cons (.running task (yields now counts fresh)) (ih rest)
  | ends done _ ih =>
    cases h with
    | cons first rest =>
      cases first with
      | waiting own yields fresh =>
        obtain ⟨rfl, rfl⟩ := (yields now counts fresh).of_result done
        exact .cons .finished (ih rest)
  | keeps _ _ ih =>
    cases h with
    | cons first rest => exact .cons first (ih rest)

/-- One seat and what it yields; the other seats yield what they do as long as nothing is polled for
their tasks. -/
theorem SeatsYield.at {i : Nat} {seat : Seat TimedWorker} (h : SeatsYield counts seats rs polls)
    (hi : seats[i]? = some seat) : ∃ before r after mine others, rs = before ++ r :: after ∧
      mine + others = polls ∧ SeatYields counts r seat mine ∧
      ∀ later, (∀ q ∈ before ++ after, PollCounts.SameFor q.task counts later) → ∀ seat' mine',
        SeatYields later r seat' mine' →
          SeatsYield later (seats.set i seat') rs (mine' + others) := by
  induction h generalizing i with
  | nil => simp at hi
  | @cons first seats r rs mine more h rest ih =>
    cases i with
    | zero =>
      obtain rfl : first = seat := by simpa using hi
      exact ⟨[], r, rs, mine, more, rfl, rfl, h, fun _ same _ _ h' => .cons h' (rest.later same)⟩
    | succ i =>
      obtain ⟨before, r', after, mine', others, rfl, total, yields, set⟩ := ih (by simpa using hi)
      refine ⟨r :: before, r', after, mine', mine + others, rfl, by omega, yields,
        fun later same seat' polls' h' => ?_⟩
      obtain ⟨own, others'⟩ := List.forall_mem_cons.1 (List.cons_append ▸ same)
      have next := SeatsYield.cons (h.later own) (set later others' seat' polls' h')
      rwa [show polls' + (mine + others) = mine + (polls' + others) by omega]

/-- Seats that are all finished have the results that they were to yield. -/
theorem SeatsYield.finished (h : SeatsYield counts seats rs polls)
    (done : seats.all Seat.isFinished) : seats.filterMap Seat.result? = rs ∧ polls = 0 := by
  induction h with
  | nil => exact ⟨rfl, rfl⟩
  | cons h _ ih =>
    obtain ⟨first, rest⟩ : _ ∧ _ := by simpa using done
    cases h with
    | waiting => cases first
    | running => cases first
    | finished =>
      obtain ⟨results, polls⟩ := ih (by simpa using rest)
      exact ⟨by simp [Seat.result?, results], by omega⟩

end SeatsYield

/-! ### Crews -/

section Crew

variable {c : TimedCrew} {counts : PollCounts} {rs : List TaskResult} {polls : Nat}

/-- A crew that is done has the results that its seats were to yield, and makes no more polls. -/
theorem SeatsYield.ends (h : SeatsYield counts c.seats rs polls) (done : c.isDone) :
    c.ends = rs ∧ polls = 0 := h.finished done

theorem SeatsYield.refill (h : SeatsYield counts c.seats rs polls) (now : Nat) :
    SeatsYield counts (c.refill (TimedWorker.staff now)).1.seats rs polls :=
  h.fills (Crew.fill_fills ..)

/-- **What is polled in one step is taken off what the seats have left to poll**, and the results
that they yield stay the same. -/
theorem step?_yields {limit : Option Nat} (staffed : Crew.Staffed TimedWorker.worker limit c)
    (distinct : (rs.map TaskResult.task).Nodup) (h : SeatsYield counts c.seats rs polls) {now : Nat}
    {s : Stepped} (hs : c.step? now counts = some s) :
    TraceEntry.Fits s.trace ∧ ∃ more, TraceEntry.polls s.trace + more = polls ∧
      SeatsYield s.counts s.crew.seats rs more := by
  unfold step? at hs
  obtain ⟨i, -, hs⟩ := Option.bind_eq_some_iff.1 hs
  obtain ⟨w, running, hs⟩ := Option.bind_eq_some_iff.1 hs
  cases hs
  have hi := Crew.seat_of_worker running
  have going := staffed.going w (List.mem_of_getElem? hi)
  obtain ⟨before, r, after, mine, others, rfl, total, yields, set⟩ := h.at hi
  cases yields with
  | running own yields =>
    cases yields with
    | ended done => cases going.symm.trans done
    | @fires _ made left _ _ traced next =>
      obtain ⟨made_, fits⟩ := traced now counts (.refl _ _)
      refine ⟨fits, left + others, by simp only; omega, ?_⟩
      -- only the task of the worker that fires is polled
      have apart : ∀ q ∈ before ++ after,
          PollCounts.SameFor q.task counts (w.fire now counts).counts := by
        intro q hq
        refine w.fire_sameFor (fun same => ?_) now counts
        have unique := (List.perm_middle.map TaskResult.task).nodup_iff.1 distinct
        rw [List.map_cons, List.nodup_cons] at unique
        exact unique.1 (own.trans same.symm ▸ List.mem_map_of_mem hq)
      have goes := next now counts (.refl _ _)
      have task : r.task = (w.fire now counts).worker.worker.task :=
        own.trans (w.fire_task now counts).symm
      change SeatsYield _ (c.update _ i _ _).1.seats _ _
      unfold Crew.update
      cases result : (TimedWorker.staff now).result? (w.fire now counts).worker with
      | none => exact set _ apart _ _ (.running task goes)
      | some r' =>
        obtain ⟨rfl, rfl⟩ := goes.of_result result
        exact (set _ apart _ _ .finished).refill now

end Crew

end TimedCrew

/-- The launches of a batch that were not polled before yield these results. -/
inductive Launch.AllYield : List Launch → List TaskResult → Nat → Prop
  | nil : AllYield [] [] 0
  | cons {l : Launch} {launches : List Launch} {r : TaskResult} {rs : List TaskResult}
    {polls more : Nat} (own : r.task = l.job.id) (h : l.Yields r polls)
    (rest : AllYield launches rs more) : AllYield (l :: launches) (r :: rs) (polls + more)

namespace Launch.AllYield

variable {launches more : List Launch} {rs results : List TaskResult} {polls n : Nat}

theorem append (h : AllYield launches rs polls) (h' : AllYield more results n) :
    AllYield (launches ++ more) (rs ++ results) (polls + n) := by
  induction h with
  | nil => simpa using h'
  | cons own h _ ih =>
    have both := AllYield.cons own h ih
    rwa [← Nat.add_assoc] at both

/-- The crew of a batch that starts yields what its launches yield. -/
theorem assemble {b : Batch} (h : AllYield b.launches rs polls) {counts : PollCounts}
    (fresh : ∀ key, ∀ l ∈ b.launches, counts.asked (key, l.job.id) = 0) (now : Nat) :
    TimedCrew.SeatsYield counts (TimedCrew.assemble b now).1.seats rs polls := by
  have waits : TimedCrew.SeatsYield counts (b.launches.map .waiting) rs polls := by
    generalize b.launches = launches at h fresh
    induction h with
    | nil => exact .nil
    | cons own h _ ih =>
      refine .cons (.waiting own h fun key => fresh key _ List.mem_cons_self)
        (ih fun key l hl => ?_)
      exact fresh key l (List.mem_cons_of_mem _ hl)
  exact waits.fills (Crew.fill_fills ..)

end Launch.AllYield

end Workflow
