import Workflow.Proofs.Batch.Permits
import Workflow.Proofs.Worker.Termination

/-!
# Workflow.Proofs.Batch.Completion — a batch whose calls answer completes

Whatever is due happens in any order and at any time from then on, and others may ask the same
monitors meanwhile.  Every step is one of some running worker, which has only so many of them left;
while launches wait some worker runs, so that the batch has completed after as many steps as all its
workers have together (`Batch.finishesWithin`).  Only a batch with launches and without permits
never completes: nothing is ever due in it (`Batch.finishes_iff`).
-/

namespace Workflow

/-! ### Steps of a crew -/

/-- Something that is due happens to a running worker. -/
inductive TimedCrew.Moves (c : TimedCrew) (counts : PollCounts) : TimedCrew.Stepped → Prop
  | fires {i : Nat} {w : TimedWorker} {time now : Nat} {later : PollCounts}
    (running : c.worker? i = some w) (due : w.due = some time) (passed : time ≤ now)
    (grown : counts.Grown later) :
    Moves c counts
      ⟨(c.update (TimedWorker.staff now) i (w.fire now later).worker (w.fire now later).events).1,
        (w.fire now later).counts,
        (c.update (TimedWorker.staff now) i (w.fire now later).worker (w.fire now later).events).2,
        (w.fire now later).trace⟩

/-- Whatever happens, after at most so many steps the batch has reported that it has completed, and
until then there is always a next step. -/
inductive TimedCrew.FinishesWithin : Nat → TimedCrew → PollCounts → List TaskEvent → Prop
  | completed {n : Nat} {c : TimedCrew} {counts : PollCounts} {told : List TaskEvent}
    (h : .completed ∈ told) : FinishesWithin n c counts told
  | moves {n : Nat} {c : TimedCrew} {counts : PollCounts} {told : List TaskEvent}
    (possible : ∃ s, c.Moves counts s)
    (next : ∀ s, c.Moves counts s → FinishesWithin n s.crew s.counts (told ++ s.events)) :
    FinishesWithin (n + 1) c counts told

/-- A batch that starts now completes after finitely many steps. -/
def Batch.Finishes (b : Batch) (now : Nat) (counts : PollCounts) : Prop :=
  ∃ n, TimedCrew.FinishesWithin n (TimedCrew.assemble b now).1 counts (TimedCrew.assemble b now).2

theorem Crew.Runs.completed_mem {W : Type} {bare : W → Worker} {b : Batch} {c : Crew W}
    {told : List TaskEvent} (h : Crew.Runs bare b c told) (done : c.isDone) :
    .completed ∈ told := by
  obtain ⟨_, _, _, _, rfl⟩ := h.reported
  simp [done]

namespace TimedCrew

/-- A step in virtual time is such a step. -/
theorem step?_moves {c : TimedCrew} {now : Nat} {counts : PollCounts} {s : Stepped}
    (h : c.step? now counts = some s) : c.Moves counts s := by
  unfold step? at h
  obtain ⟨i, hi, h⟩ := Option.bind_eq_some_iff.1 h
  obtain ⟨w, hw, h⟩ := Option.bind_eq_some_iff.1 h
  cases h
  obtain ⟨hlt, passed, -⟩ := List.findIdx?_eq_some_iff_getElem.1 hi
  have seat : c.seats[i] = .running w := by
    have hget := Crew.seat_of_worker hw
    rwa [List.getElem?_eq_getElem hlt, Option.some.injEq] at hget
  rw [seat, seatDue, Option.any_eq_true] at passed
  obtain ⟨time, due, passed⟩ := passed
  exact .fires hw due (by simpa using passed) (.refl counts)

/-! ### Steps that are left -/

/-- How many steps a seat has left at most. -/
inductive SeatEndsWithin (counts : PollCounts) : Seat TimedWorker → Nat → Prop
  | waiting {launch : Launch} {n : Nat}
    (h : ∀ now later, (TimedWorker.start launch now).1.EndsWithin n later) :
    SeatEndsWithin counts (.waiting launch) n
  | running {w : TimedWorker} {n : Nat} (h : w.EndsWithin n counts) :
    SeatEndsWithin counts (.running w) n
  | finished (r : TaskResult) (n : Nat) : SeatEndsWithin counts (.finished r) n

/-- How many steps the seats have left together. -/
inductive SeatsEndWithin (counts : PollCounts) : List (Seat TimedWorker) → Nat → Prop
  | nil : SeatsEndWithin counts [] 0
  | cons {seat : Seat TimedWorker} {seats : List (Seat TimedWorker)} {n more : Nat}
    (h : SeatEndsWithin counts seat n) (rest : SeatsEndWithin counts seats more) :
    SeatsEndWithin counts (seat :: seats) (n + more)

section SeatsEndWithin

variable {counts after : PollCounts} {seats : List (Seat TimedWorker)} {n : Nat}

theorem SeatEndsWithin.later {seat : Seat TimedWorker} (h : SeatEndsWithin counts seat n)
    (grown : counts.Grown after) : SeatEndsWithin after seat n := by
  cases h with
  | waiting h => exact .waiting h
  | running h => exact .running (h.later grown)
  | finished r n => exact .finished r n

theorem SeatsEndWithin.later (h : SeatsEndWithin counts seats n) (grown : counts.Grown after) :
    SeatsEndWithin after seats n := by
  induction h with
  | nil => exact .nil
  | cons h _ ih => exact .cons (h.later grown) ih

/-- A worker that starts has as many steps left as its seat had. -/
theorem SeatsEndWithin.fills (h : SeatsEndWithin counts seats n) {now : Nat}
    {permits left : Option Nat} {filled : List (Seat TimedWorker)}
    (fills : Crew.Fills (TimedWorker.staff now) permits seats left filled) :
    SeatsEndWithin counts filled n := by
  induction fills generalizing n with
  | nil => exact h
  | full => exact h
  | starts _ _ _ ih =>
    cases h with
    | cons first rest =>
      cases first with
      | waiting starts => exact .cons (.running (starts now counts)) (ih rest)
  | ends _ _ ih =>
    cases h with
    | cons _ rest => exact .cons (.finished _ _) (ih rest)
  | keeps _ _ ih =>
    cases h with
    | cons first rest => exact .cons first (ih rest)

/-- One seat with what it has left, and the others, which later have no more left than now. -/
theorem SeatsEndWithin.at {i : Nat} {seat : Seat TimedWorker} (h : SeatsEndWithin counts seats n)
    (hi : seats[i]? = some seat) : ∃ mine others, mine + others = n ∧
      SeatEndsWithin counts seat mine ∧ ∀ after, counts.Grown after → ∀ seat' mine',
        SeatEndsWithin after seat' mine' →
          SeatsEndWithin after (seats.set i seat') (mine' + others) := by
  induction h generalizing i with
  | nil => simp at hi
  | @cons first seats n more h rest ih =>
    cases i with
    | zero =>
      obtain rfl : first = seat := by simpa using hi
      exact ⟨n, more, rfl, h, fun _ grown _ _ h' => .cons h' (rest.later grown)⟩
    | succ i =>
      obtain ⟨mine, others, total, ends, set⟩ := ih (by simpa using hi)
      refine ⟨mine, n + others, by omega, ends, fun after grown seat' mine' h' => ?_⟩
      have next := SeatsEndWithin.cons (h.later grown) (set after grown seat' mine' h')
      rwa [show mine' + (n + others) = n + (mine' + others) by omega]

theorem SeatsEndWithin.ofLaunches {launches : List Launch} (h : ∀ l ∈ launches, l.Answers) :
    ∃ n, ∀ counts, SeatsEndWithin counts (launches.map .waiting) n := by
  induction launches with
  | nil => exact ⟨0, fun _ => .nil⟩
  | cons l launches ih =>
    obtain ⟨more, rest⟩ := ih fun l hl => h l (List.mem_cons_of_mem _ hl)
    obtain ⟨n, ends⟩ := (h l List.mem_cons_self).ends
    exact ⟨n + more, fun counts => .cons (.waiting ends) (rest counts)⟩

end SeatsEndWithin

/-! ### One step -/

section Step

variable {c : TimedCrew} {counts : PollCounts} {limit : Option Nat}
  (staffed : Crew.Staffed TimedWorker.worker limit c)

include staffed

/-- A running worker has a next step, with which it has one step less left. -/
theorem SeatsEndWithin.running {n : Nat} (h : SeatsEndWithin counts c.seats n) {i : Nat}
    {w : TimedWorker} (hw : c.worker? i = some w) : w.due ≠ none ∧
      ∃ left, n = left + 1 ∧ ∀ now later, counts.Grown later → ∀ seat',
        (∀ mine, (w.fire now later).worker.EndsWithin mine (w.fire now later).counts →
          SeatEndsWithin (w.fire now later).counts seat' mine) →
        SeatsEndWithin (w.fire now later).counts (c.seats.set i seat') left := by
  have hi := Crew.seat_of_worker hw
  obtain ⟨mine, others, rfl, ends, set⟩ := h.at hi
  cases ends with
  | running ends =>
    cases ends with
    | ended done => exact absurd (staffed.going w (List.mem_of_getElem? hi)) done
    | @fires _ left _ due next =>
      refine ⟨due, left + others, by omega, fun now later grown seat' next' => ?_⟩
      exact set _ (grown.trans (w.fire_grown now later)) seat' left
        (next' left (next now later grown))

/-- As long as a crew with permits is not done, something can happen in it. -/
theorem exists_moves (positive : limit ≠ some 0) {n : Nat} (h : SeatsEndWithin counts c.seats n)
    (going : c.isDone = false) : ∃ s, c.Moves counts s := by
  obtain ⟨i, w, running⟩ := staffed.progress positive going
  obtain ⟨time, due⟩ := Option.ne_none_iff_exists'.1 (h.running staffed running).1
  exact ⟨_, .fires running due (Nat.le_refl time) (.refl counts)⟩

variable {s : Stepped} (moves : c.Moves counts s)

include moves

/-- A step is one of those that are left. -/
theorem Moves.seatsEndWithin {n : Nat} (h : SeatsEndWithin counts c.seats n) :
    ∃ left, n = left + 1 ∧ SeatsEndWithin s.counts s.crew.seats left := by
  obtain @⟨i, w, time, now, later, running, due, passed, grown⟩ := moves
  obtain ⟨-, left, same, set⟩ := h.running staffed running
  refine ⟨left, same, ?_⟩
  unfold Crew.update
  cases hr : (TimedWorker.staff now).result? (w.fire now later).worker with
  | none => exact set now later grown _ fun _ ends => .running ends
  | some r =>
    exact (set now later grown (.finished r) fun mine _ => .finished r mine).fills
      (Crew.fill_fills ..)

end Step

theorem Moves.runs {b : Batch} {c : TimedCrew} {counts : PollCounts} {told : List TaskEvent}
    (h : Crew.Runs TimedWorker.worker b c told) {s : Stepped} (moves : c.Moves counts s) :
    Crew.Runs TimedWorker.worker b s.crew (told ++ s.events) := by
  obtain ⟨running, due, passed, grown⟩ := moves
  exact h.update (TimedWorker.staff_employs _) running (TimedWorker.fire_reacts ..)

/-! ### All steps -/

/-- With permits a batch finishes in the steps that its seats have left. -/
theorem finishesWithin {b : Batch} (positive : b.policy.maxConcurrency.map UInt64.toNat ≠ some 0)
    (n : Nat) {c : TimedCrew} {counts : PollCounts} {told : List TaskEvent}
    (runs : Crew.Runs TimedWorker.worker b c told) (h : SeatsEndWithin counts c.seats n) :
    FinishesWithin n c counts told := by
  induction n generalizing c counts told with
  | zero =>
    cases done : c.isDone with
    | true => exact .completed (runs.completed_mem done)
    | false =>
      obtain ⟨s, moves⟩ := exists_moves runs.staffed positive h done
      obtain ⟨left, zero, -⟩ := moves.seatsEndWithin runs.staffed h
      cases zero
  | succ n ih =>
    cases done : c.isDone with
    | true => exact .completed (runs.completed_mem done)
    | false =>
      refine .moves (exists_moves runs.staffed positive h done) fun s moves => ?_
      obtain ⟨left, same, ends⟩ := moves.seatsEndWithin runs.staffed h
      cases same
      exact ih (moves.runs runs) ends

/-! ### Virtual time -/

theorem earlier_eq_some {a b : Option Nat} {first : Nat} (h : earlier a b = some first) :
    a = some first ∨ b = some first := by
  cases a <;> cases b <;> simp [earlier] at h ⊢ <;> omega

/-- The earliest of some times is one of them. -/
theorem foldl_earlier_source {times : List (Option Nat)} {acc : Option Nat} {first : Nat}
    (h : times.foldl earlier acc = some first) : acc = some first ∨ some first ∈ times := by
  induction times generalizing acc with
  | nil => exact .inl h
  | cons t times ih =>
    rcases ih h with now | later
    · exact (earlier_eq_some now).imp id fun (same : t = some first) => same ▸ List.mem_cons_self
    · exact .inr (List.mem_cons_of_mem _ later)

theorem foldl_earlier (times : List (Option Nat)) {acc : Option Nat} {time : Nat}
    (h : acc = some time ∨ some time ∈ times) : ∃ first, times.foldl earlier acc = some first ∧
      (acc = some first ∨ some first ∈ times) := by
  suffices found : ∃ first, times.foldl earlier acc = some first by
    obtain ⟨first, hfirst⟩ := found
    exact ⟨first, hfirst, foldl_earlier_source hfirst⟩
  induction times generalizing acc time with
  | nil => exact ⟨time, h.resolve_right (by simp)⟩
  | cons t times ih =>
    have next : ∃ time, earlier acc t = some time ∨ some time ∈ times := by
      cases acc with
      | some a => cases t <;> exact ⟨_, .inl rfl⟩
      | none =>
        refine ⟨time, (List.mem_cons.1 (h.resolve_left (by simp))).imp (fun same => ?_) id⟩
        rw [← same]
        rfl
    obtain ⟨time, next⟩ := next
    exact ih next

theorem worker?_of_seatDue {c : TimedCrew} {j : Nat} {seat : Seat TimedWorker}
    (hj : c.seats[j]? = some seat) {time : Nat} (h : seatDue seat = some time) :
    ∃ w, c.worker? j = some w := by
  cases seat with
  | running w => exact ⟨w, by simp [Crew.worker?, hj]⟩
  | waiting _ => cases h
  | finished _ => cases h

/-- Something that is due happens. -/
theorem step?_of_due {c : TimedCrew} {time now : Nat} (h : due c = some time) (passed : time ≤ now)
    (counts : PollCounts) : ∃ s, c.step? now counts = some s := by
  obtain ⟨seat, hseat, hdue⟩ :=
    List.mem_map.1 ((foldl_earlier_source h).resolve_left (by simp))
  cases hi : c.seats.findIdx? fun seat => (seatDue seat).any (· ≤ now) with
  | none =>
    have late := List.findIdx?_eq_none_iff.1 hi seat hseat
    simp [hdue] at late
    omega
  | some j =>
    obtain ⟨hlt, passed, -⟩ := List.findIdx?_eq_some_iff_getElem.1 hi
    obtain ⟨earliest, hj, -⟩ := (Option.any_eq_true _ _).1 passed
    obtain ⟨w', hw'⟩ := worker?_of_seatDue (List.getElem?_eq_getElem hlt) hj
    exact ⟨_, by simp [step?, hi, hw']; rfl⟩

/-- Where something can happen, virtual time gets to the next thing that does. -/
theorem step?_of_moves {c : TimedCrew} {counts : PollCounts} (possible : ∃ s, c.Moves counts s) :
    ∃ now s, due c = some now ∧ c.step? now counts = some s := by
  obtain ⟨_, @⟨i, w, time, _, _, running, hdue, -, -⟩⟩ := possible
  have hw : some time ∈ c.seats.map seatDue :=
    List.mem_map.2 ⟨.running w, List.mem_of_getElem? (Crew.seat_of_worker running), hdue⟩
  obtain ⟨now, first, -⟩ := foldl_earlier _ (.inr hw : none = some time ∨ _)
  obtain ⟨s, hs⟩ := step?_of_due first (Nat.le_refl now) counts
  exact ⟨now, s, first, hs⟩

/-- A crew without running workers stays as it is. -/
theorem run_of_idle {c : TimedCrew} (idle : ∀ i, c.worker? i = none) (limit fuel : Nat)
    (counts : PollCounts) (past : Timeline) : run limit fuel c counts past = (c, past) := by
  have no_step : ∀ now, c.step? now counts = none := by simp [step?, idle]
  cases fuel with
  | zero => rfl
  | succ fuel =>
    unfold run
    split
    · rfl
    · split
      · rfl
      · rw [no_step]

/-- A batch that completes whatever happens completes in virtual time, if it is given enough. -/
theorem FinishesWithin.run {n : Nat} {c : TimedCrew} {counts : PollCounts} {events : List TaskEvent}
    (h : FinishesWithin n c counts events) {past : Timeline} (hpast : told past = events) :
    ∃ enough fuel, ∀ limit, enough ≤ limit →
      .completed ∈ told (run limit fuel c counts past).2 := by
  induction h generalizing past with
  | completed h => exact ⟨0, 0, fun _ _ => hpast ▸ h⟩
  | moves possible _ ih =>
    obtain ⟨now, s, hdue, hs⟩ := step?_of_moves possible
    have extended := told_extend past now s.events s.trace
    rw [hpast] at extended
    obtain ⟨enough, fuel, completes⟩ := ih s (step?_moves hs) extended
    refine ⟨max (now + 1) enough, fuel + 1, fun limit hlimit => ?_⟩
    have before : ¬limit ≤ now := by omega
    simp only [TimedCrew.run, hdue, before, hs, if_false]
    exact completes limit (by omega)

end TimedCrew

/-! ### Batches -/

namespace Batch

variable {b : Batch}

/-- A batch with launches and without permits has nothing to report. -/
theorem assemble_of_no_permits {W : Type} (staff : Staff W)
    (none_ : b.policy.maxConcurrency = some 0) (launches : b.launches ≠ []) :
    Crew.assemble staff b = (⟨b.launches.map .waiting, some 0, []⟩, []) := by
  obtain ⟨l, rest, hl⟩ := List.exists_cons_of_ne_nil launches
  simp [Crew.assemble, Crew.refill, Crew.fill, none_, hl, Crew.isDone, Seat.isFinished]

theorem limit_ne_zero (h : b.policy.maxConcurrency ≠ some 0) :
    b.policy.maxConcurrency.map UInt64.toNat ≠ some 0 := by
  intro none_
  obtain ⟨n, hn, zero⟩ := Option.map_eq_some_iff.1 none_
  exact h (by rw [hn, UInt64.toNat.inj (zero.trans rfl : n.toNat = (0 : UInt64).toNat)])

/-- **A batch with permits whose calls answer completes**, in a number of steps that does not depend
on when they are made. -/
theorem finishesWithin (answers : ∀ l ∈ b.launches, l.Answers)
    (permits : b.policy.maxConcurrency ≠ some 0) : ∃ n, ∀ now counts,
      TimedCrew.FinishesWithin n (TimedCrew.assemble b now).1 counts
        (TimedCrew.assemble b now).2 := by
  obtain ⟨n, ends⟩ := TimedCrew.SeatsEndWithin.ofLaunches answers
  refine ⟨n, fun now counts => ?_⟩
  have employs := TimedWorker.staff_employs now
  exact TimedCrew.finishesWithin (limit_ne_zero permits) n (.assemble employs)
    ((ends counts).fills (Crew.fill_fills ..))

/-- Without permits no worker of a batch ever runs. -/
theorem idle_of_no_permits (none_ : b.policy.maxConcurrency = some 0) (now i : Nat) :
    (TimedCrew.assemble b now).1.worker? i = none := by
  have runs : Crew.Runs TimedWorker.worker b _ _ := .assemble (TimedWorker.staff_employs now)
  have staffed := runs.staffed
  rw [none_] at staffed
  exact staffed.idle i

/-- **Just a batch with launches and without permits does not complete.** -/
theorem finishes_iff (answers : ∀ l ∈ b.launches, l.Answers) (now : Nat) (counts : PollCounts) :
    b.Finishes now counts ↔ b.policy.maxConcurrency ≠ some 0 ∨ b.launches = [] := by
  constructor
  · rintro ⟨n, finishes⟩
    by_cases none_ : b.policy.maxConcurrency = some 0
    · refine .inr (Classical.byContradiction fun launches => ?_)
      -- with no permits nothing starts, and a launch is left
      cases finishes with
      | completed h =>
        rw [TimedCrew.assemble, assemble_of_no_permits _ none_ launches] at h
        cases h
      | moves possible =>
        obtain ⟨s, running, -, -, -⟩ := possible
        cases (idle_of_no_permits none_ now _).symm.trans running
    · exact .inl none_
  · rintro (permits | nothing)
    · obtain ⟨n, finishes⟩ := finishesWithin answers permits
      exact ⟨n, finishes now counts⟩
    · -- without launches the batch is completed as it starts
      have runs : Crew.Runs TimedWorker.worker b _ _ := .assemble (TimedWorker.staff_employs now)
      refine ⟨0, .completed (runs.completed_mem ?_)⟩
      simp [Crew.assemble, Crew.refill, nothing, Crew.fill, Crew.isDone]

/-- The same in virtual time. -/
theorem runAlone_completes_iff (answers : ∀ l ∈ b.launches, l.Answers) :
    (∃ limit fuel, .completed ∈ TimedCrew.told (TimedCrew.runAlone b limit fuel).2) ↔
      b.policy.maxConcurrency ≠ some 0 ∨ b.launches = [] := by
  have start : TimedCrew.told (Timeline.empty.extend 0 (TimedCrew.assemble b 0).2 []) =
      (TimedCrew.assemble b 0).2 := TimedCrew.told_extend ..
  constructor
  · rintro ⟨limit, fuel, completed⟩
    by_cases none_ : b.policy.maxConcurrency = some 0
    · refine .inr (Classical.byContradiction fun launches => ?_)
      have alone : TimedCrew.runAlone b limit fuel = TimedCrew.run limit fuel
        (TimedCrew.assemble b 0).1 .empty (Timeline.empty.extend 0 (TimedCrew.assemble b 0).2 []) :=
        rfl
      rw [alone, TimedCrew.run_of_idle (idle_of_no_permits none_ 0), start, TimedCrew.assemble,
        assemble_of_no_permits _ none_ launches] at completed
      cases completed
    · exact .inl none_
  · intro h
    obtain ⟨n, finishes⟩ := (finishes_iff answers 0 .empty).2 h
    obtain ⟨enough, fuel, completes⟩ := finishes.run start
    exact ⟨enough, fuel, completes enough (Nat.le_refl _)⟩

end Batch

end Workflow
