import Workflow.Proofs.Batch.Roster
import Workflow.Proofs.Batch.Runs

/-!
# Workflow.Proofs.Batch.Permits — permits are neither lost nor made

Every running worker holds one permit, and a worker that is done gives its permit back, whatever it
was that ended it.  So as many permits are free or held as there were at first, and while a launch
waits none is free (`Crew.Staffed`).  A batch that has any permits therefore always has a running
worker until it is done (`Crew.Staffed.progress`), and one that has none never starts a worker.
-/

namespace Workflow

/-- Whether a worker runs on the seat. -/
def Seat.isRunning {W : Type} : Seat W → Bool
  | .running _ => true
  | _ => false

namespace Crew

section Fills

variable {W : Type} (staff : Staff W)

/-- What filling seats does with each of them, and with the permits. -/
inductive Fills : Option Nat → List (Seat W) → Option Nat → List (Seat W) → Prop
  | nil (permits : Option Nat) : Fills permits [] permits []
  /-- No permit is free. -/
  | full (launch : Launch) (seats : List (Seat W)) :
    Fills (some 0) (.waiting launch :: seats) (some 0) (.waiting launch :: seats)
  /-- A worker starts and takes a permit. -/
  | starts {permits left : Option Nat} {launch : Launch} {seats filled : List (Seat W)}
    (free : permits ≠ some 0) (going : staff.result? (staff.start launch).1 = none)
    (rest : Fills (permits.map (· - 1)) seats left filled) :
    Fills permits (.waiting launch :: seats) left (.running (staff.start launch).1 :: filled)
  /-- A worker is done as soon as it starts. -/
  | ends {permits left : Option Nat} {launch : Launch} {r : TaskResult}
    {seats filled : List (Seat W)} (done : staff.result? (staff.start launch).1 = some r)
    (rest : Fills permits seats left filled) :
    Fills permits (.waiting launch :: seats) left (.finished r :: filled)
  | keeps {permits left : Option Nat} {seat : Seat W} {seats filled : List (Seat W)}
    (started : ∀ launch, seat ≠ .waiting launch) (rest : Fills permits seats left filled) :
    Fills permits (seat :: seats) left (seat :: filled)

theorem fill_fills (permits : Option Nat) (seats : List (Seat W)) :
    Fills staff permits seats (fill staff permits seats).permits
      (fill staff permits seats).seats := by
  induction seats generalizing permits with
  | nil => exact .nil permits
  | cons seat seats ih =>
    cases seat with
    | running w => exact .keeps (by simp) (ih permits)
    | finished r => exact .keeps (by simp) (ih permits)
    | waiting launch =>
      unfold fill
      by_cases free : permits = some 0
      · subst free
        exact .full launch seats
      · rw [if_neg free]
        cases hr : staff.result? (staff.start launch).1 with
        | none =>
          simp only [hr]
          exact .starts free hr (ih _)
        | some r =>
          simp only [hr]
          exact .ends hr (ih permits)

variable {staff}

/-! ### Counting permits -/

/-- How many workers run. -/
def running (seats : List (Seat W)) : Nat := seats.countP Seat.isRunning

@[simp] theorem running_append (seats more : List (Seat W)) :
    running (seats ++ more) = running seats + running more :=
  List.countP_append

@[simp] theorem running_waiting (launch : Launch) (seats : List (Seat W)) :
    running (.waiting launch :: seats) = running seats :=
  List.countP_cons_of_neg (by simp [Seat.isRunning])

@[simp] theorem running_running (w : W) (seats : List (Seat W)) :
    running (.running w :: seats) = running seats + 1 :=
  List.countP_cons_of_pos rfl

@[simp] theorem running_finished (r : TaskResult) (seats : List (Seat W)) :
    running (.finished r :: seats) = running seats :=
  List.countP_cons_of_neg (by simp [Seat.isRunning])

/-- All permits there are: those that nobody holds, and one for each running worker. -/
def allPermits (permits : Option Nat) (seats : List (Seat W)) : Option Nat :=
  permits.map (· + running seats)

section Filled

variable {permits left : Option Nat} {seats filled : List (Seat W)}
  (h : Fills staff permits seats left filled)

include h

theorem Fills.allPermits : allPermits left filled = allPermits permits seats := by
  induction h with
  | nil => rfl
  | full => rfl
  | @starts permits left launch seats filled free going rest ih =>
    cases permits with
    | none =>
      cases left with
      | none => rfl
      | some m => simp [Crew.allPermits] at ih
    | some n =>
      cases left with
      | none => simp [Crew.allPermits] at ih
      | some m =>
        have positive : n ≠ 0 := by simpa using free
        simp only [Crew.allPermits, Option.map_some, Option.some.injEq, running_running,
          running_waiting] at ih ⊢
        omega
  | ends done rest ih => simpa [Crew.allPermits] using ih
  | @keeps permits left seat seats filled started rest ih =>
    cases seat with
    | waiting launch => exact absurd rfl (started launch)
    | finished r => simpa [Crew.allPermits] using ih
    | running w =>
      cases permits <;> cases left <;> simp [Crew.allPermits] at ih ⊢
      omega

/-- While a launch waits no permit is free. -/
theorem Fills.none_free {launch : Launch} (waits : .waiting launch ∈ filled) : left = some 0 := by
  induction h with
  | nil => simp at waits
  | full => rfl
  | starts _ _ _ ih => exact ih (by simpa using waits)
  | ends _ _ ih => exact ih (by simpa using waits)
  | keeps started _ ih =>
    rcases List.mem_cons.1 waits with same | waits
    · exact absurd same.symm (started launch)
    · exact ih waits

/-- A running worker was running before, or it has just started and is not done. -/
theorem Fills.running {w : W} (runs : .running w ∈ filled) :
    .running w ∈ seats ∨ staff.result? w = none := by
  induction h with
  | nil => simp at runs
  | full => exact .inl runs
  | starts _ going _ ih =>
    rcases List.mem_cons.1 runs with same | runs
    · cases same
      exact .inr going
    · exact (ih runs).imp (List.mem_cons_of_mem _) id
  | ends _ _ ih => exact (ih (by simpa using runs)).imp (List.mem_cons_of_mem _) id
  | keeps _ _ ih =>
    rcases List.mem_cons.1 runs with same | runs
    · exact .inl (same ▸ List.mem_cons_self)
    · exact (ih runs).imp (List.mem_cons_of_mem _) id

end Filled

end Fills

/-! ### Crews -/

section Staffed

variable {W : Type} (bare : W → Worker)

/-- A crew with so many permits: each is free or held by a running worker, none is free while a
launch waits, and no worker that is done holds one. -/
structure Staffed (limit : Option Nat) (c : Crew W) : Prop where
  permits : allPermits c.permits c.seats = limit
  full : ∀ launch, .waiting launch ∈ c.seats → c.permits = some 0
  going : ∀ w, .running w ∈ c.seats → (bare w).result? = none

variable {bare} {staff : Staff W} (hs : staff.Employs bare) {limit : Option Nat} {c : Crew W}

include hs

theorem Staffed.refill (permits : allPermits c.permits c.seats = limit)
    (going : ∀ w, .running w ∈ c.seats → (bare w).result? = none) :
    Staffed bare limit (c.refill staff).1 := by
  have fills := fill_fills staff c.permits c.seats
  refine ⟨fills.allPermits.trans permits, fun _ waits => fills.none_free waits, fun w runs => ?_⟩
  rcases fills.running runs with before | going'
  · exact going w before
  · exact hs.result w ▸ going'

theorem Staffed.assemble (b : Batch) :
    Staffed bare (b.policy.maxConcurrency.map UInt64.toNat) (assemble staff b).1 := by
  have idle : ∀ w, Seat.running w ∉ b.launches.map (Seat.waiting (W := W)) := by simp
  refine Staffed.refill hs ?_ fun w runs => absurd runs (idle w)
  have none_ : Crew.running (b.launches.map (Seat.waiting (W := W))) = 0 := by
    simp [Crew.running, Seat.isRunning, List.countP_map]
  simp [allPermits, none_, Function.comp_def]

omit hs in
/-- A running worker in another state still has its permit. -/
theorem allPermits_goes {i : Nat} {w : W} (hi : c.seats[i]? = some (.running w)) (w' : W) :
    allPermits c.permits (c.seats.set i (.running w')) = allPermits c.permits c.seats := by
  obtain ⟨before, after, hseats, hset⟩ := Roster.set_of_getElem? hi (.running w')
  rw [hset, hseats]
  simp [allPermits]

omit hs in
/-- A running worker that is done gives its permit back. -/
theorem allPermits_ends {i : Nat} {w : W} (hi : c.seats[i]? = some (.running w)) (r : TaskResult) :
    allPermits (c.permits.map (· + 1)) (c.seats.set i (.finished r)) =
      allPermits c.permits c.seats := by
  obtain ⟨before, after, hseats, hset⟩ := Roster.set_of_getElem? hi (.finished r)
  rw [hset, hseats]
  cases c.permits with
  | none => rfl
  | some n =>
    simp only [allPermits, Option.map_some, running_append, running_running, running_finished]
    congr 1
    omega

theorem Staffed.update (h : Staffed bare limit c) {i : Nat} {w : W} (hw : c.worker? i = some w)
    (w' : W) (events : List TaskEvent) :
    Staffed bare limit (c.update staff i w' events).1 := by
  have hi := seat_of_worker hw
  unfold Crew.update
  cases hr : staff.result? w' with
  | none =>
    refine ⟨(allPermits_goes hi w').trans h.permits, fun launch waits => ?_, fun v runs => ?_⟩
    · exact h.full launch ((List.mem_or_eq_of_mem_set waits).resolve_right (by simp))
    · rcases List.mem_or_eq_of_mem_set runs with before | same
      · exact h.going v before
      · cases same
        exact hs.result w' ▸ hr
  | some r =>
    refine Staffed.refill hs ((allPermits_ends hi r).trans h.permits) fun v runs => ?_
    exact h.going v ((List.mem_or_eq_of_mem_set runs).resolve_right (by simp))

omit hs in
/-- **Permits are neither lost nor made**, in no run of a batch. -/
theorem Runs.staffed {b : Batch} {told : List TaskEvent} (h : Runs bare b c told) :
    Staffed bare (b.policy.maxConcurrency.map UInt64.toNat) c := by
  induction h with
  | assemble hs => exact .assemble hs b
  | update hs _ hw _ ih => exact ih.update hs hw _ _

end Staffed

section Progress

variable {W : Type} {bare : W → Worker} {limit : Option Nat} {c : Crew W}

/-- **With at least one permit some worker runs until the crew is done.** -/
theorem Staffed.progress (h : Staffed bare limit c) (positive : limit ≠ some 0)
    (going : c.isDone = false) : ∃ (i : Nat) (w : W), c.worker? i = some w := by
  have runs : ∃ w, .running w ∈ c.seats := by
    obtain ⟨seat, hseat, unfinished⟩ := List.all_eq_false.1 going
    cases seat with
    | finished r => simp [Seat.isFinished] at unfinished
    | running w => exact ⟨w, hseat⟩
    | waiting launch =>
      have total := h.permits
      rw [h.full launch hseat] at total
      have some_ : 0 < running c.seats := by
        apply Nat.pos_of_ne_zero
        intro none_
        exact positive (by simp [← total, allPermits, none_])
      obtain ⟨seat, hseat, runs⟩ := List.countP_pos_iff.1 some_
      cases seat with
      | running w => exact ⟨w, hseat⟩
      | waiting _ => cases runs
      | finished _ => cases runs
  obtain ⟨w, hw⟩ := runs
  obtain ⟨i, hi⟩ := List.getElem?_of_mem hw
  exact ⟨i, w, by simp [Crew.worker?, hi]⟩

/-- Without permits no worker ever runs. -/
theorem Staffed.idle (h : Staffed bare (some 0) c) (i : Nat) : c.worker? i = none := by
  cases hw : c.worker? i with
  | none => rfl
  | some w =>
    have runs : 0 < running c.seats :=
      List.countP_pos_iff.2 ⟨_, List.mem_of_getElem? (seat_of_worker hw), rfl⟩
    have total := h.permits
    cases hp : c.permits with
    | none => simp [allPermits, hp] at total
    | some n =>
      simp only [allPermits, hp, Option.map_some, Option.some.injEq] at total
      omega

end Progress

end Crew

/-! ### What a semaphore holds -/

namespace BatchPolicy

/-- The permits that a semaphore is made for at most; with more a batch does not start. -/
def maxPermits : Nat := Nat.pow 2 61 - 1

/-- A batch with this policy has permits, and no more of them than a semaphore holds. -/
def Permits (p : BatchPolicy) : Prop :=
  ∀ n, p.maxConcurrency = some n → 0 < n.toNat ∧ n.toNat ≤ maxPermits

variable {p : BatchPolicy}

theorem Permits.ne_zero (h : p.Permits) : p.maxConcurrency ≠ some 0 :=
  fun none_ => Nat.lt_irrefl 0 (h 0 none_).1

/-- At no time more permits are free than a semaphore holds. -/
theorem Permits.free_le (h : p.Permits) {W : Type} {bare : W → Worker} {c : Crew W}
    (staffed : Crew.Staffed bare (p.maxConcurrency.map UInt64.toNat) c) {free : Nat}
    (hc : c.permits = some free) : free ≤ maxPermits := by
  have total := staffed.permits
  cases bound : p.maxConcurrency with
  | none => simp [Crew.allPermits, hc, bound] at total
  | some n =>
    have limit := (h n bound).2
    simp only [Crew.allPermits, hc, bound, Option.map_some, Option.some.injEq] at total
    omega

end BatchPolicy

end Workflow
