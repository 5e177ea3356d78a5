import Mathlib.Data.List.Forall2
import Workflow.Proofs.Batch.Permits
import Workflow.Proofs.Worker.Course

/-!
# Workflow.Proofs.Batch.Spans — which launches are at work, as their events tell it

A launch is at work from its created event to its result.  By the events of a crew just those
launches are at work whose workers run (`Crew.Runs.inSpan`), and they were created in launch order
(`Crew.Runs.created_order`).  So a batch has at most as many launches at work as it has permits, and
just as many while a launch waits.
-/

namespace Workflow

/-- The task that was created. -/
def TaskEvent.created? : TaskEvent → Option TaskId
  | .created task => some task
  | _ => none

/-- Whether the launch was created, by these events. -/
def Launch.isCreated (l : Launch) (told : List TaskEvent) : Bool :=
  told.any fun e => e.created? == some l.job.id

/-- Whether the launch has its result, by these events. -/
def Launch.isEnded (l : Launch) (told : List TaskEvent) : Bool :=
  told.any fun e => e.task? == some l.job.id && e.result?.isSome

/-- How many launches of the batch were created and have no result yet, by these events. -/
def Batch.inSpan (b : Batch) (told : List TaskEvent) : Nat :=
  b.launches.countP fun l => l.isCreated told && !l.isEnded told

/-- Whether the seat does not wait any more. -/
def Seat.isStarted {W : Type} : Seat W → Bool
  | .waiting _ => false
  | _ => true

/-! ### What the events tell of a seat -/

namespace Launch

variable {l : Launch} {told more : List TaskEvent}

theorem any_congr {p : TaskEvent → Bool} (own : ∀ e, p e = true → e.task? = some l.job.id)
    (same : ∀ e : TaskEvent, e.task? = some l.job.id → (e ∈ told ↔ e ∈ more)) :
    told.any p = more.any p := by
  rw [Bool.eq_iff_iff, List.any_eq_true, List.any_eq_true]
  exact exists_congr fun e =>
    ⟨fun ⟨he, hp⟩ => ⟨(same e (own e hp)).1 he, hp⟩, fun ⟨he, hp⟩ => ⟨(same e (own e hp)).2 he, hp⟩⟩

/-- Whether a launch was created its own events tell. -/
theorem isCreated_congr
    (same : ∀ e : TaskEvent, e.task? = some l.job.id → (e ∈ told ↔ e ∈ more)) :
    l.isCreated told = l.isCreated more := by
  refine any_congr (fun e created => ?_) same
  cases e <;> simp_all [TaskEvent.created?, TaskEvent.task?]

/-- Whether a launch has its result its own events tell. -/
theorem isEnded_congr
    (same : ∀ e : TaskEvent, e.task? = some l.job.id → (e ∈ told ↔ e ∈ more)) :
    l.isEnded told = l.isEnded more :=
  any_congr (fun e ended => by simp_all) same

theorem Opening.spans {events : List TaskEvent} (h : l.Opening events) :
    l.isCreated events = true ∧ l.isEnded events = false := by
  cases h <;> simp [isCreated, isEnded, TaskEvent.created?, TaskEvent.result?]

end Launch

section Seats

variable {W : Type} {bare : W → Worker}

/-- A seat has told that its launch was created once it is started, and its result once it is
finished. -/
theorem Seat.Told.spans {l : Launch} {seat : Seat W} {events : List TaskEvent}
    (h : seat.Told bare l events) :
    l.isCreated events = seat.isStarted ∧ l.isEnded events = seat.isFinished := by
  cases h with
  | waiting => exact ⟨rfl, rfl⟩
  | running h going => exact (h.course.2.opening going).spans
  | finished h hr =>
    obtain ⟨opening, first, own, rfl⟩ := h.course.2.result hr
    obtain ⟨created, -⟩ := first.spans
    simp only [Launch.isCreated, Launch.isEnded, List.any_append] at created ⊢
    simp [created, Seat.isStarted, Seat.isFinished, TaskEvent.task?, TaskEvent.result?]

theorem Seat.Told.task {l : Launch} {seat : Seat W} {events : List TaskEvent}
    (h : seat.Told bare l events) : ∀ e ∈ events, e.task? = some l.job.id := by
  cases h with
  | waiting => simp
  | running h => exact h.course.2.protocol.task
  | finished h => exact h.course.2.protocol.task

theorem Seated.task {launches : List Launch} {seats : List (Seat W)} {told : List (List TaskEvent)}
    (h : Seated bare launches seats told) :
    ∀ e ∈ told.flatten, ∃ l ∈ launches, e.task? = some l.job.id := by
  induction h with
  | nil => simp
  | @cons l _ _ launches _ _ h _ ih =>
    intro e he
    rcases List.mem_append.1 (List.flatten_cons ▸ he) with he | he
    · exact ⟨l, List.mem_cons_self, h.task e he⟩
    · obtain ⟨l', hl', own⟩ := ih e he
      exact ⟨l', List.mem_cons_of_mem _ hl', own⟩

/-- Of launches with distinct tasks all events together tell what their seats have told. -/
theorem Seated.spans {launches : List Launch} {seats : List (Seat W)} {told : List (List TaskEvent)}
    (h : Seated bare launches seats told) (distinct : (launches.map (·.job.id)).Nodup)
    {all : List TaskEvent} (same : ∀ l ∈ launches, ∀ e : TaskEvent, e.task? = some l.job.id →
      (e ∈ all ↔ e ∈ told.flatten)) :
    List.Forall₂ (fun l seat => l.isCreated all = seat.isStarted ∧
      l.isEnded all = seat.isFinished) launches seats := by
  induction h with
  | nil => exact .nil
  | @cons l seat events launches seats told h rest ih =>
    obtain ⟨fresh, distinct⟩ := List.nodup_cons.1 distinct
    refine .cons ?_ (ih distinct fun l' hl' e own => ?_)
    · have mine (e : TaskEvent) (own : e.task? = some l.job.id) : e ∈ all ↔ e ∈ events := by
        rw [same l List.mem_cons_self e own, List.flatten_cons, List.mem_append]
        refine or_iff_left fun he => ?_
        obtain ⟨l', hl', own'⟩ := rest.task e he
        exact fresh (List.mem_map.2 ⟨l', hl', Option.some.inj (own'.symm.trans own)⟩)
      rw [Launch.isCreated_congr mine, Launch.isEnded_congr mine]
      exact h.spans
    · rw [same l' (List.mem_cons_of_mem _ hl') e own, List.flatten_cons, List.mem_append]
      refine or_iff_right fun he => ?_
      exact fresh (List.mem_map.2 ⟨l', hl', Option.some.inj (own.symm.trans (h.task e he))⟩)

theorem running_of_spans {launches : List Launch} {seats : List (Seat W)} {all : List TaskEvent}
    (spans : List.Forall₂ (fun l seat => l.isCreated all = seat.isStarted ∧
      l.isEnded all = seat.isFinished) launches seats) :
    launches.countP (fun l => l.isCreated all && !l.isEnded all) = Crew.running seats ∧
      ∀ l ∈ launches, l.isCreated all = false → ∃ l', .waiting l' ∈ seats := by
  induction spans with
  | nil => exact ⟨rfl, by simp⟩
  | @cons l seat launches seats h _ ih =>
    obtain ⟨created, ended⟩ := h
    refine ⟨?_, fun l' hl' waits => ?_⟩
    · rw [List.countP_cons, Crew.running, List.countP_cons, ih.1, created, ended]
      cases seat <;> rfl
    · rcases List.mem_cons.1 hl' with rfl | hl'
      · -- only a seat that waits has created nothing
        cases seat with
        | waiting l' => exact ⟨l', List.mem_cons_self⟩
        | running w => cases created.symm.trans waits
        | finished r => cases created.symm.trans waits
      · obtain ⟨l'', waiting⟩ := ih.2 l' hl' waits
        exact ⟨l'', List.mem_cons_of_mem _ waiting⟩

/-- **By the events of a crew the launches at work are those whose workers run**, and a launch that
was not created waits. -/
theorem Crew.Runs.inSpan {b : Batch} (distinct : b.taskIds.Nodup) {c : Crew W}
    {all : List TaskEvent} (h : Crew.Runs bare b c all) : b.inSpan all = Crew.running c.seats ∧
      ∀ l ∈ b.launches, l.isCreated all = false → ∃ l', .waiting l' ∈ c.seats := by
  obtain ⟨told, before, seated, interleaved, rfl⟩ := h.reported
  refine running_of_spans (seated.spans distinct fun l _ e own => ?_)
  rw [List.mem_append, interleaved.perm.mem_iff]
  refine or_iff_left fun he => ?_
  split at he
  · rw [List.mem_singleton.1 he] at own
    cases own
  · cases he

/-- **As many launches are at work as permits are held**: never more than there are, and all of them
while a launch waits. -/
theorem Crew.Runs.throttled {b : Batch} (distinct : b.taskIds.Nodup) {c : Crew W}
    {all : List TaskEvent} (h : Crew.Runs bare b c all) {n : UInt64}
    (bound : b.policy.maxConcurrency = some n) : b.inSpan all ≤ n.toNat ∧
      ∀ l ∈ b.launches, l.isCreated all = false → b.inSpan all = n.toNat := by
  obtain ⟨spans, waits⟩ := h.inSpan distinct
  have staffed := h.staffed
  have total := staffed.permits
  rw [bound, Option.map_some] at total
  rw [spans]
  cases free : c.permits with
  | none => simp [allPermits, free] at total
  | some m =>
    have sum : m + running c.seats = n.toNat := by simpa [allPermits, free] using total
    refine ⟨by omega, fun l hl new => ?_⟩
    obtain ⟨l', waiting⟩ := waits l hl new
    have none_free : m = 0 := by simpa [free] using staffed.full l' waiting
    omega

end Seats

/-! ### The order of creation -/

theorem Worker.start_created (l : Launch) :
    (start l).2.filterMap TaskEvent.created? = [l.job.id] := by
  unfold start
  simp only
  split <;> rfl

/-- A worker reports that its task was created when it starts, and never again. -/
theorem Worker.react_created (w : Worker) (s : Signal) :
    (w.react s).2.filterMap TaskEvent.created? = [] := by
  have turn := react_turn w s
  generalize w.react s = next at turn
  cases turn <;> rfl

namespace Crew

variable {W : Type} {bare : W → Worker} {staff : Staff W}

/-- Started seats are left as they are when seats are filled. -/
theorem fill_append (staff : Staff W) {front : List (Seat W)}
    (started : ∀ seat ∈ front, seat.isStarted) (permits : Option Nat) (rest : List (Seat W)) :
    (fill staff permits (front ++ rest)).seats = front ++ (fill staff permits rest).seats ∧
      (fill staff permits (front ++ rest)).events = (fill staff permits rest).events := by
  induction front with
  | nil => exact ⟨rfl, rfl⟩
  | cons seat front ih =>
    obtain ⟨first, others⟩ := List.forall_mem_cons.1 started
    obtain ⟨seats, events⟩ := ih others
    cases seat with
    | waiting l => cases first
    | running w => exact ⟨congrArg (_ :: ·) seats, events⟩
    | finished r => exact ⟨congrArg (_ :: ·) seats, events⟩

/-- Waiting seats are started from the first one on, and each reports that its task was created. -/
theorem fill_waiting (hs : staff.Employs bare) (permits : Option Nat) (launches : List Launch) :
    ∃ started waits front, launches = started ++ waits ∧
      (fill staff permits (launches.map .waiting)).seats = front ++ waits.map .waiting ∧
      (∀ seat ∈ front, seat.isStarted) ∧
      (fill staff permits (launches.map .waiting)).events.filterMap TaskEvent.created? =
        started.map (·.job.id) := by
  induction launches generalizing permits with
  | nil => exact ⟨[], [], [], rfl, rfl, by simp, rfl⟩
  | cons l launches ih =>
    rw [List.map_cons, fill]
    by_cases full : permits = some 0
    · rw [if_pos full]
      exact ⟨[], l :: launches, [], rfl, rfl, by simp, rfl⟩
    · rw [if_neg full]
      have created : (staff.start l).2.filterMap TaskEvent.created? = [l.job.id] := by
        have first := Worker.start_created l
        rwa [hs.start] at first
      cases hr : staff.result? (staff.start l).1 with
      | none =>
        -- a worker that goes on keeps its permit
        obtain ⟨started, waits, front, all, seats, open_, tasks⟩ := ih (permits.map (· - 1))
        refine ⟨l :: started, waits, .running (staff.start l).1 :: front, congrArg (l :: ·) all, ?_,
          ?_, ?_⟩
        · simp [hr, seats]
        · simpa [Seat.isStarted] using open_
        · simp [hr, tasks, created]
      | some r =>
        -- one that ends at once leaves it to the next
        obtain ⟨started, waits, front, all, seats, open_, tasks⟩ := ih permits
        refine ⟨l :: started, waits, .finished r :: front, congrArg (l :: ·) all, ?_, ?_, ?_⟩
        · simp [hr, seats]
        · simpa [Seat.isStarted] using open_
        · simp [hr, tasks, created]

/-- The first launches have been started and were created in this order; the others wait. -/
def InOrder (launches : List Launch) (c : Crew W) (told : List TaskEvent) : Prop :=
  ∃ started waits front, launches = started ++ waits ∧ c.seats = front ++ waits.map .waiting ∧
    (∀ seat ∈ front, seat.isStarted) ∧
    told.filterMap TaskEvent.created? = started.map (·.job.id)

theorem InOrder.refill (hs : staff.Employs bare) {launches : List Launch} {c : Crew W}
    {told : List TaskEvent} (h : InOrder launches c told) :
    InOrder launches (c.refill staff).1 (told ++ (c.refill staff).2) := by
  obtain ⟨started, others, front, rfl, seats, open_, tasks⟩ := h
  obtain ⟨more, waits, front', rest, seats', open_', tasks'⟩ := fill_waiting hs c.permits others
  obtain ⟨kept, events⟩ := fill_append staff open_ c.permits (others.map .waiting)
  have completed (done : Bool) :
      (if done then [TaskEvent.completed] else []).filterMap TaskEvent.created? = [] := by
    cases done <;> rfl
  refine ⟨started ++ more, waits, front ++ front', by rw [rest, List.append_assoc], ?_, ?_, ?_⟩
  · change (fill staff c.permits c.seats).seats = _
    rw [seats, kept, seats', List.append_assoc]
  · exact fun seat hseat => (List.mem_append.1 hseat).elim (open_ seat) (open_' seat)
  · rw [Crew.refill, seats]
    simp [completed, events, tasks, tasks']

theorem InOrder.update (hs : staff.Employs bare) {launches : List Launch} {c : Crew W}
    {told : List TaskEvent} (h : InOrder launches c told) {i : Nat} {w w' : W}
    {events : List TaskEvent} (hw : c.worker? i = some w) (hr : Reacts bare w w' events) :
    InOrder launches (c.update staff i w' events).1 (told ++ (c.update staff i w' events).2) := by
  obtain ⟨started, waits, front, rfl, seats, open_, tasks⟩ := h
  have hi := seat_of_worker hw
  -- the worker runs on a seat that has been started
  have before : i < front.length := by
    by_contra late
    rw [seats, List.getElem?_append_right (by omega), List.getElem?_map] at hi
    obtain ⟨l, -, same⟩ := Option.map_eq_some_iff.1 hi
    cases same
  have nothing : events.filterMap TaskEvent.created? = [] := by
    cases hr with
    | signal s reacts =>
      have created := (bare w).react_created s
      rwa [reacts] at created
    | quiet _ nothing => rw [nothing]; rfl
  have set (seat : Seat W) (open' : seat.isStarted) (permits : Option Nat)
      (results : List TaskResult) : InOrder (started ++ waits)
        ⟨c.seats.set i seat, permits, results⟩ (told ++ events) := by
    refine ⟨started, waits, front.set i seat, rfl, ?_, fun seat' mem => ?_, ?_⟩
    · rw [seats, List.set_append_left _ _ before]
    · rcases List.mem_or_eq_of_mem_set mem with mem | rfl
      · exact open_ seat' mem
      · exact open'
    · rw [List.filterMap_append, tasks, nothing, List.append_nil]
  unfold Crew.update
  cases staff.result? w' with
  | none => exact set (.running w') rfl c.permits c.results
  | some r =>
    have filled := (set (.finished r) rfl (c.permits.map (· + 1)) (c.results ++ [r])).refill hs
    rwa [List.append_assoc] at filled

/-- **The launches of a batch are created in their order.** -/
theorem Runs.created_order {b : Batch} {c : Crew W} {all : List TaskEvent}
    (h : Runs bare b c all) : all.filterMap TaskEvent.created? <+: b.taskIds := by
  have order : InOrder b.launches c all := by
    induction h with
    | assemble hs =>
      have nothing : InOrder b.launches
        (⟨b.launches.map .waiting, b.policy.maxConcurrency.map UInt64.toNat, []⟩ : Crew W) [] :=
        ⟨[], b.launches, [], rfl, rfl, by simp, rfl⟩
      exact nothing.refill hs
    | update hs _ hw hr ih => exact ih.update hs hw hr
  obtain ⟨started, waits, -, all, -, -, tasks⟩ := order
  rw [tasks, Batch.taskIds, all, List.map_append]
  exact List.prefix_append ..

end Crew

end Workflow
