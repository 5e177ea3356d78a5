import Workflow.Proofs.Batch.Harvest
import Workflow.Proofs.Batch.Spans
import Workflow.Proofs.Worker.Shifting

/-!
# Workflow.Proofs.Batch.Throttling — permits only decide when a launch starts

A worker of a batch goes through the very states that it goes through alone, later by the time at
which it was started (`SeatFollows`), for polls are counted for its task alone and its deadline runs
from its start.  So a batch that throttles its launches and one that does not tell the same of each
of them, but for the time at which it starts.  The main statement is `throttling_shifts`.
-/

namespace Workflow

/-! ### What happens of one task -/

namespace Timeline

/-- What has happened of one task. -/
def of (past : Timeline) (task : TaskId) : Timeline :=
  ⟨past.events.filter (·.2.task? = some task), past.trace.filter (·.task = task)⟩

variable {task : TaskId} {events : List TaskEvent} {trace : List TraceEntry}

theorem of_extend_own (reported : ∀ e ∈ events, e.task? = some task)
    (traced : ∀ e ∈ trace, e.task = task) (past : Timeline) (now : Nat) :
    (past.extend now events trace).of task = (past.of task).extend now events trace := by
  have all : (events.map (now, ·)).filter (·.2.task? = some task) = events.map (now, ·) :=
    List.filter_eq_self.2 fun e he => by
      obtain ⟨event, mem, rfl⟩ := List.mem_map.1 he
      simpa using reported event mem
  have all' : trace.filter (·.task = task) = trace :=
    List.filter_eq_self.2 fun e he => by simpa using traced e he
  simp [of, extend, List.filter_append, all, all']

theorem of_extend_other (reported : ∀ e ∈ events, e.task? ≠ some task)
    (traced : ∀ e ∈ trace, e.task ≠ task) (past : Timeline) (now : Nat) :
    (past.extend now events trace).of task = past.of task := by
  have none_ : (events.map (now, ·)).filter (·.2.task? = some task) = [] :=
    List.filter_eq_nil_iff.2 fun e he => by
      obtain ⟨event, mem, rfl⟩ := List.mem_map.1 he
      simpa using reported event mem
  have none' : trace.filter (·.task = task) = [] :=
    List.filter_eq_nil_iff.2 fun e he => by simpa using traced e he
  simp [of, extend, List.filter_append, none_, none']

theorem extend_append (past : Timeline) (now : Nat) (events more : List TaskEvent)
    (trace : List TraceEntry) : past.extend now (events ++ more) trace =
      (past.extend now events trace).extend now more [] := by
  simp [extend]

end Timeline

theorem Worker.start_events (l : Launch) : ∀ e ∈ (start l).2, e.task? = some l.job.id :=
  (start_course l).2.protocol.task

theorem Worker.start_head (l : Launch) : (start l).2.head? = some (.created l.job.id) := by
  unfold start
  simp only
  split <;> rfl

theorem Worker.react_events (w : Worker) (s : Signal) :
    ∀ e ∈ (w.react s).2, e.task? = some w.task := by
  have turn := react_turn w s
  generalize w.react s = next at turn
  cases turn with
  | idle => simp
  | goes => simp [goto]
  | ends => simp [finish, TaskEvent.task?]
  | submits => simp [TaskEvent.task?]
  | refuses => simp [TaskEvent.task?]

theorem TimedWorker.start_events (l : Launch) (now : Nat) :
    ∀ e ∈ (start l now).2, e.task? = some l.job.id := by
  have own := Worker.start_events l
  rwa [(staff_employs now).start] at own

theorem TimedWorker.fire_events (w : TimedWorker) (now : Nat) (counts : PollCounts) :
    ∀ e ∈ (w.fire now counts).events, e.task? = some w.worker.task := by
  cases w.fire_reacts now counts with
  | signal s reacts =>
    have own := w.worker.react_events s
    rwa [reacts] at own
  | quiet _ nothing => simp [nothing]

/-! ### A launch that comes to its end -/

namespace Alone

/-- The worker alone comes to its end in so many steps, and that is how it ends. -/
structure EndsIn (n : Nat) (x final : Alone) : Prop where
  goes : ∃ limit, x.Goes limit n final
  ended : final.worker.worker.result? ≠ none

variable {l : Launch} {n : Nat} {x final : Alone}

/-- A worker that has not ended has a next step. -/
theorem EndsIn.next (h : x.EndsIn n final) (going : x.worker.worker.result? = none) :
    ∃ m now, n = m + 1 ∧ x.worker.due = some now ∧ (x.next now).EndsIn m final := by
  obtain ⟨⟨limit, goes⟩, ended⟩ := h
  cases goes with
  | refl => exact absurd going ended
  | step due _ rest => exact ⟨_, _, rfl, due, ⟨limit, rest⟩, ended⟩

theorem EndsIn.eq_of_ended (h : x.EndsIn n final) (serves : x.Serves l)
    (ended : x.worker.worker.result? ≠ none) : n = 0 ∧ final = x := by
  obtain ⟨⟨limit, goes⟩, -⟩ := h
  cases goes with
  | refl => exact ⟨rfl, rfl⟩
  | step due => cases (serves.ended ended).symm.trans due

/-- Given time and steps enough the worker alone comes to its end. -/
theorem EndsIn.run (h : x.EndsIn n final) (serves : x.Serves l) : ∃ enough, ∀ limit fuel,
    enough ≤ limit → n ≤ fuel → x.run limit fuel = (final.worker, final.past) := by
  obtain ⟨⟨enough, goes⟩, ended⟩ := h
  have done := (goes.serves serves).ended ended
  refine ⟨enough, fun limit fuel late long => ?_⟩
  exact (goes.mono late).run_settled (fun _ due => nomatch done.symm.trans due) long

end Alone

/-- 32 bits hold the numbers of all attempts and polls. -/
def Timeline.Counted (t : Timeline) : Prop := ∀ e ∈ t.trace, e.mark.number < UInt32.size

/-- A launch that is driven alone comes to its end, perhaps at its deadline, before its counters are
used up. -/
def Launch.Terminates (l : Launch) : Prop :=
  ∃ limit fuel, (l.drive 0 .empty limit fuel).1.worker.result? ≠ none ∧
    (l.drive 0 .empty limit fuel).2.Counted

theorem Launch.Terminates.ends {l : Launch} (h : l.Terminates) :
    ∃ n final, (l.alone 0 .empty .empty).EndsIn n final ∧ final.past.Counted := by
  obtain ⟨limit, fuel, ended, counted⟩ := h
  obtain ⟨n, final, goes, run, -⟩ := Alone.exists_goes (l.alone 0 .empty .empty) limit fuel
  rw [drive, run] at ended counted
  exact ⟨n, final, ⟨⟨limit, goes⟩, ended⟩, counted⟩

/-- The first thing that a launch reports is that its task was created. -/
theorem Alone.EndsIn.created {l : Launch} {n : Nat} {final : Alone}
    (h : (l.alone 0 .empty .empty).EndsIn n final) :
    final.past.events.head? = some (0, .created l.job.id) := by
  obtain ⟨⟨limit, goes⟩, -⟩ := h
  obtain ⟨events, trace, past, -⟩ := goes.continues (l.alone_settled 0 .empty .empty)
  have first : (TimedWorker.start l 0).2.head? = some (.created l.job.id) := by
    have started := congrArg Prod.snd ((TimedWorker.staff_employs 0).start l)
    have created := Worker.start_head l
    rwa [started] at created
  rw [past]
  simp [Launch.alone, Timeline.extend, Timeline.empty, first]

namespace TimedCrew

/-! ### Seats -/

/-- How far a seat has come of what its launch does alone from time 0 on: it has so many steps left
until the end. -/
inductive SeatFollows (l : Launch) (final : Alone) (counts : PollCounts) (own : Timeline) :
    Seat TimedWorker → Nat → Prop
  | waiting {n : Nat} (fresh : ∀ key, counts.asked (key, l.job.id) = 0) (nothing : own = .empty)
    (ends : (l.alone 0 .empty .empty).EndsIn n final) :
    SeatFollows l final counts own (.waiting l) n
  | running {x : Alone} {n : Nat} (start : Nat) (serves : x.Serves l)
    (going : x.worker.worker.result? = none)
    (same : PollCounts.SameFor l.job.id x.counts counts) (past : own = x.past.later start)
    (ends : x.EndsIn n final) :
    SeatFollows l final counts own (.running (x.worker.later start)) n
  | finished {r : TaskResult} (start : Nat) (past : own = final.past.later start)
    (result : final.worker.worker.result? = some r) : SeatFollows l final counts own (.finished r) 0

section Seat

variable {l : Launch} {final : Alone} {counts : PollCounts} {own : Timeline} {n : Nat}

theorem SeatFollows.later {seat : Seat TimedWorker} (h : SeatFollows l final counts own seat n)
    {after : PollCounts} (same : PollCounts.SameFor l.job.id counts after) :
    SeatFollows l final after own seat n := by
  cases h with
  | waiting fresh nothing ends =>
    exact .waiting (fun key => (same.asked key).trans (fresh key)) nothing ends
  | running start serves going same' past ends =>
    exact .running start serves going (same'.trans same) past ends
  | finished start past result => exact .finished start past result

/-- The worker of a seat in a state that is due: it goes on, or it is done. -/
theorem follows_of_worker {x : Alone} (start : Nat) (serves : x.Serves l)
    (same : PollCounts.SameFor l.job.id x.counts counts) (past : own = x.past.later start)
    (ends : x.EndsIn n final) :
    (x.worker.worker.result? = none →
      SeatFollows l final counts own (.running (x.worker.later start)) n) ∧
    ∀ r, x.worker.worker.result? = some r → n = 0 ∧
      SeatFollows l final counts own (.finished r) 0 := by
  refine ⟨fun going => .running start serves going same past ends, fun r done => ?_⟩
  obtain ⟨rfl, rfl⟩ := ends.eq_of_ended serves (by simp [done])
  exact ⟨rfl, .finished start past done⟩

/-- A launch that starts now. -/
theorem SeatFollows.start (h : SeatFollows l final counts own (.waiting l) n) (now : Nat) :
    ((TimedWorker.start l now).1.worker.result? = none →
      SeatFollows l final counts (own.extend now (TimedWorker.start l now).2 [])
        (.running (TimedWorker.start l now).1) n) ∧
    ∀ r, (TimedWorker.start l now).1.worker.result? = some r → n = 0 ∧
      SeatFollows l final counts (own.extend now (TimedWorker.start l now).2 [])
        (.finished r) 0 := by
  cases h with
  | waiting fresh nothing ends =>
    have starts := TimedWorker.start_later l 0 now
    rw [Nat.zero_add] at starts
    have same : PollCounts.SameFor l.job.id (l.alone 0 .empty .empty).counts counts :=
      ⟨fun key => fresh key⟩
    rw [starts, nothing]
    refine follows_of_worker now (l.alone_serves 0 .empty) same ?_ ends
    rw [Launch.alone, Timeline.later_extend, Nat.zero_add]
    rfl

theorem SeatFollows.task {w : TimedWorker} (h : SeatFollows l final counts own (.running w) n) :
    w.worker.task = l.job.id := by
  cases h with
  | running start serves => exact serves.history.reports.task

/-- Something is due to a running worker. -/
theorem SeatFollows.due {w : TimedWorker} (h : SeatFollows l final counts own (.running w) n) :
    ∃ now, w.due = some now := by
  cases h with
  | @running x n start serves going same past ends =>
    obtain ⟨m, time, -, due, -⟩ := ends.next going
    exact ⟨time + start, by rw [TimedWorker.due_later, due, Option.map_some]⟩

/-- What is due to a worker happens. -/
theorem SeatFollows.fire {w : TimedWorker} (h : SeatFollows l final counts own (.running w) n)
    {now : Nat} (due : w.due = some now) : ∃ m, n = m + 1 ∧
      ((w.fire now counts).worker.worker.result? = none →
        SeatFollows l final (w.fire now counts).counts
          (own.extend now (w.fire now counts).events (w.fire now counts).trace)
          (.running (w.fire now counts).worker) m) ∧
      ∀ r, (w.fire now counts).worker.worker.result? = some r → m = 0 ∧
        SeatFollows l final (w.fire now counts).counts
          (own.extend now (w.fire now counts).events (w.fire now counts).trace)
          (.finished r) 0 := by
  cases h with
  | @running x n start serves going same past ends =>
    obtain ⟨m, time, rfl, due', ends⟩ := ends.next going
    rw [TimedWorker.due_later, due', Option.map_some, Option.some.injEq] at due
    subst due
    have task : x.worker.worker.task = l.job.id := serves.history.reports.task
    have fires := TimedWorker.fire_later (w := x.worker) start (task ▸ same) time
    refine ⟨m, rfl, ?_⟩
    rw [fires.worker, fires.events, fires.trace, past, ← Timeline.later_extend]
    exact follows_of_worker start (serves.next due') (task ▸ fires.counts) rfl ends

end Seat

/-- How far the seats of some launches have come; they have so many steps left together. -/
inductive SeatsFollow (final : Launch → Alone) (counts : PollCounts) (past : Timeline) :
    List Launch → List (Seat TimedWorker) → Nat → Prop
  | nil : SeatsFollow final counts past [] [] 0
  | cons {l : Launch} {launches : List Launch} {seat : Seat TimedWorker}
    {seats : List (Seat TimedWorker)} {n more : Nat}
    (h : SeatFollows l (final l) counts (past.of l.job.id) seat n)
    (rest : SeatsFollow final counts past launches seats more) :
    SeatsFollow final counts past (l :: launches) (seat :: seats) (n + more)

section Seats

variable {final : Launch → Alone} {counts : PollCounts} {past : Timeline} {launches : List Launch}
  {seats : List (Seat TimedWorker)} {n : Nat}

theorem SeatsFollow.later (h : SeatsFollow final counts past launches seats n)
    {after : PollCounts} {past' : Timeline}
    (same : ∀ l ∈ launches, PollCounts.SameFor l.job.id counts after ∧
      past'.of l.job.id = past.of l.job.id) : SeatsFollow final after past' launches seats n := by
  induction h with
  | nil => exact .nil
  | cons h _ ih =>
    obtain ⟨⟨asked, told⟩, rest⟩ := List.forall_mem_cons.1 same
    exact .cons (told ▸ h.later asked) (ih rest)

theorem SeatsFollow.waiting_mem (h : SeatsFollow final counts past launches seats n) {l : Launch}
    (waits : .waiting l ∈ seats) : l ∈ launches := by
  induction h with
  | nil => cases waits
  | cons h _ ih =>
    rcases List.mem_cons.1 waits with same | waits
    · subst same
      cases h
      exact List.mem_cons_self
    · exact List.mem_cons_of_mem _ (ih waits)

/-- Filling seats tells of launches that have waited. -/
theorem fill_task (now : Nat) (permits : Option Nat) (seats : List (Seat TimedWorker)) :
    ∀ e ∈ (Crew.fill (TimedWorker.staff now) permits seats).events,
      ∃ l, .waiting l ∈ seats ∧ e.task? = some l.job.id := by
  induction seats generalizing permits with
  | nil => simp [Crew.fill]
  | cons seat seats ih =>
    have others (permits : Option Nat) (e)
        (he : e ∈ (Crew.fill (TimedWorker.staff now) permits seats).events) :
        ∃ l, .waiting l ∈ seat :: seats ∧ e.task? = some l.job.id := by
      obtain ⟨l, waits, own⟩ := ih permits e he
      exact ⟨l, List.mem_cons_of_mem _ waits, own⟩
    cases seat with
    | running w => exact others permits
    | finished r => exact others permits
    | waiting l =>
      rw [Crew.fill]
      split
      · simp
      · intro e he
        have first (mem : e ∈ ((TimedWorker.staff now).start l).2) :
            ∃ l', .waiting l' ∈ .waiting l :: seats ∧ e.task? = some l'.job.id :=
          ⟨l, List.mem_cons_self, TimedWorker.start_events l now e mem⟩
        simp only at he
        split at he
        · exact (List.mem_append.1 he).elim first (others _ e)
        · exact (List.mem_append.1 he).elim first (others _ e)

/-- Of launches with distinct tasks, filling their seats tells nothing of another launch. -/
theorem SeatsFollow.fill_of (h : SeatsFollow final counts past launches seats n) {l : Launch}
    (fresh : l.job.id ∉ launches.map (·.job.id)) (now : Nat) (permits : Option Nat)
    (before : Timeline) : (before.extend now
      (Crew.fill (TimedWorker.staff now) permits seats).events []).of l.job.id =
        before.of l.job.id := by
  refine Timeline.of_extend_other (fun e he own => fresh ?_) (by simp) before now
  obtain ⟨l', waits, own'⟩ := fill_task now permits seats e he
  exact List.mem_map.2 ⟨l', h.waiting_mem waits, Option.some.inj (own'.symm.trans own)⟩

/-- The start of another launch changes nothing for these. -/
theorem SeatsFollow.started (h : SeatsFollow final counts past launches seats n) {l : Launch}
    (fresh : l.job.id ∉ launches.map (·.job.id)) (now : Nat) :
    SeatsFollow final counts (past.extend now (TimedWorker.start l now).2 []) launches seats n := by
  refine h.later fun l' hl' => ⟨.refl _ _, ?_⟩
  refine Timeline.of_extend_other (fun e he own => fresh ?_) (by simp) past now
  have own' := TimedWorker.start_events l now e he
  exact List.mem_map.2 ⟨l', hl', Option.some.inj (own.symm.trans own')⟩

theorem SeatsFollow.fill (h : SeatsFollow final counts past launches seats n)
    (distinct : (launches.map (·.job.id)).Nodup) (now : Nat) (permits : Option Nat) :
    SeatsFollow final counts
      (past.extend now (Crew.fill (TimedWorker.staff now) permits seats).events []) launches
      (Crew.fill (TimedWorker.staff now) permits seats).seats n := by
  induction seats generalizing past launches n permits with
  | nil =>
    cases h
    exact .nil
  | cons seat seats ih =>
    cases h with
    | @cons l launches _ _ n more first rest =>
      obtain ⟨fresh, others⟩ := List.nodup_cons.1 distinct
      have kept (f) (hf : f = Crew.fill (TimedWorker.staff now) permits seats) :
          SeatsFollow final counts (past.extend now f.events []) (l :: launches)
            (seat :: f.seats) (n + more) := by
        subst hf
        exact .cons (rest.fill_of fresh now permits past ▸ first) (ih rest others permits)
      cases seat with
      | running w => exact kept _ rfl
      | finished r => exact kept _ rfl
      | waiting l' =>
        obtain rfl : l' = l := by cases first; rfl
        obtain ⟨goes, ends⟩ := first.start now
        have rest' := rest.started fresh now
        have told (permits : Option Nat) : ((past.extend now (TimedWorker.start l' now).2 []).extend
            now (Crew.fill (TimedWorker.staff now) permits seats).events []).of l'.job.id =
              (past.of l'.job.id).extend now (TimedWorker.start l' now).2 [] := by
          rw [rest'.fill_of fresh]
          exact Timeline.of_extend_own (TimedWorker.start_events l' now) (by simp) past now
        rw [Crew.fill]
        split
        · rw [Timeline.extend_nil]
          exact .cons first rest
        · cases hr : (TimedWorker.start l' now).1.worker.result? with
          | none =>
            simp only [TimedWorker.staff, hr, Timeline.extend_append]
            exact .cons (told _ ▸ goes hr) (ih rest' others _)
          | some r =>
            obtain ⟨rfl, done⟩ := ends r hr
            simp only [TimedWorker.staff, hr, Timeline.extend_append]
            exact .cons (told _ ▸ done) (ih rest' others _)

theorem SeatsFollow.refill {c : TimedCrew} (h : SeatsFollow final counts past launches c.seats n)
    (distinct : (launches.map (·.job.id)).Nodup) (now : Nat) :
    SeatsFollow final counts (past.extend now (c.refill (TimedWorker.staff now)).2 []) launches
      (c.refill (TimedWorker.staff now)).1.seats n := by
  refine (h.fill distinct now c.permits).later fun l hl => ⟨.refl _ _, ?_⟩
  rw [Crew.refill, Timeline.extend_append]
  refine Timeline.of_extend_other (fun e he => ?_) (by simp) _ now
  split at he
  · rw [List.mem_singleton.1 he]
    simp [TaskEvent.task?]
  · cases he

/-- One seat, how far it has come, and the other seats, which stay as they are as long as nothing
happens of their tasks. -/
theorem SeatsFollow.at (h : SeatsFollow final counts past launches seats n)
    (distinct : (launches.map (·.job.id)).Nodup) {i : Nat} {seat : Seat TimedWorker}
    (hi : seats[i]? = some seat) : ∃ l mine others, l ∈ launches ∧ mine + others = n ∧
      SeatFollows l (final l) counts (past.of l.job.id) seat mine ∧
      ∀ after past', (∀ task, task ≠ l.job.id → PollCounts.SameFor task counts after ∧
          past'.of task = past.of task) → ∀ seat' mine',
        SeatFollows l (final l) after (past'.of l.job.id) seat' mine' →
          SeatsFollow final after past' launches (seats.set i seat') (mine' + others) := by
  induction h generalizing i with
  | nil => simp at hi
  | @cons l launches first seats n more h rest ih =>
    obtain ⟨fresh, others⟩ := List.nodup_cons.1 distinct
    cases i with
    | zero =>
      obtain rfl : first = seat := by simpa using hi
      refine ⟨l, n, more, List.mem_cons_self, rfl, h, fun after past' same seat' mine' h' => ?_⟩
      exact .cons h' (rest.later fun l' hl' =>
        same l'.job.id fun own => fresh (List.mem_map.2 ⟨l', hl', own⟩))
    | succ i =>
      obtain ⟨l', mine, left, hl', total, follows, set⟩ := ih others (by simpa using hi)
      refine ⟨l', mine, n + left, List.mem_cons_of_mem _ hl', by omega, follows,
        fun after past' same seat' mine' h' => ?_⟩
      obtain ⟨asked, told⟩ := same l.job.id fun own => fresh (List.mem_map.2 ⟨l', hl', own.symm⟩)
      have next := SeatsFollow.cons (told ▸ h.later asked) (set after past' same seat' mine' h')
      rwa [show mine' + (n + left) = n + (mine' + left) by omega]

/-- Launches that wait have all of their steps left. -/
theorem SeatsFollow.ofLaunches {steps : Launch → Nat}
    (ends : ∀ l ∈ launches, (l.alone 0 .empty .empty).EndsIn (steps l) (final l)) :
    ∃ n, SeatsFollow final .empty .empty launches (launches.map .waiting) n := by
  induction launches with
  | nil => exact ⟨0, .nil⟩
  | cons l launches ih =>
    obtain ⟨first, rest⟩ := List.forall_mem_cons.1 ends
    obtain ⟨n, follows⟩ := ih rest
    exact ⟨steps l + n, .cons (.waiting (fun _ => rfl) rfl first) follows⟩

/-- Seats that are all finished have gone all the way. -/
theorem SeatsFollow.finished (h : SeatsFollow final counts past launches seats n)
    (done : seats.all Seat.isFinished) : n = 0 ∧
      seats.filterMap Seat.result? =
        launches.filterMap (fun l => (final l).worker.worker.result?) ∧
      ∀ l ∈ launches, ∃ start, past.of l.job.id = (final l).past.later start := by
  induction h with
  | nil => exact ⟨rfl, rfl, by simp⟩
  | cons h _ ih =>
    obtain ⟨first, rest⟩ : _ ∧ _ := by simpa using done
    cases h with
    | waiting => cases first
    | running => cases first
    | finished start past result =>
      obtain ⟨left, results, courses⟩ := ih (by simpa using rest)
      refine ⟨by omega, by simp [Seat.result?, results, result], ?_⟩
      exact List.forall_mem_cons.2 ⟨⟨start, past⟩, courses⟩

end Seats

/-! ### Crews -/

theorem foldl_earlier_le {times : List (Option Nat)} {acc : Option Nat} {first : Nat}
    (h : times.foldl earlier acc = some first) :
    (∀ time, acc = some time → first ≤ time) ∧ ∀ time, some time ∈ times → first ≤ time := by
  induction times generalizing acc with
  | nil =>
    have same : acc = some first := h
    simp [same]
  | cons t times ih =>
    obtain ⟨sofar, rest⟩ := ih h
    refine ⟨fun time hacc => ?_, fun time mem => ?_⟩
    · subst hacc
      cases t with
      | none => exact sofar time rfl
      | some b => exact Nat.le_trans (sofar _ rfl) (Nat.min_le_left ..)
    · rcases List.mem_cons.1 mem with rfl | mem
      · cases acc with
        | none => exact sofar time rfl
        | some a => exact Nat.le_trans (sofar _ rfl) (Nat.min_le_right ..)
      · exact rest time mem

/-- What happens next happens when it is due. -/
theorem step?_due {c : TimedCrew} {now : Nat} (h : due c = some now) {counts : PollCounts}
    {s : Stepped} (hs : c.step? now counts = some s) : ∃ i w, c.worker? i = some w ∧
      w.due = some now ∧ s = ⟨(c.update (TimedWorker.staff now) i (w.fire now counts).worker
          (w.fire now counts).events).1, (w.fire now counts).counts,
        (c.update (TimedWorker.staff now) i (w.fire now counts).worker
          (w.fire now counts).events).2, (w.fire now counts).trace⟩ := by
  unfold step? at hs
  obtain ⟨i, hi, hs⟩ := Option.bind_eq_some_iff.1 hs
  obtain ⟨w, hw, hs⟩ := Option.bind_eq_some_iff.1 hs
  cases hs
  refine ⟨i, w, hw, ?_, rfl⟩
  obtain ⟨hlt, passed, -⟩ := List.findIdx?_eq_some_iff_getElem.1 hi
  have seat : c.seats[i] = .running w := by
    have hget := Crew.seat_of_worker hw
    rwa [List.getElem?_eq_getElem hlt, Option.some.injEq] at hget
  rw [seat, seatDue, Option.any_eq_true] at passed
  obtain ⟨time, due, passed⟩ := passed
  have earliest := (foldl_earlier_le h).2 time
    (List.mem_map.2 ⟨.running w, seat ▸ List.getElem_mem hlt, due⟩)
  rw [due, Nat.le_antisymm (by simpa using passed) earliest]

/-- **One step of a crew is one step of one of its launches.** -/
theorem SeatsFollow.step {final : Launch → Alone} {counts : PollCounts} {past : Timeline}
    {launches : List Launch} {c : TimedCrew} {n : Nat}
    (h : SeatsFollow final counts past launches c.seats n)
    (distinct : (launches.map (·.job.id)).Nodup) {now : Nat} (first : due c = some now)
    {s : Stepped} (hs : c.step? now counts = some s) : ∃ m, n = m + 1 ∧
      SeatsFollow final s.counts (past.extend now s.events s.trace) launches s.crew.seats m := by
  obtain ⟨i, w, running, due, rfl⟩ := step?_due first hs
  obtain ⟨l, mine, others, hl, rfl, follows, set⟩ := h.at distinct (Crew.seat_of_worker running)
  have task := follows.task
  obtain ⟨m, rfl, goes, ends⟩ := follows.fire due
  -- the timeline with what has happened to the worker
  obtain ⟨fired, hfired⟩ : ∃ fired, past.extend now (w.fire now counts).events
    (w.fire now counts).trace = fired := ⟨_, rfl⟩
  have own : fired.of l.job.id = (past.of l.job.id).extend now (w.fire now counts).events
      (w.fire now counts).trace := by
    rw [← hfired]
    exact Timeline.of_extend_own (fun e he => task ▸ w.fire_events now counts e he)
      (fun e he => task ▸ (w.fire_trace now counts e he).2) past now
  have apart (other : TaskId) (ne : other ≠ l.job.id) :
      PollCounts.SameFor other counts (w.fire now counts).counts ∧
        fired.of other = past.of other := by
    refine ⟨w.fire_sameFor (task.symm ▸ ne) now counts, ?_⟩
    rw [← hfired]
    refine Timeline.of_extend_other (fun e he same => ne ?_) (fun e he same => ne ?_) past now
    · have mine := w.fire_events now counts e he
      exact (Option.some.inj (same.symm.trans mine)).trans task
    · exact same.symm.trans ((w.fire_trace now counts e he).2.trans task)
  refine ⟨m + others, by omega, ?_⟩
  unfold Crew.update
  cases hr : (TimedWorker.staff now).result? (w.fire now counts).worker with
  | none =>
    rw [hfired]
    exact set _ _ apart _ _ (own ▸ goes hr)
  | some r =>
    obtain ⟨rfl, done⟩ := ends r hr
    simp only [Timeline.extend_append, hfired]
    have next := set _ _ apart (.finished r) 0 (own ▸ done)
    exact next.refill (c := ⟨c.seats.set i (.finished r), c.permits.map (· + 1), c.results ++ [r]⟩)
      distinct now

section Run

variable {b : Batch} {final : Launch → Alone} (distinct : b.taskIds.Nodup)
  (positive : b.policy.maxConcurrency.map UInt64.toNat ≠ some 0)
include distinct positive

/-- With permits a crew goes all the way, given time and as many steps as its seats have left. -/
theorem SeatsFollow.run {c : TimedCrew} {counts : PollCounts} {past : Timeline} {n : Nat}
    (runs : Crew.Runs TimedWorker.worker b c (told past))
    (h : SeatsFollow final counts past b.launches c.seats n) : ∃ enough, ∀ limit fuel,
      enough ≤ limit → n ≤ fuel → (TimedCrew.run limit fuel c counts past).1.isDone ∧
        ∃ after, SeatsFollow final after (TimedCrew.run limit fuel c counts past).2 b.launches
          (TimedCrew.run limit fuel c counts past).1.seats 0 := by
  induction n using Nat.strongRecOn generalizing c counts past with
  | _ n ih =>
    cases done : c.isDone with
    | true =>
      have idle (i : Nat) : c.worker? i = none := by
        cases running : c.worker? i with
        | none => rfl
        | some w => cases done.symm.trans (Crew.not_isDone (Crew.seat_of_worker running))
      obtain ⟨rfl, -⟩ := h.finished done
      refine ⟨0, fun limit fuel _ _ => ?_⟩
      rw [run_of_idle idle]
      exact ⟨done, counts, h⟩
    | false =>
      obtain ⟨i, w, running⟩ := runs.staffed.progress positive done
      obtain ⟨l, _, _, -, -, follows, -⟩ := h.at distinct (Crew.seat_of_worker running)
      obtain ⟨time, due⟩ := follows.due
      obtain ⟨now, s, first, hs⟩ :=
        step?_of_moves ⟨_, .fires running due (Nat.le_refl time) (.refl counts)⟩
      obtain ⟨m, rfl, next⟩ := h.step distinct first hs
      have runs' := step?_runs runs hs
      rw [← told_extend past now s.events s.trace] at runs'
      obtain ⟨enough, ran⟩ := ih m (Nat.lt_succ_self m) runs' next
      refine ⟨max enough (now + 1), fun limit fuel late long => ?_⟩
      obtain ⟨fuel, rfl⟩ : ∃ less, fuel = less + 1 := ⟨fuel - 1, by omega⟩
      rw [TimedCrew.run, first]
      simp only [hs, if_neg (show ¬ limit ≤ now by omega)]
      exact ran limit fuel (by omega) (by omega)

/-- **A batch tells of each launch what happens to it alone**, from its start on. -/
theorem runAlone_follows {steps : Launch → Nat}
    (ends : ∀ l ∈ b.launches, (l.alone 0 .empty .empty).EndsIn (steps l) (final l)) :
    ∃ enough, ∀ limit fuel, enough ≤ limit → enough ≤ fuel → (runAlone b limit fuel).1.isDone ∧
      (runAlone b limit fuel).1.ends =
        b.launches.filterMap (fun l => (final l).worker.worker.result?) ∧
      ∀ l ∈ b.launches, ∃ start,
        (runAlone b limit fuel).2.of l.job.id = (final l).past.later start := by
  obtain ⟨n, waits⟩ := SeatsFollow.ofLaunches ends
  have assembled := SeatsFollow.refill
    (c := ⟨b.launches.map .waiting, b.policy.maxConcurrency.map UInt64.toNat, []⟩) waits distinct 0
  have runs : Crew.Runs TimedWorker.worker b (assemble b 0).1
      (told (Timeline.empty.extend 0 (assemble b 0).2 [])) := by
    rw [told_extend]
    exact .assemble (TimedWorker.staff_employs 0)
  obtain ⟨enough, ran⟩ := SeatsFollow.run distinct positive runs assembled
  refine ⟨max enough n, fun limit fuel late long => ?_⟩
  obtain ⟨done, after, follows⟩ := ran limit fuel (by omega) (by omega)
  obtain ⟨-, results, courses⟩ := follows.finished done
  exact ⟨done, results, courses⟩

end Run

end TimedCrew

/-! ### Main result -/

/-- The batch with another bound on the launches that are at work at once. -/
def Batch.within (b : Batch) (bound : Option UInt64) : Batch := { b with policy := ⟨bound⟩ }

/-- **Throttling only shifts time.**  The tasks of a batch are distinct, and each of its launches
comes to its end when it is driven alone; the calls of a launch depend on nothing but their number.

* If no more than `n` launches may be at work at once, then at no time more than `n` of them were
  created and have no result yet; as long as some launch has not been created it is just `n`.  The
  launches are created in their order.  A semaphore that is made for `n` permits holds those that
  are free at any time.
* Given time enough the batch completes, with a bound and without, and with the same results.  Each
  launch does what it does when it is driven alone, with the same calls and events at the same
  distance from its creation, whether there is a bound or not; 32 bits hold the numbers of these
  calls. -/
theorem throttling_shifts (b : Batch) (distinct : b.taskIds.Nodup)
    (terminate : ∀ l ∈ b.launches, l.Terminates) {n : UInt64}
    (permits : BatchPolicy.Permits ⟨some n⟩) :
    (∀ limit fuel told,
      told = TimedCrew.told (TimedCrew.runAlone (b.within (some n)) limit fuel).2 →
      b.inSpan told ≤ n.toNat ∧
      (∀ l ∈ b.launches, l.isCreated told = false → b.inSpan told = n.toNat) ∧
      told.filterMap TaskEvent.created? <+: b.taskIds ∧
      ∀ free, (TimedCrew.runAlone (b.within (some n)) limit fuel).1.permits = some free →
        free ≤ BatchPolicy.maxPermits) ∧
    ∃ course : Launch → Timeline,
      (∀ l ∈ b.launches, (course l).events.head? = some (0, .created l.job.id) ∧
        (course l).Counted ∧ ∃ enough, ∀ limit fuel, enough ≤ limit → enough ≤ fuel →
          (l.drive 0 .empty limit fuel).2 = course l) ∧
      ∃ enough, ∀ limit fuel, enough ≤ limit → enough ≤ fuel → ∀ throttled free,
        throttled = TimedCrew.runAlone (b.within (some n)) limit fuel →
        free = TimedCrew.runAlone (b.within none) limit fuel →
        throttled.1.isDone ∧ free.1.isDone ∧ throttled.1.ends = free.1.ends ∧
        ∀ l ∈ b.launches, ∃ start start',
          throttled.2.of l.job.id = (course l).later start ∧
          free.2.of l.job.id = (course l).later start' := by
  refine ⟨?_, ?_⟩
  · rintro limit fuel _ rfl
    have runs := TimedCrew.runAlone_runs (b.within (some n)) limit fuel
    obtain ⟨most, all⟩ := runs.throttled (b := b.within (some n)) distinct rfl
    exact ⟨most, all, runs.created_order, fun free hfree => permits.free_le runs.staffed hfree⟩
  · have each (l : Launch) : ∃ steps final, l ∈ b.launches →
        (l.alone 0 .empty .empty).EndsIn steps final ∧ final.past.Counted := by
      by_cases hl : l ∈ b.launches
      · obtain ⟨steps, final, ends⟩ := (terminate l hl).ends
        exact ⟨steps, final, fun _ => ends⟩
      · exact ⟨0, l.alone 0 .empty .empty, fun hl' => absurd hl' hl⟩
    choose steps final comes using each
    have ends (l : Launch) (hl : l ∈ b.launches) := (comes l hl).1
    have nonzero : (some n).map UInt64.toNat ≠ some 0 := by
      simpa using Nat.ne_of_gt (permits n rfl).1
    -- in both batches each launch follows the course that it takes alone
    obtain ⟨enough, ran⟩ :=
      TimedCrew.runAlone_follows (b := b.within (some n)) distinct nonzero ends
    obtain ⟨enough', ran'⟩ :=
      TimedCrew.runAlone_follows (b := b.within none) distinct (by simp [Batch.within]) ends
    refine ⟨fun l => (final l).past, fun l hl => ⟨(ends l hl).created, (comes l hl).2, ?_⟩,
      max enough enough', ?_⟩
    · obtain ⟨enough, alone⟩ := (ends l hl).run (l.alone_serves 0 .empty)
      exact ⟨max enough (steps l), fun limit fuel late long =>
        congrArg Prod.snd (alone limit fuel (by omega) (by omega))⟩
    · rintro limit fuel late long _ _ rfl rfl
      obtain ⟨done, results, courses⟩ := ran limit fuel (by omega) (by omega)
      obtain ⟨done', results', courses'⟩ := ran' limit fuel (by omega) (by omega)
      refine ⟨done, done', results.trans results'.symm, fun l hl => ?_⟩
      obtain ⟨start, course⟩ := courses l hl
      obtain ⟨start', course'⟩ := courses' l hl
      exact ⟨start, start', course, course'⟩

/-- A job that hangs until its deadline passes. -/
def Job.hanging : Job :=
  ⟨.ofNat 2, { (default : TaskPolicy) with timeoutMs := 20 }, fun _ => ⟨none, .broke "lost"⟩⟩

/-- A brief job and one that hangs. -/
def Batch.queued : Batch := ⟨[⟨.brief, .submit⟩, ⟨.hanging, .submit⟩], default⟩

/-- One at a time, the second launch starts when the first one has ended, and its deadline passes
20 ms later; both at once, it starts at once and its deadline passes 20 ms later as well. -/
theorem throttling_shifts_queued :
    (TimedCrew.runAlone (Batch.queued.within (some 1)) 100 20).2.events.map
        (fun e => (e.1, e.2.kind)) =
      [(0, "created"), (5, "result"), (5, "created"), (25, "result"), (25, "completed")] ∧
    (TimedCrew.runAlone (Batch.queued.within none) 100 20).2.events.map
        (fun e => (e.1, e.2.kind)) =
      [(0, "created"), (0, "created"), (5, "result"), (20, "result"), (20, "completed")] ∧
    (∀ limit fuel, Batch.queued.inSpan
      (TimedCrew.told (TimedCrew.runAlone (Batch.queued.within (some 1)) limit fuel).2) ≤ 1) ∧
    ∃ enough, ∀ limit fuel, enough ≤ limit → enough ≤ fuel →
      (TimedCrew.runAlone (Batch.queued.within (some 1)) limit fuel).1.ends =
        (TimedCrew.runAlone (Batch.queued.within none) limit fuel).1.ends := by
  have terminate : ∀ l ∈ Batch.queued.launches, l.Terminates := by
    intro l hl
    rcases List.mem_cons.1 hl with rfl | hl
    · exact ⟨100, 20, Option.ne_none_iff_exists'.2 ⟨_, rfl⟩, by
        unfold Timeline.Counted; decide +kernel⟩
    · rw [List.mem_singleton.1 hl]
      exact ⟨100, 20, Option.ne_none_iff_exists'.2 ⟨_, rfl⟩, by
        unfold Timeline.Counted; decide +kernel⟩
  have permits : BatchPolicy.Permits ⟨some 1⟩ := by
    rintro n ⟨⟩
    decide
  obtain ⟨spans, course, -, enough, runs⟩ :=
    throttling_shifts .queued (by decide) terminate permits
  refine ⟨by decide +kernel, by decide +kernel, fun limit fuel => (spans limit fuel _ rfl).1,
    enough, fun limit fuel late long => ?_⟩
  exact (runs limit fuel late long _ _ rfl rfl).2.2.1

end Workflow
