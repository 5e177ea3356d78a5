import Workflow.Batch.Timed
import Workflow.Proofs.Worker.Reports

/-!
# Workflow.Proofs.Batch.Runs — the events of a batch that has completed

When a batch has completed, every launch has ended after events of its own; the batch has reported
them interleaved in some order, and `completed` last (`Batch.Completes`).  Here the order is any
order at all, whichever worker starts first and however many may run at once.  A crew restricts it
by its permits, so the runs of crews, timed or not, are among these runs (`Crew.Runs.completes`).
-/

namespace Workflow

/-! ### Interleavings -/

/-- Each next element is the next one of some list. -/
inductive Interleaved {α : Type} : List (List α) → List α → Prop
  | nil (n : Nat) : Interleaved (List.replicate n []) []
  | snoc {before after : List (List α)} {l all : List α}
    (h : Interleaved (before ++ l :: after) all) (a : α) :
    Interleaved (before ++ (l ++ [a]) :: after) (all ++ [a])

namespace Interleaved

variable {α : Type}

theorem append {before after : List (List α)} {l all : List α}
    (h : Interleaved (before ++ l :: after) all) (more : List α) :
    Interleaved (before ++ (l ++ more) :: after) (all ++ more) := by
  induction more generalizing l all with
  | nil => simpa using h
  | cons a more ih => simpa using ih (h.snoc a)

theorem perm {ls : List (List α)} {all : List α} (h : Interleaved ls all) :
    all.Perm ls.flatten := by
  induction h with
  | nil n => simp
  | @snoc before after l all _ a ih =>
    have comm : (after.flatten ++ [a]).Perm ([a] ++ after.flatten) := List.perm_append_comm
    have moved : ((before ++ l :: after).flatten ++ [a]).Perm
        (before ++ (l ++ [a]) :: after).flatten := by
      simpa using (comm.append_left l).append_left before.flatten
    exact (ih.append_right [a]).trans moved

end Interleaved

/-! ### Completed batches -/

/-- Launches with the results and the events with which they end. -/
inductive Launch.AllEnd : List Launch → List TaskResult → List (List TaskEvent) → Prop
  | nil : AllEnd [] [] []
  | cons {launch : Launch} {r : TaskResult} {events : List TaskEvent} {launches : List Launch}
    {ends : List TaskResult} {told : List (List TaskEvent)} (h : launch.Ends r events)
    (rest : AllEnd launches ends told) : AllEnd (launch :: launches) (r :: ends) (events :: told)

theorem Launch.AllEnd.reports {launches : List Launch} {ends : List TaskResult}
    {told : List (List TaskEvent)} (h : AllEnd launches ends told) :
    told.flatten.filterMap TaskEvent.result? = ends ∧
      ends.map TaskResult.task = launches.map (·.job.id) ∧
      ∀ e ∈ told.flatten, e ≠ .completed := by
  induction h with
  | nil => exact ⟨rfl, rfl, by simp⟩
  | @cons launch r events launches ends told h _ ih =>
    obtain ⟨hresults, htask, hrunning⟩ := h.reports
    refine ⟨?_, ?_, fun e he => ?_⟩
    · rw [List.flatten_cons, List.filterMap_append, hresults, ih.1, List.singleton_append]
    · rw [List.map_cons, List.map_cons, htask, ih.2.1]
    · rcases List.mem_append.1 (List.flatten_cons ▸ he) with he | he
      · exact hrunning e he
      · exact ih.2.2 e he

/-- The batch has completed: its launches have ended with these results, in launch order, and it has
reported these events. -/
def Batch.Completes (b : Batch) (ends : List TaskResult) (events : List TaskEvent) : Prop :=
  ∃ told before, Launch.AllEnd b.launches ends told ∧ Interleaved told before ∧
    events = before ++ [.completed]

/-- **The results in the order of their events** are those with which the launches have ended, once
each, in some order. -/
theorem Batch.Completes.results {b : Batch} {ends : List TaskResult} {events : List TaskEvent}
    (h : b.Completes ends events) : ∃ before, events = before ++ [.completed] ∧
      (∀ e ∈ before, e ≠ .completed) ∧ (before.filterMap TaskEvent.result?).Perm ends := by
  obtain ⟨told, before, hends, hall, rfl⟩ := h
  obtain ⟨hresults, -, hrunning⟩ := hends.reports
  refine ⟨before, rfl, fun e he => hrunning e (hall.perm.mem_iff.1 he), ?_⟩
  rw [← hresults]
  exact hall.perm.filterMap _

theorem Batch.Completes.tasks {b : Batch} {ends : List TaskResult} {events : List TaskEvent}
    (h : b.Completes ends events) : ends.map TaskResult.task = b.taskIds := by
  obtain ⟨told, before, hends, -, -⟩ := h
  exact hends.reports.2.1

/-! ### Crews -/

section Crews

variable {W : Type} (bare : W → Worker)

/-- What staff knows of its workers is what is known of bare ones. -/
structure Staff.Employs (staff : Staff W) : Prop where
  start : ∀ l, Worker.start l = (bare (staff.start l).1, (staff.start l).2)
  result : ∀ w, staff.result? w = (bare w).result?

/-- A worker reacts to a signal, or only something around it changes. -/
inductive Reacts (w w' : W) (events : List TaskEvent) : Prop
  | signal (s : Worker.Signal) (h : (bare w).react s = (bare w', events))
  | quiet (h : bare w' = bare w) (nothing : events = [])

/-- What a crew may come to, and the events that it has reported by then. -/
inductive Crew.Runs (b : Batch) : Crew W → List TaskEvent → Prop
  | assemble {staff : Staff W} (h : staff.Employs bare) :
    Runs b (Crew.assemble staff b).1 (Crew.assemble staff b).2
  | update {staff : Staff W} (h : staff.Employs bare) {c : Crew W} {all : List TaskEvent}
    (run : Runs b c all) {i : Nat} {w w' : W} {events : List TaskEvent}
    (hw : c.worker? i = some w) (hr : Reacts bare w w' events) :
    Runs b (c.update staff i w' events).1 (all ++ (c.update staff i w' events).2)

/-- The result of a seat, once it has one. -/
def Seat.result? : Seat W → Option TaskResult
  | .finished r => some r
  | _ => none

/-- The results of a crew's seats in launch order. -/
def Crew.ends (c : Crew W) : List TaskResult := c.seats.filterMap Seat.result?

/-- What a seat has told by now. -/
inductive Seat.Told (launch : Launch) : Seat W → List TaskEvent → Prop
  | waiting : Told launch (.waiting launch) []
  | running {w : W} {events : List TaskEvent} (h : (bare w).History launch events)
    (going : (bare w).result? = none) : Told launch (.running w) events
  | finished {w : Worker} {r : TaskResult} {events : List TaskEvent}
    (h : w.History launch events) (hr : w.result? = some r) : Told launch (.finished r) events

/-- Launches with their seats and what these have told. -/
inductive Seated : List Launch → List (Seat W) → List (List TaskEvent) → Prop
  | nil : Seated [] [] []
  | cons {launch : Launch} {seat : Seat W} {events : List TaskEvent} {launches : List Launch}
    {seats : List (Seat W)} {told : List (List TaskEvent)} (h : seat.Told bare launch events)
    (rest : Seated launches seats told) :
    Seated (launch :: launches) (seat :: seats) (events :: told)

variable {bare}

theorem Seated.waiting (launches : List Launch) :
    Seated bare launches (launches.map .waiting) (List.replicate launches.length []) := by
  induction launches with
  | nil => exact .nil
  | cons launch launches ih => exact .cons .waiting ih

/-- One seat may tell more. -/
theorem Seated.at {launches : List Launch} {seats : List (Seat W)} {told : List (List TaskEvent)}
    (h : Seated bare launches seats told) {i : Nat} {seat : Seat W} (hi : seats[i]? = some seat) :
    ∃ launch before events after, told = before ++ events :: after ∧
      seat.Told bare launch events ∧ ∀ seat' events', seat'.Told bare launch events' →
        Seated bare launches (seats.set i seat') (before ++ events' :: after) := by
  induction h generalizing i with
  | nil => simp at hi
  | @cons launch first events launches seats told h rest ih =>
    cases i with
    | zero =>
      obtain rfl : first = seat := by simpa using hi
      exact ⟨launch, [], events, told, rfl, h, fun _ _ h' => .cons h' rest⟩
    | succ i =>
      obtain ⟨launch', before, events', after, rfl, htold, hset⟩ := ih (by simpa using hi)
      exact ⟨launch', events :: before, events', after, rfl, htold,
        fun seat' events'' h' => .cons h (hset seat' events'' h')⟩

/-- When all seats are finished, their launches have ended. -/
theorem Seated.allEnd {launches : List Launch} {seats : List (Seat W)}
    {told : List (List TaskEvent)} (h : Seated bare launches seats told)
    (done : seats.all Seat.isFinished) :
    Launch.AllEnd launches (seats.filterMap Seat.result?) told := by
  induction h with
  | nil => exact .nil
  | cons h _ ih =>
    obtain ⟨hfirst, hrest⟩ : _ ∧ _ := by simpa using done
    cases h with
    | waiting => cases hfirst
    | running => cases hfirst
    | finished h hr => exact .cons (.finished h hr) (ih (by simpa using hrest))

/-- Seats that are filled tell how their workers start. -/
theorem Seated.fill {staff : Staff W} (hs : staff.Employs bare) {launches : List Launch}
    {seats : List (Seat W)} {told : List (List TaskEvent)} (h : Seated bare launches seats told)
    (permits : Option Nat) (before : List (List TaskEvent)) (all : List TaskEvent)
    (hall : Interleaved (before ++ told) all) :
    ∃ told', Seated bare launches (Crew.fill staff permits seats).seats told' ∧
      Interleaved (before ++ told') (all ++ (Crew.fill staff permits seats).events) := by
  induction h generalizing permits before all with
  | nil => exact ⟨[], .nil, by simpa [Crew.fill] using hall⟩
  | @cons launch seat events launches seats told h rest ih =>
    -- a seat that is not filled keeps what it has told
    have kept : ∀ f : Crew.Filled W, f = Crew.fill staff permits seats →
        ∃ told', Seated bare (launch :: launches) (seat :: f.seats) told' ∧
          Interleaved (before ++ told') (all ++ f.events) := by
      rintro f rfl
      obtain ⟨told', hseated, hall'⟩ := ih permits (before ++ [events]) all (by simpa using hall)
      exact ⟨events :: told', .cons h hseated, by simpa using hall'⟩
    cases h with
    | running h going => exact kept _ rfl
    | finished h hr => exact kept _ rfl
    | waiting =>
      unfold Crew.fill
      by_cases hp : permits = some 0
      · rw [if_pos hp]
        exact ⟨[] :: told, .cons .waiting rest, by simpa using hall⟩
      · rw [if_neg hp]
        have hstart := hs.start launch
        have hresult := hs.result (staff.start launch).1
        have history : (bare (staff.start launch).1).History launch (staff.start launch).2 := by
          have started : (Worker.start launch).1.History launch (Worker.start launch).2 := .start
          rwa [hstart] at started
        have hall' := hall.append (staff.start launch).2
        simp only [List.nil_append] at hall'
        cases hr : staff.result? (staff.start launch).1 with
        | some r =>
          obtain ⟨told', hseated, hall''⟩ := ih permits (before ++ [(staff.start launch).2])
            (all ++ (staff.start launch).2) (by simpa using hall')
          refine ⟨(staff.start launch).2 :: told', ?_, by simpa [hr] using hall''⟩
          simpa [hr] using .cons (.finished history (hresult ▸ hr)) hseated
        | none =>
          obtain ⟨told', hseated, hall''⟩ := ih (permits.map (· - 1))
            (before ++ [(staff.start launch).2]) (all ++ (staff.start launch).2)
            (by simpa using hall')
          refine ⟨(staff.start launch).2 :: told', ?_, by simpa [hr] using hall''⟩
          simpa [hr] using .cons (.running history (hresult ▸ hr)) hseated

/-- A crew whose seats have told this, interleaved, and that has reported `completed` if it is done.
-/
def Crew.Reported (bare : W → Worker) (launches : List Launch) (c : Crew W)
    (all : List TaskEvent) : Prop :=
  ∃ told before, Seated bare launches c.seats told ∧ Interleaved told before ∧
    all = before ++ if c.isDone then [.completed] else []

theorem Crew.Reported.refill {staff : Staff W} (hs : staff.Employs bare) {launches : List Launch}
    {c : Crew W} {told : List (List TaskEvent)} {before : List TaskEvent}
    (hseated : Seated bare launches c.seats told) (hall : Interleaved told before) :
    Crew.Reported bare launches (c.refill staff).1 (before ++ (c.refill staff).2) := by
  obtain ⟨told', hseated', hall'⟩ := hseated.fill hs c.permits [] before (by simpa using hall)
  refine ⟨told', _, hseated', by simpa using hall', ?_⟩
  rw [List.append_assoc]
  rfl

/-- As long as a worker runs the crew is not done. -/
theorem Crew.not_isDone {c : Crew W} {i : Nat} {w : W} (h : c.seats[i]? = some (.running w)) :
    c.isDone = false := by
  rw [Crew.isDone, List.all_eq_false]
  exact ⟨_, List.mem_of_getElem? h, by simp [Seat.isFinished]⟩

theorem Crew.seat_of_worker {c : Crew W} {i : Nat} {w : W} (h : c.worker? i = some w) :
    c.seats[i]? = some (.running w) := by
  unfold Crew.worker? at h
  split at h
  · cases h
    assumption
  · cases h

/-- A running worker reacts: it goes on, or it is done and its permit goes to the next seat. -/
theorem Crew.Reported.update {staff : Staff W} (hs : staff.Employs bare) {launches : List Launch}
    {c : Crew W} {all : List TaskEvent} (h : Crew.Reported bare launches c all) {i : Nat}
    {w w' : W} {events : List TaskEvent} (hw : c.worker? i = some w)
    (hr : Reacts bare w w' events) :
    Crew.Reported bare launches (c.update staff i w' events).1
      (all ++ (c.update staff i w' events).2) := by
  obtain ⟨told, before, hseated, hall, rfl⟩ := h
  have hi := Crew.seat_of_worker hw
  obtain ⟨launch, first, events', last, rfl, htold, hset⟩ := hseated.at hi
  have history : (bare w').History launch (events' ++ events) := by
    cases htold with
    | running h going =>
      cases hr with
      | signal s hreact =>
        have react := h.react s
        rwa [hreact] at react
      | quiet hsame hnone => rwa [hsame, hnone, List.append_nil]
  have hall' := hall.append events
  simp only [Crew.not_isDone hi, Bool.false_eq_true, if_false, List.append_nil]
  have hresult := hs.result w'
  unfold Crew.update
  cases hdone : staff.result? w' with
  | none =>
    have hseated' := hset _ _ (.running history (hresult ▸ hdone))
    have hi' : (c.seats.set i (.running w'))[i]? = some (.running w') :=
      List.getElem?_set_self (List.getElem?_eq_some_iff.1 hi).1
    refine ⟨_, _, hseated', hall', ?_⟩
    have hgoing : ({ c with seats := c.seats.set i (.running w') } : Crew W).isDone = false :=
      Crew.not_isDone hi'
    simp [hgoing]
  | some r =>
    have hseated' := hset _ _ (.finished history (hresult ▸ hdone))
    have filled := Crew.Reported.refill hs (c := ⟨c.seats.set i (.finished r),
      c.permits.map (· + 1), c.results ++ [r]⟩) hseated' hall'
    simpa [List.append_assoc] using filled

theorem Crew.Runs.reported {b : Batch} {c : Crew W} {all : List TaskEvent}
    (h : Crew.Runs bare b c all) : Crew.Reported bare b.launches c all := by
  induction h with
  | @assemble staff hs =>
    have nothing : Interleaved (List.replicate b.launches.length []) ([] : List TaskEvent) := .nil _
    have started := Crew.Reported.refill hs
      (c := ⟨b.launches.map .waiting, b.policy.maxConcurrency.map UInt64.toNat, []⟩)
      (Seated.waiting b.launches) nothing
    rwa [List.nil_append] at started
  | update hs _ hw hr ih => exact ih.update hs hw hr

/-- **A crew that is done has completed its batch**, with the results of its seats. -/
theorem Crew.Runs.completes {b : Batch} {c : Crew W} {all : List TaskEvent}
    (h : Crew.Runs bare b c all) (done : c.isDone) : b.Completes c.ends all := by
  obtain ⟨told, before, hseated, hall, rfl⟩ := h.reported
  exact ⟨told, before, hseated.allEnd done, hall, by simp [done]⟩

end Crews

/-! ### Bare and timed crews -/

theorem Worker.staff_employs : Worker.staff.Employs id := ⟨fun _ => rfl, fun _ => rfl⟩

/-- Seats of bare workers get signals one after the other. -/
def Crew.deliverAll (c : Crew Worker) : List (Nat × Worker.Signal) → Crew Worker × List TaskEvent
  | [] => (c, [])
  | (i, s) :: rest =>
    let (c, events) := c.deliver Worker.staff i s
    let (c, more) := c.deliverAll rest
    (c, events ++ more)

/-- A batch of bare workers from its start on. -/
def Batch.signaled (b : Batch) (signals : List (Nat × Worker.Signal)) :
    Crew Worker × List TaskEvent :=
  let (c, events) := Crew.assemble Worker.staff b
  let (c, more) := c.deliverAll signals
  (c, events ++ more)

theorem Crew.Runs.deliver {b : Batch} {c : Crew Worker} {all : List TaskEvent}
    (h : Crew.Runs id b c all) (i : Nat) (s : Worker.Signal) :
    Crew.Runs id b (c.deliver Worker.staff i s).1 (all ++ (c.deliver Worker.staff i s).2) := by
  unfold Crew.deliver
  cases hw : c.worker? i with
  | none => simpa using h
  | some w =>
    have hr : Reacts id w (w.react s).1 (w.react s).2 := .signal s rfl
    exact h.update Worker.staff_employs hw hr

theorem Crew.Runs.deliverAll {b : Batch} (signals : List (Nat × Worker.Signal)) {c : Crew Worker}
    {all : List TaskEvent} (h : Crew.Runs id b c all) :
    Crew.Runs id b (c.deliverAll signals).1 (all ++ (c.deliverAll signals).2) := by
  induction signals generalizing c all with
  | nil => simpa [Crew.deliverAll] using h
  | cons signal signals ih =>
    have rest := ih (h.deliver signal.1 signal.2)
    rwa [List.append_assoc] at rest

namespace TimedWorker

/-- What becomes of a worker that sets the timer of its phase: it waits until now or later, it asks
for a poll, or it is done and waits for nothing any more. -/
inductive Arranges (w : TimedWorker) (now : Nat) (counts : PollCounts) (events : List TaskEvent)
    (trace : List TraceEntry) : Fired → Prop
  | waits (wake : Option (Nat × Wake)) (going : w.worker.result? = none)
    (ahead : ∀ timer, wake = some timer → now ≤ timer.1) :
    Arranges w now counts events trace ⟨{ w with wake := wake }, counts, events, trace⟩
  | polls (key : List Nat) (n : Nat) (last : TaskResult) (wake : Wake)
    (going : w.worker.result? = none)
    (asked : n = (counts.get? (key, w.worker.task)).getD 0 + 1) :
    Arranges w now counts events trace
      ⟨{ w with wake := some (now, wake) }, counts.put (key, w.worker.task) n, events,
        trace ++ [⟨now, w.worker.task, .createPoll n last⟩]⟩
  | ends {r : TaskResult} (phase : w.worker.phase = .done r) :
    Arranges w now counts events trace
      ⟨{ w with wake := none, deadline := none }, counts, events, trace⟩

theorem arrange_arranges (w : TimedWorker) (now : Nat) (counts : PollCounts)
    (events : List TaskEvent) (trace : List TraceEntry) :
    Arranges w now counts events trace (w.arrange now counts events trace) := by
  unfold arrange
  cases phase : w.worker.phase with
  | calling failures =>
    exact .waits _ (by simp [Worker.result?, phase]) (by rintro _ ⟨⟩; exact Nat.le_refl now)
  | backingOff failures delay =>
    exact .waits _ (by simp [Worker.result?, phase]) (by rintro _ ⟨⟩; exact Nat.le_add_right ..)
  | polling last failures polls =>
    have going : w.worker.result? = none := by simp [Worker.result?, phase]
    cases w.launch.kind with
    | submit => exact .waits none going (by simp)
    | poll monitor => exact .polls monitor.key _ last _ going rfl
  | resting last failures polls =>
    exact .waits _ (by simp [Worker.result?, phase]) (by rintro _ ⟨⟩; exact Nat.le_add_right ..)
  | done r => exact .ends phase

/-- What becomes of a worker to which the next thing happens: nothing, as it waits for nothing, a
call starts, or the worker gets a signal. -/
inductive Fires (w : TimedWorker) (now : Nat) (counts : PollCounts) : Fired → Prop
  | idle : Fires w now counts ⟨w, counts, [], []⟩
  | begins (n : Nat) (call : Call) (mark : Mark) :
    Fires w now counts ⟨{ w with wake := call.time.map (now + ·, .reply n call.reply) }, counts, [],
      [⟨now, w.worker.task, mark⟩]⟩
  | signals (s : Worker.Signal) (trace : List TraceEntry)
    (own : ∀ e ∈ trace, e.time = now ∧ e.task = w.worker.task) :
    Fires w now counts (w.signal now counts s trace)

theorem fire_fires (w : TimedWorker) (now : Nat) (counts : PollCounts) :
    Fires w now counts (w.fire now counts) := by
  unfold fire
  split
  · exact .signals .expired [] (by simp)
  · simp only
    split
    · exact .idle
    · exact .begins ..
    · refine .signals _ _ ?_
      split <;> simp
    · exact .signals .elapsed [] (by simp)
    · exact .signals _ [] (by simp)
    · exact .signals _ [] (by simp)

theorem arrange_events (w : TimedWorker) (now : Nat) (counts : PollCounts)
    (events : List TaskEvent) (trace : List TraceEntry) :
    (w.arrange now counts events trace).worker.worker = w.worker ∧
      (w.arrange now counts events trace).events = events := by
  have arranges := w.arrange_arranges now counts events trace
  generalize w.arrange now counts events trace = fired at arranges
  cases arranges <;> exact ⟨rfl, rfl⟩

theorem staff_employs (now : Nat) : (staff now).Employs worker := by
  refine ⟨fun l => ?_, fun _ => rfl⟩
  obtain ⟨hworker, hevents⟩ := arrange_events ⟨l, (Worker.start l).1, none,
    (Worker.start l).1.policy.timeout?.map (now + ·.timerMs)⟩ now .empty (Worker.start l).2 []
  exact Prod.ext hworker.symm hevents.symm

theorem signal_reacts (w : TimedWorker) (now : Nat) (counts : PollCounts) (s : Worker.Signal)
    (trace : List TraceEntry) :
    Reacts worker w (w.signal now counts s trace).worker (w.signal now counts s trace).events := by
  obtain ⟨hworker, hevents⟩ := arrange_events { w with worker := (w.worker.react s).1 } now counts
    (w.worker.react s).2 trace
  exact .signal s (Prod.ext hworker.symm hevents.symm)

theorem fire_reacts (w : TimedWorker) (now : Nat) (counts : PollCounts) :
    Reacts worker w (w.fire now counts).worker (w.fire now counts).events := by
  have fires := w.fire_fires now counts
  generalize w.fire now counts = fired at fires
  cases fires with
  | idle => exact .quiet rfl rfl
  | begins => exact .quiet rfl rfl
  | signals => exact signal_reacts ..

end TimedWorker

namespace TimedCrew

theorem step?_runs {b : Batch} {c : TimedCrew} {all : List TaskEvent}
    (h : Crew.Runs TimedWorker.worker b c all) {now : Nat} {counts : PollCounts} {s : Stepped}
    (hs : c.step? now counts = some s) :
    Crew.Runs TimedWorker.worker b s.crew (all ++ s.events) := by
  unfold step? at hs
  obtain ⟨i, -, hs⟩ := Option.bind_eq_some_iff.1 hs
  obtain ⟨w, hw, hs⟩ := Option.bind_eq_some_iff.1 hs
  cases hs
  exact h.update (TimedWorker.staff_employs now) hw (w.fire_reacts now counts)

/-- The events of a timeline, without their times. -/
def told (past : Timeline) : List TaskEvent := past.events.map Prod.snd

theorem told_extend (past : Timeline) (now : Nat) (events : List TaskEvent)
    (trace : List TraceEntry) : told (past.extend now events trace) = told past ++ events := by
  simp [told, Timeline.extend, Function.comp_def]

theorem run_runs {b : Batch} (limit fuel : Nat) {c : TimedCrew} (counts : PollCounts)
    {past : Timeline} (h : Crew.Runs TimedWorker.worker b c (told past)) :
    Crew.Runs TimedWorker.worker b (run limit fuel c counts past).1
      (told (run limit fuel c counts past).2) := by
  induction fuel generalizing c counts past with
  | zero => exact h
  | succ fuel ih =>
    unfold run
    split
    · exact h
    · rename_i now _
      split
      · exact h
      · cases hs : c.step? now counts with
        | none => exact h
        | some s =>
          refine ih s.counts ?_
          rw [told_extend]
          exact step?_runs h hs

theorem runAlone_runs (b : Batch) (limit fuel : Nat) :
    Crew.Runs TimedWorker.worker b (runAlone b limit fuel).1 (told (runAlone b limit fuel).2) := by
  refine run_runs limit fuel .empty ?_
  rw [told_extend]
  exact .assemble (TimedWorker.staff_employs 0)

end TimedCrew

end Workflow
