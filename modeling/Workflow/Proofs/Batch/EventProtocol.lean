import Mathlib.Data.List.Forall2
import Workflow.Proofs.Batch.Roster
import Workflow.Proofs.Batch.Runs

/-!
# Workflow.Proofs.Batch.EventProtocol — what a batch has sent at every moment

At every moment of every run of a roster the events of one launch are the first ones of: created,
perhaps submitted, one result.  The batch completes last and once, when it has taken all results,
and the results that it has taken are those of the events (`batch_event_protocol`).  The crews of a
batch, bare or timed, show at every moment what some roster shows (`Crew.Runs.mirrored`).
-/

namespace Workflow

namespace Roster

/-! ### The result of a launch -/

section Results

variable {b : Batch} {x : Roster} (h : Sound b x)
include h

/-- The result that was taken from a launch is the one that was sent for it. -/
theorem Sound.result_mem {i : Nat} {l : Launch} {r : TaskResult}
    (hi : x.posts[i]? = some (l, .joined r)) :
    r.task = l.job.id ∧ ∀ r', .result l.job.id r' ∈ x.sent ↔ r' = r := by
  have told := h.told i l _ hi
  cases told with
  | joined ends =>
    obtain ⟨opening, hopening, htask, htold⟩ := ends.told
    refine ⟨htask, fun r' => ?_⟩
    rw [← mem_told (show (TaskEvent.result l.job.id r').task? = some l.job.id from rfl), htold]
    cases hopening <;> simp

theorem Sound.joined_of_allJoined (all : x.allJoined) {l : Launch} (hl : l ∈ b.launches) :
    ∃ (i : Nat) (r : TaskResult), x.posts[i]? = some (l, .joined r) ∧ r ∈ x.results := by
  obtain ⟨i, stage, hi⟩ := h.post hl
  have hmem := List.mem_of_getElem? hi
  have hjoined := List.all_eq_true.1 all _ hmem
  cases stage with
  | joined r => exact ⟨i, r, hi, h.results.mem_iff.2 (List.mem_filterMap.2 ⟨_, hmem, rfl⟩)⟩
  | _ => simp [Stage.isJoined] at hjoined

/-- When all results were taken there is one of every task. -/
theorem Sound.tasks (all : x.allJoined) : (x.results.map TaskResult.task).Perm b.taskIds := by
  refine (h.results.map _).trans ?_
  rw [Batch.taskIds, ← h.launches, List.map_map, List.map_filterMap]
  refine .of_eq ?_
  have each : ∀ p ∈ x.posts, (p.2.result?.map TaskResult.task) = some p.1.job.id := by
    rintro ⟨l, stage⟩ hmem
    obtain ⟨i, hi⟩ := List.getElem?_of_mem hmem
    have hjoined := List.all_eq_true.1 all _ hmem
    cases stage with
    | joined r => exact congrArg some (h.result_mem hi).1
    | _ => simp [Stage.isJoined] at hjoined
  rw [List.filterMap_eq_map_iff_forall_eq_some.2 each]
  rfl

/-- Nothing is sent after the batch has completed, and by then there is a result of every launch. -/
theorem Sound.completed_last (hc : .completed ∈ x.sent) : ∃ before,
    x.sent = before ++ [.completed] ∧ .completed ∉ before ∧
      ∀ l ∈ b.launches, ∃ r, .result l.job.id r ∈ before := by
  have hret : x.returned = true := by
    cases hret : x.returned with
    | true => rfl
    | false => exact absurd hc (h.going hret)
  obtain ⟨all, before, hsent, hfresh⟩ := h.closed hret
  refine ⟨before, hsent, hfresh, fun l hl => ?_⟩
  obtain ⟨i, r, hi, -⟩ := h.joined_of_allJoined all hl
  have hmem : .result l.job.id r ∈ x.sent := ((h.result_mem hi).2 r).2 rfl
  rw [hsent] at hmem
  exact ⟨r, by simpa using hmem⟩

end Results

end Roster

/-- The signal breaks off the monitor of a worker that polls. -/
def Worker.Breaks (w : Worker) (s : Worker.Signal) (detail : String) : Prop :=
  s = .monitorBroke detail ∧ ∃ last failures polls, w.phase = .polling last failures polls

/-! ### What comes before a submission, and after a break -/

/-- Only the successful answer to an attempt makes a worker report a submission. -/
theorem Stage.Moves.submits {l : Launch} {how : Nat → Roster.Act} {stage stage' : Stage}
    {events : List TaskEvent} (h : stage.Moves l how stage' events) {task : TaskId}
    (hs : .submitted task ∈ events ++ stage'.outbox) : .submitted task ∈ stage.outbox ∨
      ∃ w failures answer, stage = .working w [] ∧ w.phase = .calling failures ∧
        how = (.signal · (.answered (.ok answer))) ∧ answer.status = .success := by
  cases h with
  | starts => exact absurd hs (Worker.submitted_notMem_start l task)
  | sends => exact .inl hs
  | reacts w s =>
    obtain ⟨-, failures, answer, calling, rfl, success⟩ := Worker.submitted_of_react hs
    exact .inr ⟨w, failures, answer, rfl, calling, rfl, success⟩
  | breaks => exact absurd hs List.not_mem_nil
  | joins => exact absurd hs List.not_mem_nil
  | crashes => simp [Stage.outbox] at hs

/-- In a run an attempt of a launch was answered with success, before its submission was reported.
-/
def Batch.SucceedsFirst (b : Batch) (acts : List Roster.Act) (l : Launch) : Prop :=
  ∃ fs i answer gs w failures, acts = fs ++ .signal i (.answered (.ok answer)) :: gs ∧
    answer.status = .success ∧ (b.after fs).posts[i]? = some (l, .working w []) ∧
    w.phase = .calling failures ∧ .submitted l.job.id ∉ (b.after fs).sent

theorem Batch.SucceedsFirst.append {b : Batch} {acts : List Roster.Act} {l : Launch}
    (h : b.SucceedsFirst acts l) (more : List Roster.Act) : b.SucceedsFirst (acts ++ more) l := by
  obtain ⟨fs, i, answer, gs, w, failures, rfl, rest⟩ := h
  exact ⟨fs, i, answer, gs ++ more, w, failures, by simp, rest⟩

theorem Batch.after_append (b : Batch) (acts more : List Roster.Act) :
    b.after (acts ++ more) = (b.after acts).run more :=
  Roster.run_append ..

namespace Roster

end Roster

/-! ### Crews -/

namespace Roster

/-- Some run gets the posts to these stages, and sends these events and takes these results by then.
-/
def Leads (x : Roster) (posts : List (Launch × Stage)) (events : List TaskEvent)
    (results : List TaskResult) : Prop :=
  ∃ acts, x.run acts = ⟨posts, x.sent ++ events, x.results ++ results, x.returned⟩

section Leads

variable {x : Roster}

theorem Leads.refl (x : Roster) : Leads x x.posts [] [] := ⟨[], by simp⟩

theorem Leads.trans {posts posts' : List (Launch × Stage)} {events more : List TaskEvent}
    {results taken : List TaskResult} (h : Leads x posts events results)
    (h' : Leads ⟨posts, x.sent ++ events, x.results ++ results, x.returned⟩ posts' more taken) :
    Leads x posts' (events ++ more) (results ++ taken) := by
  obtain ⟨acts, hacts⟩ := h
  obtain ⟨acts', hacts'⟩ := h'
  refine ⟨acts ++ acts', ?_⟩
  rw [run_append, hacts, hacts', List.append_assoc, List.append_assoc]

variable {before after : List (Launch × Stage)} {l : Launch} {w : Worker}

theorem advance_at {stage stage' : Stage} (h : x.posts = before ++ (l, stage) :: after)
    (events : List TaskEvent) : x.advance before.length l stage' events =
      ⟨before ++ (l, stage') :: after, x.sent ++ events, x.results ++ stage'.result?.toList,
        x.returned⟩ := by
  simp [advance, h]

/-- A worker sends what it has to send. -/
theorem leads_sends {outbox : List TaskEvent}
    (h : x.posts = before ++ (l, .working w outbox) :: after) :
    Leads x (before ++ (l, .working w []) :: after) outbox [] := by
  induction outbox generalizing x with
  | nil => exact h ▸ .refl x
  | cons e outbox ih =>
    have sent : Leads x (before ++ (l, .working w outbox) :: after) [e] [] := by
      refine ⟨[.send before.length], ?_⟩
      have hi : x.posts[before.length]? = some (l, .working w (e :: outbox)) := by simp [h]
      simp only [run_cons, run_nil, act, hi, advance_at h]
      rfl
    exact sent.trans (ih rfl)

/-- An act that only lets a worker go on, and what the worker then sends. -/
theorem leads_act {outbox : List TaskEvent} (a : Act) (ha : x.act a =
      ⟨before ++ (l, .working w outbox) :: after, x.sent ++ [], x.results ++ [], x.returned⟩) :
    Leads x (before ++ (l, .working w []) :: after) outbox [] :=
  Leads.trans ⟨[a], ha⟩ (leads_sends rfl)

theorem leads_start (h : x.posts = before ++ (l, .waiting) :: after) :
    Leads x (before ++ (l, .working (Worker.start l).1 []) :: after) (Worker.start l).2 [] := by
  refine leads_act (.start before.length) ?_
  have hi : x.posts[before.length]? = some (l, .waiting) := by simp [h]
  simp only [act, hi, advance_at h]
  rfl

theorem leads_join (h : x.posts = before ++ (l, .working w []) :: after) {r : TaskResult}
    (hr : w.result? = some r) : Leads x (before ++ (l, .joined r) :: after) [] [r] := by
  refine ⟨[.join before.length], ?_⟩
  have hi : x.posts[before.length]? = some (l, .working w []) := by simp [h]
  simp only [run_cons, run_nil, act, hi, hr, advance_at h]
  rfl

/-- A worker gets a signal that does not break off its monitor. -/
theorem leads_signal (h : x.posts = before ++ (l, .working w []) :: after) (s : Worker.Signal)
    (whole : ∀ detail, ¬ w.Breaks s detail) :
    Leads x (before ++ (l, .working (w.react s).1 []) :: after) (w.react s).2 [] := by
  refine leads_act (.signal before.length s) ?_
  have hi : x.posts[before.length]? = some (l, .working w []) := by simp [h]
  simp only [act, hi]
  split
  · rename_i detail hphase
    exact absurd ⟨rfl, _, _, _, hphase⟩ (whole detail)
  · rw [advance_at h]
    rfl

/-- A worker gets a signal that it ends with, and its result is taken. -/
theorem leads_end (h : x.posts = before ++ (l, .working w []) :: after)
    (own : w.task = l.job.id) (s : Worker.Signal) {r : TaskResult}
    (hr : (w.react s).1.result? = some r) :
    Leads x (before ++ (l, .joined r) :: after) (w.react s).2 [r] := by
  by_cases whole : ∀ detail, ¬ w.Breaks s detail
  · simpa using (leads_signal h s whole).trans (leads_join rfl hr)
  · obtain ⟨detail, rfl, last, failures, polls, hphase⟩ : ∃ detail, w.Breaks s detail := by
      simpa using whole
    have hreact : w.react (.monitorBroke detail) = w.finish (crashed l detail) := by
      simp only [Worker.react, hphase, crashed, own]
    obtain rfl : crashed l detail = r := by
      rw [hreact] at hr
      exact Option.some.inj hr
    refine ⟨[.signal before.length (.monitorBroke detail), .join before.length], ?_⟩
    have hi : x.posts[before.length]? = some (l, .working w []) := by simp [h]
    have hbroken : x.act (.signal before.length (.monitorBroke detail)) =
        ⟨before ++ (l, .broken detail) :: after, x.sent, x.results, x.returned⟩ := by
      simp only [act, hi, hphase, advance_at h]
      simp [Stage.result?]
    rw [run_cons, hbroken, hreact]
    simp [act, advance, Worker.finish, own, Stage.result?]

end Leads

end Roster

section Crews

variable {W : Type} (bare : W → Worker)

/-- A seat stands where a post does. -/
inductive Seat.Stands : Seat W → Launch × Stage → Prop
  | waiting (l : Launch) : Stands (.waiting l) (l, .waiting)
  | running {w : W} {l : Launch} (own : (bare w).task = l.job.id)
    (going : (bare w).result? = none) : Stands (.running w) (l, .working (bare w) [])
  | finished (l : Launch) (r : TaskResult) : Stands (.finished r) (l, .joined r)

/-- What a roster shows of itself at some moment of some run: a crew has reported these events and
taken its results in this order, and if all is done the batch has returned. -/
def Crew.Mirrored (b : Batch) (c : Crew W) (all : List TaskEvent) : Prop :=
  ∃ acts, List.Forall₂ (Seat.Stands bare) c.seats (b.after acts).posts ∧
    (b.after acts).sent = all ∧ (b.after acts).results = c.results ∧
    (b.after acts).returned = c.isDone

variable {bare}

theorem Seat.Stands.isFinished {seat : Seat W} {post : Launch × Stage}
    (h : Seat.Stands bare seat post) : seat.isFinished = post.2.isJoined := by
  cases h <;> rfl

theorem Seat.Stands.all_isFinished {seats : List (Seat W)} {posts : List (Launch × Stage)}
    (h : List.Forall₂ (Seat.Stands bare) seats posts) :
    seats.all Seat.isFinished = posts.all (·.2.isJoined) := by
  induction h with
  | nil => rfl
  | cons h _ ih => simp only [List.all_cons, ih, h.isFinished]

theorem Crew.fill_leads {staff : Staff W} (hs : staff.Employs bare) {seats : List (Seat W)}
    {posts : List (Launch × Stage)} (h : List.Forall₂ (Seat.Stands bare) seats posts)
    (permits : Option Nat) (before : List (Launch × Stage)) (x : Roster)
    (hx : x.posts = before ++ posts) : ∃ posts',
    List.Forall₂ (Seat.Stands bare) (Crew.fill staff permits seats).seats posts' ∧
      x.Leads (before ++ posts') (Crew.fill staff permits seats).events
        (Crew.fill staff permits seats).results := by
  induction h generalizing permits before x with
  | nil => exact ⟨[], .nil, hx ▸ Roster.Leads.refl x⟩
  | @cons seat post seats posts h rest ih =>
    -- a seat that is not filled stays where it is
    have kept : ∀ f : Crew.Filled W, f = Crew.fill staff permits seats → ∃ posts',
        List.Forall₂ (Seat.Stands bare) (seat :: f.seats) posts' ∧
          x.Leads (before ++ posts') f.events f.results := by
      rintro f rfl
      obtain ⟨posts', hposts', leads⟩ := ih permits (before ++ [post]) x (by simpa using hx)
      exact ⟨post :: posts', .cons h hposts', by simpa using leads⟩
    cases h with
    | running own going => exact kept _ rfl
    | finished l r => exact kept _ rfl
    | waiting l =>
      unfold Crew.fill
      by_cases hp : permits = some 0
      · rw [if_pos hp]
        exact ⟨_, .cons (.waiting l) rest, hx ▸ Roster.Leads.refl x⟩
      · rw [if_neg hp]
        have hstart := hs.start l
        have hresult := hs.result (staff.start l).1
        have own : (Worker.start l).1.task = l.job.id := (Worker.start_course l).1.task
        have started := Roster.leads_start hx
        rw [hstart] at own started
        cases hr : staff.result? (staff.start l).1 with
        | some r =>
          have joined : x.Leads (before ++ (l, .joined r) :: posts) (staff.start l).2 [r] := by
            simpa using started.trans (Roster.leads_join rfl (hresult ▸ hr))
          obtain ⟨posts', hposts', leads⟩ := ih permits (before ++ [(l, .joined r)])
            ⟨before ++ (l, .joined r) :: posts, x.sent ++ (staff.start l).2, x.results ++ [r],
              x.returned⟩ (List.append_cons ..)
          refine ⟨(l, .joined r) :: posts', ?_, ?_⟩
          · simpa [hr] using List.Forall₂.cons (Seat.Stands.finished l r) hposts'
          · simpa [hr] using joined.trans leads
        | none =>
          obtain ⟨posts', hposts', leads⟩ := ih (permits.map (· - 1))
            (before ++ [(l, .working (bare (staff.start l).1) [])])
            ⟨before ++ (l, .working (bare (staff.start l).1) []) :: posts,
              x.sent ++ (staff.start l).2, x.results ++ [], x.returned⟩ (List.append_cons ..)
          have running : Seat.Stands bare (.running (staff.start l).1)
            (l, .working (bare (staff.start l).1) []) := .running own (hresult ▸ hr)
          refine ⟨(l, .working (bare (staff.start l).1) []) :: posts', ?_, ?_⟩
          · simpa [hr] using List.Forall₂.cons running hposts'
          · simpa [hr] using started.trans leads

/-- A crew that fills its seats, and completes if nothing is left to do. -/
theorem Crew.Mirrored.refill {staff : Staff W} (hs : staff.Employs bare) {b : Batch} {c : Crew W}
    {all : List TaskEvent} {acts : List Roster.Act} {posts : List (Launch × Stage)}
    (stands : List.Forall₂ (Seat.Stands bare) c.seats posts)
    (hx : b.after acts = ⟨posts, all, c.results, false⟩) :
    Crew.Mirrored bare b (c.refill staff).1 (all ++ (c.refill staff).2) := by
  obtain ⟨posts', stands', more, hmore⟩ := Crew.fill_leads hs stands c.permits [] (b.after acts)
    (by rw [hx]; rfl)
  rw [← Batch.after_append, hx] at hmore
  have hdone : (c.refill staff).1.isDone = posts'.all (·.2.isJoined) :=
    Seat.Stands.all_isFinished stands'
  have hevents : (c.refill staff).2 = (Crew.fill staff c.permits c.seats).events ++
      if posts'.all (·.2.isJoined) then [.completed] else [] := by
    rw [← hdone]
    rfl
  cases hall : posts'.all (·.2.isJoined) with
  | false =>
    refine ⟨acts ++ more, ?_⟩
    rw [hmore, hevents, hdone, hall]
    exact ⟨stands', by simp, rfl, rfl⟩
  | true =>
    refine ⟨acts ++ more ++ [.close], ?_⟩
    rw [Batch.after_append, hmore, hevents, hdone]
    simp only [Roster.run_cons, Roster.run_nil, Roster.act, Roster.allJoined, List.nil_append, hall]
    exact ⟨stands', by simp, rfl, rfl⟩

theorem Seat.Stands.set {seats : List (Seat W)} {posts : List (Launch × Stage)}
    (h : List.Forall₂ (Seat.Stands bare) seats posts) {i : Nat} {seat : Seat W}
    (hi : seats[i]? = some seat) : ∃ before post after, posts = before ++ post :: after ∧
      Seat.Stands bare seat post ∧ ∀ seat' post', Seat.Stands bare seat' post' →
        List.Forall₂ (Seat.Stands bare) (seats.set i seat') (before ++ post' :: after) := by
  induction h generalizing i with
  | nil => simp at hi
  | @cons first post seats posts h rest ih =>
    cases i with
    | zero =>
      obtain rfl : first = seat := by simpa using hi
      exact ⟨[], post, posts, rfl, h, fun _ _ h' => .cons h' rest⟩
    | succ i =>
      obtain ⟨before, post', after, rfl, hstands, hset⟩ := ih (by simpa using hi)
      exact ⟨post :: before, post', after, rfl, hstands, fun _ _ h' => .cons h (hset _ _ h')⟩

section Reacts

variable {x : Roster} {before after : List (Launch × Stage)} {l : Launch} {w w' : W}
  {events : List TaskEvent} (hr : Reacts bare w w' events)
  (h : x.posts = before ++ (l, .working (bare w) []) :: after) (own : (bare w).task = l.job.id)
include hr h own

/-- A worker that reacts and goes on was not broken off. -/
theorem Reacts.leads_on (going : (bare w').result? = none) : (bare w').task = l.job.id ∧
    x.Leads (before ++ (l, .working (bare w') []) :: after) events [] := by
  cases hr with
  | signal s hreact =>
    have whole : ∀ detail, ¬ (bare w).Breaks s detail := by
      rintro detail ⟨rfl, last, failures, polls, hphase⟩
      have hends : ((bare w).react (.monitorBroke detail)).1.result? ≠ none := by
        simp [Worker.react, hphase, Worker.finish, Worker.result?]
      rw [hreact] at hends
      exact hends going
    have led := Roster.leads_signal h s whole
    have task := (bare w).react_task s
    rw [hreact] at led task
    exact ⟨task.trans own, led⟩
  | quiet same nothing =>
    rw [same, nothing, ← h]
    exact ⟨own, .refl _⟩

/-- A worker that reacts and ends. -/
theorem Reacts.leads_end (going : (bare w).result? = none) {r : TaskResult}
    (done : (bare w').result? = some r) :
    x.Leads (before ++ (l, .joined r) :: after) events [r] := by
  cases hr with
  | signal s hreact =>
    have hends : ((bare w).react s).1.result? = some r := by rw [hreact, done]
    have led := Roster.leads_end h own s hends
    rwa [hreact] at led
  | quiet same _ => simp [← same, done] at going

end Reacts

/-- A worker of a crew reacts, as that of some roster does. -/
theorem Crew.Mirrored.update {staff : Staff W} (hs : staff.Employs bare) {b : Batch} {c : Crew W}
    {all : List TaskEvent} (h : Crew.Mirrored bare b c all) {i : Nat} {w w' : W}
    {events : List TaskEvent} (hw : c.worker? i = some w) (hr : Reacts bare w w' events) :
    Crew.Mirrored bare b (c.update staff i w' events).1
      (all ++ (c.update staff i w' events).2) := by
  obtain ⟨acts, stands, hsent, hresults, hreturned⟩ := h
  have hi := Crew.seat_of_worker hw
  rw [Crew.not_isDone hi] at hreturned
  obtain ⟨before, post, after, hposts, hpost, hset⟩ := Seat.Stands.set stands hi
  have hresult := hs.result w'
  cases hpost with
  | @running _ l own going =>
    unfold Crew.update
    cases hdone : staff.result? w' with
    | none =>
      have going' : (bare w').result? = none := hresult ▸ hdone
      obtain ⟨own', more, hmore⟩ := hr.leads_on hposts own going'
      have hi' : (c.seats.set i (.running w'))[i]? = some (.running w') :=
        List.getElem?_set_self (List.getElem?_eq_some_iff.1 hi).1
      have hopen : ({ c with seats := c.seats.set i (.running w') } : Crew W).isDone = false :=
        Crew.not_isDone hi'
      refine ⟨acts ++ more, ?_⟩
      rw [Batch.after_append, hmore, hsent, hresults, hreturned]
      exact ⟨hset _ _ (.running own' going'), rfl, List.append_nil _, hopen.symm⟩
    | some r =>
      obtain ⟨more, hmore⟩ := hr.leads_end hposts own going (hresult ▸ hdone)
      rw [← Batch.after_append, hsent, hresults, hreturned] at hmore
      have filled := Crew.Mirrored.refill hs (c := ⟨c.seats.set i (.finished r),
        c.permits.map (· + 1), c.results ++ [r]⟩) (hset _ _ (.finished l r)) hmore
      simpa [List.append_assoc] using filled

/-- **What a crew shows at a moment some roster shows**, however the crew's workers came there. -/
theorem Crew.Runs.mirrored {b : Batch} {c : Crew W} {all : List TaskEvent}
    (h : Crew.Runs bare b c all) : Crew.Mirrored bare b c all := by
  induction h with
  | @assemble staff hs =>
    have waiting : List.Forall₂ (Seat.Stands bare) (b.launches.map .waiting) b.roster.posts := by
      simp [Batch.roster, List.forall₂_map_left_iff, List.forall₂_map_right_iff,
        List.forall₂_same, Seat.Stands.waiting]
    have nobody : b.after [] = ⟨b.roster.posts, [], [], false⟩ := rfl
    have assembled := Crew.Mirrored.refill hs
      (c := ⟨b.launches.map .waiting, b.policy.maxConcurrency.map UInt64.toNat, []⟩) waiting nobody
    rwa [List.nil_append] at assembled
  | update hs _ hw hr ih => exact ih.update hs hw hr

end Crews

/-- A task that is submitted, and one that is polled. -/
def Batch.mixed : Batch :=
  let policy : TaskPolicy := ⟨0, 0, 0, .one⟩
  let monitor : Monitor := ⟨[], ⟨10, 0⟩, fun _ _ _ => .broke "lost", fun _ _ => .ok none⟩
  ⟨[⟨⟨.ofNat 1, policy, fun _ => .succeeds (.ofNat 1)⟩, .submit⟩,
    ⟨⟨.ofNat 2, policy, fun _ => .succeeds (.ofNat 2)⟩, .poll monitor⟩], default⟩

end Workflow
