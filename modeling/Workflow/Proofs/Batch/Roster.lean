import Workflow.Proofs.Worker.Course

/-!
# Workflow.Proofs.Batch.Roster — a batch at work in any order whatsoever

A roster has one post per launch.  Its acts are what the workers of a batch and the batch itself do
between two points at which somebody else may be faster: a worker starts, it sends an event, it gets
a signal, the batch takes the result of a worker that has ended, and the batch completes once it has
taken them all.  An act that is not possible changes nothing, so any list of acts is a run.  A
permit that a launch waits for only delays its start; here a launch may start at any time, so that
however many workers may run at once, and whoever is faster, the run is among these.
-/

namespace Workflow

/-- How far a launch is. -/
inductive Stage where
  | waiting
  /-- Its worker has started, and is to send some events before it does anything else.  It may have
  ended already. -/
  | working (worker : Worker) (outbox : List TaskEvent)
  /-- Its monitor broke off and took the worker with it. -/
  | broken (detail : String)
  /-- The batch has taken its result. -/
  | joined (result : TaskResult)

namespace Stage

/-- The result that the batch has taken. -/
def result? : Stage → Option TaskResult
  | joined r => some r
  | _ => none

def isJoined : Stage → Bool
  | joined _ => true
  | _ => false

/-- What the worker is to send. -/
def outbox : Stage → List TaskEvent
  | working _ outbox => outbox
  | _ => []

end Stage

/-- A batch at work in any order. -/
structure Roster where
  posts : List (Launch × Stage)
  /-- Every event sent, in order. -/
  sent : List TaskEvent
  /-- The results taken, in order. -/
  results : List TaskResult
  /-- Whether the batch has completed and returned its results. -/
  returned : Bool

/-- Nobody has started. -/
def Batch.roster (b : Batch) : Roster := ⟨b.launches.map (·, .waiting), [], [], false⟩

namespace Roster

/-- What happens to a roster. -/
inductive Act where
  /-- The worker of a launch starts. -/
  | start (post : Nat)
  /-- A worker sends its next event. -/
  | send (post : Nat)
  /-- A worker gets a signal. -/
  | signal (post : Nat) (s : Worker.Signal)
  /-- The batch takes the result of a worker that has ended, or finds that it broke off. -/
  | join (post : Nat)
  /-- The batch completes. -/
  | close

/-- A launch gets to a stage and sends events. -/
def advance (x : Roster) (i : Nat) (l : Launch) (stage : Stage) (events : List TaskEvent) :
    Roster :=
  { x with
    posts := x.posts.set i (l, stage)
    sent := x.sent ++ events
    results := x.results ++ stage.result?.toList }

/-- Whether the result of every launch was taken. -/
def allJoined (x : Roster) : Bool := x.posts.all (·.2.isJoined)

/-- The result of a launch whose monitor broke off. -/
def crashed (l : Launch) (detail : String) : TaskResult :=
  .failed l.job.id (TaskError.crashed detail).message

/-- One act. -/
def act (x : Roster) : Act → Roster
  | .start i =>
    match x.posts[i]? with
    | some (l, .waiting) => x.advance i l (.working (Worker.start l).1 (Worker.start l).2) []
    | _ => x
  | .send i =>
    match x.posts[i]? with
    | some (l, .working w (e :: outbox)) => x.advance i l (.working w outbox) [e]
    | _ => x
  | .signal i s =>
    match x.posts[i]? with
    | some (l, .working w []) =>
      match w.phase, s with
      | .polling _ _ _, .monitorBroke detail => x.advance i l (.broken detail) []
      | _, _ => x.advance i l (.working (w.react s).1 (w.react s).2) []
    | _ => x
  | .join i =>
    match x.posts[i]? with
    | some (l, .working w []) =>
      match w.result? with
      | some r => x.advance i l (.joined r) []
      | none => x
    | some (l, .broken detail) =>
      x.advance i l (.joined (crashed l detail)) [.result l.job.id (crashed l detail)]
    | _ => x
  | .close =>
    if !x.returned && x.allJoined then
      { x with sent := x.sent ++ [.completed], returned := true }
    else x

/-- A run of acts. -/
def run (x : Roster) (acts : List Act) : Roster := acts.foldl act x

@[simp] theorem run_nil (x : Roster) : x.run [] = x := rfl

@[simp] theorem run_cons (x : Roster) (a : Act) (acts : List Act) :
    x.run (a :: acts) = (x.act a).run acts := rfl

theorem run_append (x : Roster) (acts more : List Act) :
    x.run (acts ++ more) = (x.run acts).run more := by
  simp [run, List.foldl_append]

/-- The events of one task, in the order in which they were sent. -/
def told (x : Roster) (task : TaskId) : List TaskEvent :=
  x.sent.filter fun e => e.task? = some task

theorem mem_told {x : Roster} {task : TaskId} {e : TaskEvent} (own : e.task? = some task) :
    e ∈ x.told task ↔ e ∈ x.sent := by
  simp [told, own]

/-- A launch that advances with events of its own tells nothing of another task. -/
theorem told_advance {l : Launch} {events : List TaskEvent}
    (own : ∀ e ∈ events, e.task? = some l.job.id) (x : Roster) (i : Nat) (stage : Stage)
    (task : TaskId) : (x.advance i l stage events).told task =
      x.told task ++ if l.job.id = task then events else [] := by
  simp only [told, advance, List.filter_append, List.append_cancel_left_eq]
  split
  · rename_i same
    exact List.filter_eq_self.2 fun e he => by simp [own e he, same]
  · rename_i other
    exact List.filter_eq_nil_iff.2 fun e he => by simpa [own e he] using other

end Roster

/-! ### What an act can do -/

/-- Some act gets a launch from one stage to the next, and sends events. -/
inductive Stage.Moves (l : Launch) : (Nat → Roster.Act) → Stage → Stage → List TaskEvent → Prop
  | starts : Moves l .start .waiting (.working (Worker.start l).1 (Worker.start l).2) []
  | sends (w : Worker) (e : TaskEvent) (outbox : List TaskEvent) :
    Moves l .send (.working w (e :: outbox)) (.working w outbox) [e]
  | reacts (w : Worker) (s : Worker.Signal) :
    Moves l (.signal · s) (.working w []) (.working (w.react s).1 (w.react s).2) []
  | breaks {w : Worker} (going : w.result? = none) (s : Worker.Signal) (detail : String) :
    Moves l (.signal · s) (.working w []) (.broken detail) []
  | joins {w : Worker} {r : TaskResult} (h : w.result? = some r) :
    Moves l .join (.working w []) (.joined r) []
  | crashes (detail : String) :
    Moves l .join (.broken detail) (.joined (Roster.crashed l detail))
      [.result l.job.id (Roster.crashed l detail)]

/-- What an act makes of a roster. -/
inductive Roster.Acted (x : Roster) : Roster.Act → Roster → Prop
  | idle (a : Act) : Acted x a x
  | moves {i : Nat} {l : Launch} {how : Nat → Act} {stage stage' : Stage} {events : List TaskEvent}
    (hi : x.posts[i]? = some (l, stage)) (h : stage.Moves l how stage' events) :
    Acted x (how i) (x.advance i l stage' events)
  | closes (first : x.returned = false) (all : x.allJoined) :
    Acted x .close { x with sent := x.sent ++ [.completed], returned := true }

theorem Roster.act_acted (x : Roster) (a : Act) : Acted x a (x.act a) := by
  cases a with
  | start i =>
    simp only [act]
    split
    · rename_i hi
      exact .moves hi .starts
    · exact .idle _
  | send i =>
    simp only [act]
    split
    · rename_i hi
      exact .moves hi (.sends ..)
    · exact .idle _
  | signal i s =>
    simp only [act]
    split
    · rename_i w hi
      split
      · -- the monitor breaks off, and the worker with it
        rename_i hphase
        exact .moves hi (.breaks (by simp [Worker.result?, hphase]) _ _)
      · exact .moves hi (.reacts w _)
    · exact .idle _
  | join i =>
    simp only [act]
    split
    · rename_i hi
      split
      · rename_i hr
        exact .moves hi (.joins hr)
      · exact .idle _
    · rename_i hi
      -- a broken worker is joined like any other
      exact .moves hi (.crashes _)
    · exact .idle _
  | close =>
    simp only [act]
    split
    · rename_i h
      obtain ⟨hfirst, hall⟩ : x.returned = false ∧ x.allJoined = true := by simpa using h
      exact .closes hfirst hall
    · exact .idle _

/-! ### What a launch has told -/

/-- What a launch has told by the stage that it is at. -/
inductive Stage.Told (l : Launch) : Stage → List TaskEvent → Prop
  | waiting : Told l .waiting []
  | working {w : Worker} {events outbox : List TaskEvent} (h : w.History l (events ++ outbox)) :
    Told l (.working w outbox) events
  | broken {w : Worker} {events : List TaskEvent} (h : w.History l events)
    (going : w.result? = none) (detail : String) : Told l (.broken detail) events
  | joined {r : TaskResult} {events : List TaskEvent} (h : l.Ends r events) :
    Told l (.joined r) events

/-- A launch ends with its result, after its opening. -/
theorem Launch.Ends.told {l : Launch} {r : TaskResult} {events : List TaskEvent}
    (h : l.Ends r events) : ∃ opening, l.Opening opening ∧ r.task = l.job.id ∧
      events = opening ++ [.result l.job.id r] := by
  cases h with
  | finished h hr => exact h.course.2.result hr
  | brokeOff h hw cause hr => exact ⟨_, h.course.2.opening hw, by rw [hr]; rfl, rfl⟩

theorem Launch.Protocol.of_prefix {l : Launch} {events more : List TaskEvent}
    (h : l.Protocol more) (hp : events <+: more) : l.Protocol events := by
  obtain ⟨opening, r, hopening, hr, hmore⟩ := h
  exact ⟨opening, r, hopening, hr, hp.trans hmore⟩

namespace Stage

variable {l : Launch} {how : Nat → Roster.Act} {stage stage' : Stage}
  {events more : List TaskEvent}

theorem Told.protocol (h : Told l stage events) : l.Protocol events := by
  cases h with
  | waiting => exact ⟨_, .unknown l.job.id, .created, rfl, List.nil_prefix⟩
  | working h => exact h.course.2.protocol.of_prefix (List.prefix_append ..)
  | broken h going => exact (h.course.2.opening going).protocol
  | joined h =>
    obtain ⟨opening, hopening, hr, rfl⟩ := h.told
    exact ⟨opening, _, hopening, hr, List.prefix_refl _⟩

theorem Moves.told (h : Moves l how stage stage' more) (before : Told l stage events) :
    Told l stage' (events ++ more) := by
  cases h with
  | starts =>
    cases before
    exact .working .start
  | sends w e outbox =>
    cases before with
    | working h => exact .working (by simpa using h)
  | reacts w s =>
    cases before with
    | working h =>
      rw [List.append_nil] at h ⊢
      exact .working (h.react s)
  | breaks going s detail =>
    cases before with
    | working h =>
      rw [List.append_nil] at h ⊢
      exact .broken h going detail
  | joins hr =>
    cases before with
    | working h =>
      rw [List.append_nil] at h ⊢
      exact .joined (.finished h hr)
  | crashes detail =>
    cases before with
    | broken h going => exact .joined (.brokeOff h going _ rfl)

theorem Moves.not_joined (h : Moves l how stage stage' more) : stage.result? = none := by
  cases h <;> rfl

end Stage

/-- The events of a launch are about its task. -/
theorem Launch.Protocol.task {l : Launch} {events : List TaskEvent} (h : l.Protocol events) :
    ∀ e ∈ events, e.task? = some l.job.id := by
  obtain ⟨opening, r, hopening, -, first⟩ := h
  intro e he
  rcases List.mem_append.1 (first.mem he) with he | he
  · cases hopening with
    | created => rw [List.mem_singleton.1 he]; rfl
    | submitted =>
      rcases List.mem_cons.1 he with rfl | he
      · rfl
      · rw [List.mem_singleton.1 he]; rfl
  · rw [List.mem_singleton.1 he]; rfl

namespace Roster

/-- A list in which one element changes. -/
theorem set_of_getElem? {α : Type} {xs : List α} {i : Nat} {a : α} (h : xs[i]? = some a) (b : α) :
    ∃ before after, xs = before ++ a :: after ∧ xs.set i b = before ++ b :: after := by
  obtain ⟨hlt, ha⟩ := List.getElem?_eq_some_iff.1 h
  refine ⟨xs.take i, xs.drop (i + 1), ?_, List.set_eq_take_append_cons_drop.trans (if_pos hlt)⟩
  rw [← ha, List.getElem_cons_drop, List.take_append_drop]

/-- How posts, events and results of a roster belong together. -/
structure Sound (b : Batch) (x : Roster) : Prop where
  launches : x.posts.map Prod.fst = b.launches
  told : ∀ (i : Nat) l stage, x.posts[i]? = some (l, stage) → stage.Told l (x.told l.job.id)
  results : x.results.Perm (x.posts.filterMap (·.2.result?))
  owned : ∀ e ∈ x.sent, e = .completed ∨ ∃ l ∈ b.launches, e.task? = some l.job.id
  going : x.returned = false → .completed ∉ x.sent
  closed : x.returned = true → x.allJoined ∧
    ∃ before, x.sent = before ++ [.completed] ∧ .completed ∉ before

section Sound

variable {b : Batch} {x : Roster} (h : Sound b x)
include h

theorem Sound.mem {i : Nat} {l : Launch} {stage : Stage} (hi : x.posts[i]? = some (l, stage)) :
    l ∈ b.launches := by
  rw [← h.launches]
  exact List.mem_map_of_mem (List.mem_of_getElem? hi)

theorem Sound.post {l : Launch} (hl : l ∈ b.launches) :
    ∃ (i : Nat) (stage : Stage), x.posts[i]? = some (l, stage) := by
  rw [← h.launches] at hl
  obtain ⟨⟨l, stage⟩, hmem, rfl⟩ := List.mem_map.1 hl
  obtain ⟨i, hi⟩ := List.getElem?_of_mem hmem
  exact ⟨i, stage, hi⟩

theorem Sound.launch_at (i : Nat) : b.launches[i]? = (x.posts[i]?).map Prod.fst := by
  rw [← h.launches, List.getElem?_map]

/-- With distinct tasks a task has one post. -/
theorem Sound.index (distinct : b.taskIds.Nodup) {i j : Nat} {l l' : Launch} {stage stage' : Stage}
    (hi : x.posts[i]? = some (l, stage)) (hj : x.posts[j]? = some (l', stage'))
    (same : l.job.id = l'.job.id) : i = j := by
  have at_ : ∀ (k : Nat) (p : Launch × Stage), x.posts[k]? = some p →
      b.taskIds[k]? = some p.1.job.id := by
    intro k p hk
    rw [Batch.taskIds, List.getElem?_map, h.launch_at, hk]
    rfl
  have hlt : i < b.taskIds.length := (List.getElem?_eq_some_iff.1 (at_ i _ hi)).1
  exact (List.getElem?_inj hlt distinct).1 ((at_ i _ hi).trans (same ▸ (at_ j _ hj).symm))

/-- While a launch is at work the batch has not returned. -/
theorem Sound.not_returned {i : Nat} {l : Launch} {stage : Stage}
    (hi : x.posts[i]? = some (l, stage)) (hr : stage.result? = none) : x.returned = false := by
  cases hret : x.returned with
  | false => rfl
  | true =>
    have hjoined := List.all_eq_true.1 (h.closed hret).1 _ (List.mem_of_getElem? hi)
    cases stage <;> simp [Stage.isJoined, Stage.result?] at hjoined hr

/-- An act leaves a launch as it is, or gets it to its next stage. -/
theorem Sound.acted_at (distinct : b.taskIds.Nodup) {a : Act} {x' : Roster} (acted : Acted x a x')
    {i : Nat} {l : Launch} {stage' : Stage} (hi : x'.posts[i]? = some (l, stage')) :
    (x.posts[i]? = some (l, stage') ∧ x'.told l.job.id = x.told l.job.id) ∨
      ∃ how stage events, a = how i ∧ x.posts[i]? = some (l, stage) ∧
        stage.Moves l how stage' events ∧ x'.told l.job.id = x.told l.job.id ++ events := by
  cases acted with
  | idle => exact .inl ⟨hi, rfl⟩
  | closes => exact .inl ⟨hi, by simp [Roster.told, TaskEvent.task?]⟩
  | @moves j l' how stage stage'' events hj moves =>
    have own := (moves.told (h.told j l' stage hj)).protocol.task
    have told := told_advance (fun e he => own e (List.mem_append_right _ he)) x j stage''
    by_cases hij : j = i
    · subst hij
      simp only [Roster.advance] at hi
      rw [List.getElem?_set_self (List.getElem?_eq_some_iff.1 hj).1] at hi
      cases hi
      exact .inr ⟨how, stage, events, rfl, hj, moves, by rw [told, if_pos rfl]⟩
    · simp only [Roster.advance, List.getElem?_set_ne hij] at hi
      have other : l'.job.id ≠ l.job.id := fun same => hij (h.index distinct hj hi same)
      exact .inl ⟨hi, by rw [told, if_neg other, List.append_nil]⟩

theorem Sound.acted_told (distinct : b.taskIds.Nodup) {a : Act} {x' : Roster}
    (acted : Acted x a x') {i : Nat} {l : Launch} {stage' : Stage}
    (hi : x'.posts[i]? = some (l, stage')) : stage'.Told l (x'.told l.job.id) := by
  rcases h.acted_at distinct acted hi with ⟨same, htold⟩ | ⟨_, _, _, -, hbefore, moves, htold⟩
  · exact htold ▸ h.told i l stage' same
  · exact htold ▸ moves.told (h.told i l _ hbefore)

/-- A launch gets to its next stage. -/
theorem Sound.advance (distinct : b.taskIds.Nodup) {i : Nat} {l : Launch} {stage stage' : Stage}
    {how : Nat → Act} {events : List TaskEvent} (hi : x.posts[i]? = some (l, stage))
    (moves : stage.Moves l how stage' events) : Sound b (x.advance i l stage' events) := by
  have now := moves.told (h.told i l stage hi)
  have own : ∀ e ∈ events, e.task? = some l.job.id := fun e he =>
    now.protocol.task e (List.mem_append_right _ he)
  have going := h.not_returned hi moves.not_joined
  obtain ⟨before, after, hposts, hset⟩ := set_of_getElem? hi (l, stage')
  refine ⟨?_, fun _ _ _ hj => h.acted_told distinct (.moves hi moves) hj, ?_, fun e he => ?_,
    fun _ => ?_, fun hret => ?_⟩
  · rw [← h.launches, Roster.advance, hset, hposts]
    simp
  · -- the results are those of the posts in another order
    have hres := h.results
    rw [hposts] at hres
    simp only [List.filterMap_append, List.filterMap_cons, moves.not_joined] at hres
    simp only [Roster.advance, hset, List.filterMap_append, List.filterMap_cons]
    have taken : (x.results ++ stage'.result?.toList).Perm
        (before.filterMap (·.2.result?) ++
          (stage'.result?.toList ++ after.filterMap (·.2.result?))) := by
      refine (hres.append_right _).trans ?_
      rw [List.append_assoc]
      exact List.perm_append_comm.append_left _
    cases hr : stage'.result? with
    | none => simpa [hr] using taken
    | some r => simpa [hr] using taken
  · rcases List.mem_append.1 he with he | he
    · exact h.owned e he
    · exact .inr ⟨l, h.mem hi, own e he⟩
  · simp only [Roster.advance, List.mem_append, not_or]
    exact ⟨h.going going, fun hmem => by simpa [TaskEvent.task?] using own _ hmem⟩
  · exact absurd (going.symm.trans hret) (by simp)

theorem Sound.acted (distinct : b.taskIds.Nodup) {a : Act} {x' : Roster} (acted : Acted x a x') :
    Sound b x' := by
  cases acted with
  | idle => exact h
  | moves hi moves => exact h.advance distinct hi moves
  | closes first all =>
    refine ⟨h.launches, fun _ _ _ hi => h.acted_told distinct (.closes first all) hi, h.results,
      fun e he => ?_, fun hret => by simp at hret, fun _ => ⟨all, x.sent, rfl, h.going first⟩⟩
    rcases List.mem_append.1 he with he | he
    · exact h.owned e he
    · exact .inl (List.mem_singleton.1 he)

theorem Sound.run (distinct : b.taskIds.Nodup) (acts : List Act) : Sound b (x.run acts) := by
  induction acts generalizing x with
  | nil => exact h
  | cons a acts ih => exact ih (h.acted distinct (x.act_acted a))

end Sound

end Roster

/-- The roster of a batch after a run of acts. -/
def Batch.after (b : Batch) (acts : List Roster.Act) : Roster := b.roster.run acts

end Workflow
