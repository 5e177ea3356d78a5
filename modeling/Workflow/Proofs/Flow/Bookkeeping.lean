import Workflow.Proofs.Batch.Announcements
import Workflow.Proofs.Flow.Ledger
import Workflow.Proofs.Step.KeptResults

/-!
# Workflow.Proofs.Flow.Bookkeeping — what is recorded of tasks, and by whom

A listener hands over at most one update before it hears the next event, so what it has heard is
noted, or is the one update that it still has to hand over.  Since a crew tells of a result after
it has told of the task, and a stale activation does not come back, a result is recorded only for a
task that is recorded already.  `Booked` has this for every activation and every step; it is kept by
everything that an event can do to the ledger (`happen_booked`).
-/

namespace Workflow

/-! ### What a listener has heard -/

/-- The result that an update brings. -/
def StepUpdate.result? : StepUpdate → Option TaskResult
  | .taskResult r _ => some r
  | _ => none

namespace Handler

variable (h : Handler) (e : TaskEvent)

theorem hear_results :
    (h.hear e).handler.results = TaskResult.storeAll e.result?.toList h.results := by
  cases e with
  | completed =>
    unfold hear
    simp only [handle]
    cases h.decide h.results <;> rfl
  | _ => rfl

/-- An event is handed over as one update at most. -/
theorem hear_pending : (h.hear e).updates.length ≤ 1 := by
  cases e with
  | completed =>
    unfold hear
    simp only [handle]
    cases h.decide h.results with
    | error => simp
    | ok t =>
      simp only
      split <;> simp
  | _ => exact Nat.le_refl 1

/-- A result is handed over as such, and nothing else is. -/
theorem hear_updates : (h.hear e).updates.filterMap StepUpdate.result? = e.result?.toList := by
  cases e with
  | completed =>
    unfold hear
    simp only [handle]
    cases h.decide h.results with
    | error => rfl
    | ok t =>
      simp only
      split <;> rfl
  | _ => rfl

theorem hear_created (task : TaskId) : .taskCreated task ∈ (h.hear (.created task)).updates :=
  List.mem_singleton_self _

end Handler

theorem Listener.hear_undecided {l : Listener} (h : l.decision = none) (e : TaskEvent) :
    l.hear e = (⟨(l.handler.hear e).handler, (l.handler.hear e).decision⟩,
      (l.handler.hear e).updates) := by
  simp [hear, h]

/-- An activation of a batch whose listener has heard these events.  At most one update is to be
handed over, and a result only if it was heard; and while the activation is that of the current
epoch, every task that it has heard of is recorded, or is about to be. -/
structure Activation.Follows (tasks : String → List TaskId) (epoch : Nat) (b : Batch)
    (a : Activation) (heard : List TaskEvent) : Prop where
  unfailed : a.failure = none
  launched : a.epoch ≤ epoch
  runs : Crew.Runs TimedWorker.worker b a.crew (heard ++ a.inbox)
  pending : a.updates.length ≤ 1
  results : ∀ r ∈ a.updates.filterMap StepUpdate.result?, ∃ id, .result id r ∈ heard
  created : a.epoch = epoch → ∀ t, .created t ∈ heard →
    t ∈ tasks a.step ∨ .taskCreated t ∈ a.updates

namespace Activation.Follows

variable {tasks : String → List TaskId} {epoch : Nat} {b : Batch} {a : Activation}
  {heard : List TaskEvent}

theorem start (step : String) {n : Nat} (now : Nat) (l : StepLaunch) (launched : n ≤ epoch) :
    (Activation.start step n now l).Follows tasks epoch l.batch [] :=
  ⟨rfl, launched, .assemble (TimedWorker.staff_employs now), Nat.zero_le 1, nofun, nofun⟩

variable (h : a.Follows tasks epoch b heard)
include h

/-- More tasks may be recorded, and a new epoch may begin. -/
theorem later {tasks' : String → List TaskId} {epoch' : Nat} (grows : epoch ≤ epoch')
    (more : ∀ s t, t ∈ tasks s → t ∈ tasks' s) : a.Follows tasks' epoch' b heard := by
  refine ⟨h.unfailed, Nat.le_trans h.launched grows, h.runs, h.pending, h.results, ?_⟩
  intro live t ht
  have current : a.epoch = epoch := by
    have := h.launched
    omega
  exact (h.created current t ht).imp_left (more a.step t)

theorem advances {a' : Activation} (step : a.Advances a') :
    ∃ heard', a'.Follows tasks epoch b heard' := by
  cases step with
  | works hs =>
    have runs := TimedCrew.step?_runs h.runs hs
    rw [List.append_assoc] at runs
    exact ⟨heard, h.unfailed, h.launched, runs, h.pending, h.results, h.created⟩
  | @hears event inbox updates undecided next =>
    have runs := h.runs
    rw [next, List.append_cons] at runs
    refine ⟨heard ++ [event], h.unfailed, h.launched, runs, ?_, ?_, ?_⟩
    · rw [Listener.hear_undecided undecided]
      exact Handler.hear_pending ..
    · -- a result that is heard is one that was told
      intro r hr
      rw [Listener.hear_undecided undecided, Handler.hear_updates] at hr
      cases event <;> simp [TaskEvent.result?] at hr
      subst hr
      exact ⟨_, List.mem_append_right _ (List.mem_singleton_self _)⟩
    · intro live t ht
      rw [Listener.hear_undecided undecided]
      rcases List.mem_append.1 ht with old | new
      · exact .inl ((h.created live t old).resolve_right (by simp [updates]))
      · obtain rfl := List.mem_singleton.1 new
        exact .inr (Handler.hear_created a.listener.handler t)

theorem updates_eq {update : StepUpdate} {rest : List StepUpdate}
    (updates : a.updates = update :: rest) : rest = [] := by
  have pending := h.pending
  rw [updates] at pending
  simpa using pending

/-- A result that is to be handed over is that of a task of the batch. -/
theorem result_task {r : TaskResult} {log : List LogEntry} {rest : List StepUpdate}
    (updates : a.updates = .taskResult r log :: rest) : r.task ∈ b.taskIds := by
  obtain ⟨id, hr⟩ := h.results r (by simp [updates, StepUpdate.result?])
  exact h.runs.result_task (List.mem_append_left _ hr)

/-- The task of a result that is to be handed over is recorded. -/
theorem result_known {r : TaskResult} {log : List LogEntry} {rest : List StepUpdate}
    (updates : a.updates = .taskResult r log :: rest) (live : a.epoch = epoch) :
    r.task ∈ tasks a.step := by
  obtain ⟨id, hr⟩ := h.results r (by simp [updates, StepUpdate.result?])
  obtain ⟨before, after, heq⟩ := List.append_of_mem hr
  have created : .created r.task ∈ heard := by
    rw [heq]
    exact List.mem_append_left _ (h.runs.announced.of_append before id r after heq)
  -- the creation is not what is to be handed over
  refine (h.created live r.task created).resolve_right ?_
  rw [updates, h.updates_eq updates]
  simp

/-- An update is handed over; the creation of a task in the current epoch was recorded. -/
theorem hands {update : StepUpdate} {rest : List StepUpdate} (updates : a.updates = update :: rest)
    (noted : a.epoch = epoch → ∀ t, update = .taskCreated t → t ∈ tasks a.step) :
    { a with updates := rest }.Follows tasks epoch b heard := by
  obtain rfl := h.updates_eq updates
  refine ⟨h.unfailed, h.launched, h.runs, Nat.zero_le 1, nofun, fun live t ht => .inl ?_⟩
  rcases h.created live t ht with known | pending
  · exact known
  · rw [updates, List.mem_singleton] at pending
    exact noted live t pending.symm

end Activation.Follows

/-! ### What is recorded -/

namespace Ledger

/-- What is recorded of tasks belongs together, and every activation follows its batch; `Q` says
which batch that may be. -/
structure Booked (Q : Nat → String → StepLaunch → Prop) (epoch : Nat) (l : Ledger) : Prop where
  activations : ∀ (i : Nat) a, l.activations[i]? = some a →
    ∃ launch heard, Q i a.step launch ∧ a.Follows l.tasks epoch launch.batch heard
  recorded : ∀ s, ∀ r ∈ l.results s, r.task ∈ l.tasks s
  tasks : ∀ s, (l.tasks s).Nodup
  results : ∀ s, ((l.results s).map TaskResult.task).Nodup

theorem at_set {l : Ledger} {i j : Nat} {a a' : Activation}
    (h : (l.set i a').activations[j]? = some a) :
    j = i ∧ a = a' ∨ j ≠ i ∧ l.activations[j]? = some a := by
  simp only [set, List.getElem?_set] at h
  grind

theorem at_add {l : Ledger} {i : Nat} {a new : Activation}
    (h : (l.add new).activations[i]? = some a) :
    l.activations[i]? = some a ∨ i = l.activations.length ∧ a = new := by
  simp only [add, List.getElem?_append] at h
  grind

theorem at_end (l : Ledger) (new : Activation) :
    (l.add new).activations[l.activations.length]? = some new := by
  simp [add]

theorem mem_tasks_note {l : Ledger} {s : String} {t : TaskId} (h : t ∈ l.tasks s) (step : String)
    (update : StepUpdate) : t ∈ (l.note step update).tasks s := by
  cases update with
  | taskCreated task =>
    simp only [note]
    split
    · exact List.mem_append_left _ h
    · exact h
  | _ => exact h

theorem task_mem_note (l : Ledger) (step : String) (t : TaskId) :
    t ∈ (l.note step (.taskCreated t)).tasks step := by
  simp only [note]
  split
  · simp
  · simp_all

namespace Booked

variable {Q : Nat → String → StepLaunch → Prop} {epoch : Nat} {l : Ledger}

theorem mono {Q' : Nat → String → StepLaunch → Prop} (h : l.Booked Q epoch)
    (le : ∀ i step launch, i < l.activations.length → Q i step launch → Q' i step launch) :
    l.Booked Q' epoch := by
  refine ⟨fun i a ha => ?_, h.recorded, h.tasks, h.results⟩
  obtain ⟨launch, heard, hq, follows⟩ := h.activations i a ha
  exact ⟨launch, heard, le i _ launch (List.getElem?_eq_some_iff.1 ha).1 hq, follows⟩

variable (h : l.Booked Q epoch)
include h

theorem follows {i : Nat} {a : Activation} (ha : l.activations[i]? = some a) :
    ∃ launch heard, Q i a.step launch ∧ a.Follows l.tasks epoch launch.batch heard :=
  h.activations i a ha

theorem unfailed : ∀ a ∈ l.activations, a.failure = none := by
  intro a ha
  obtain ⟨i, hi⟩ := List.mem_iff_getElem?.1 ha
  obtain ⟨_, _, -, follows⟩ := h.follows hi
  exact follows.unfailed

theorem launched {i : Nat} {a : Activation} (ha : l.activations[i]? = some a) :
    a.epoch ≤ epoch := by
  obtain ⟨_, _, -, follows⟩ := h.follows ha
  exact follows.launched

theorem later {epoch' : Nat} (grows : epoch ≤ epoch') : l.Booked Q epoch' := by
  refine ⟨fun i a ha => ?_, h.recorded, h.tasks, h.results⟩
  obtain ⟨launch, heard, hq, follows⟩ := h.follows ha
  exact ⟨launch, heard, hq, follows.later grows fun _ _ known => known⟩

/-- One activation changes, and still follows its batch. -/
theorem set {i : Nat} {a a' : Activation} (ha : l.activations[i]? = some a)
    (same : a'.step = a.step) (goes : ∀ b heard, a.Follows l.tasks epoch b heard →
      ∃ heard', a'.Follows l.tasks epoch b heard') : (l.set i a').Booked Q epoch := by
  refine ⟨fun j c hc => ?_, h.recorded, h.tasks, h.results⟩
  rcases at_set hc with ⟨rfl, rfl⟩ | ⟨-, old⟩
  · obtain ⟨launch, heard, hq, follows⟩ := h.follows ha
    obtain ⟨heard', follows'⟩ := goes launch.batch heard follows
    exact ⟨launch, heard', same ▸ hq, follows'⟩
  · exact h.follows old

theorem add {step : String} {n now : Nat} {launch : StepLaunch}
    (hq : Q l.activations.length step launch) (launched : n ≤ epoch) :
    (l.add (.start step n now launch)).Booked Q epoch := by
  refine ⟨fun i a ha => ?_, h.recorded, h.tasks, h.results⟩
  rcases at_add ha with old | ⟨rfl, rfl⟩
  · exact h.follows old
  · exact ⟨launch, [], hq, .start step now launch launched⟩

/-- An update is noted; a result only of a task that is recorded. -/
theorem note {step : String} {update : StepUpdate}
    (known : ∀ r log, update = .taskResult r log → r.task ∈ l.tasks step) :
    (l.note step update).Booked Q epoch := by
  refine ⟨fun i a ha => ?_, fun s r hr => ?_, fun s => ?_, fun s => ?_⟩
  · -- what the activations have told is unchanged
    rw [note_activations] at ha
    obtain ⟨launch, heard, hq, follows⟩ := h.follows ha
    exact ⟨launch, heard, hq, follows.later (Nat.le_refl _) fun _ _ ht => mem_tasks_note ht ..⟩
  · -- a result is stored for a task that is known
    cases update with
    | taskResult q log =>
      simp only [Ledger.note] at hr ⊢
      split at hr
      · rename_i here
        subst here
        rcases TaskResult.mem_of_mem_store hr with rfl | old
        · exact known r log rfl
        · exact h.recorded s r old
      · exact h.recorded s r hr
    | _ => exact mem_tasks_note (h.recorded s r hr) ..
  · -- a task is noted only if it is new
    cases update with
    | taskCreated task =>
      simp only [Ledger.note]
      split
      · rename_i here
        have new : task ∉ l.tasks s := by
          simp only [List.contains_eq_mem, Bool.and_eq_true, Bool.not_eq_true',
            decide_eq_false_iff_not] at here
          exact here.2
        refine List.nodup_append.2 ⟨h.tasks s, by simp, fun a ha b hb heq => new ?_⟩
        rwa [← List.mem_singleton.1 hb, ← heq]
      · exact h.tasks s
    | _ => exact h.tasks s
  · -- a result takes the place of an earlier one of its task
    cases update with
    | taskResult q log =>
      simp only [Ledger.note]
      split
      · exact TaskResult.nodup_store (h.results s) q
      · exact h.results s
    | _ => exact h.results s

theorem advances {i : Nat} {a a' : Activation} (ha : l.activations[i]? = some a)
    (step : a.Advances a') : (l.set i a').Booked Q epoch :=
  h.set ha step.stamp.1 fun _ _ follows => follows.advances step

/-- An update of the current epoch is handed over and noted. -/
theorem saves {i : Nat} {a : Activation} {update : StepUpdate} {rest : List StepUpdate}
    (ha : l.activations[i]? = some a) (updates : a.updates = update :: rest)
    (live : a.epoch = epoch) :
    ((l.note a.step update).set i { a with updates := rest }).Booked Q epoch := by
  obtain ⟨launch, heard, -, follows⟩ := h.follows ha
  have noted : (l.note a.step update).Booked Q epoch :=
    h.note fun r log heq => follows.result_known (heq ▸ updates) live
  have here : (l.note a.step update).activations[i]? = some a := by rw [note_activations, ha]
  refine noted.set here rfl fun b heard follows => ⟨heard, follows.hands updates ?_⟩
  rintro - t rfl
  exact task_mem_note l a.step t

/-- An update of an older epoch is handed over, and dropped. -/
theorem drops {i : Nat} {a : Activation} {update : StepUpdate} {rest : List StepUpdate}
    (ha : l.activations[i]? = some a) (updates : a.updates = update :: rest)
    (stale : a.epoch ≠ epoch) : (l.set i { a with updates := rest }).Booked Q epoch :=
  h.set ha rfl fun _ heard follows =>
    ⟨heard, follows.hands updates fun live => absurd live stale⟩

end Booked

end Ledger

namespace Driver

theorem Sound.launched {d : Driver} (h : d.Sound) {i : Nat} {a : Activation}
    (ha : d.ledger.activations[i]? = some a) : a.epoch ≤ d.epoch := by
  obtain ⟨c, hc, rfl⟩ : ∃ c, d.activations[i]? = some c ∧ c.bare = a := by
    simpa [ledger] using ha
  change c.epoch ≤ d.epoch
  by_cases active : d.active = some i
  · have heq := (h.active i active).2.symm.trans (stamps_eq_some hc)
    have : d.epoch = c.epoch := congrArg Prod.fst (Option.some.inj heq)
    omega
  · exact Nat.le_of_lt (h.others i _ _ (stamps_eq_some hc) active).1

theorem Untouched.booked {d : Driver} (h : d.Untouched) (Q : Nat → String → StepLaunch → Prop)
    (tasks : d.record.stepTasks = .empty) (results : d.record.stepResults = .empty) :
    d.ledger.Booked Q d.epoch := by
  have noTasks : ∀ s, d.ledger.tasks s = [] := fun s => by simp [ledger, Record.tasks, tasks]
  have noResults : ∀ s, d.ledger.results s = [] := fun s => by
    simp [ledger, Record.results, results]
  refine ⟨fun i a ha => ?_, fun s r hr => ?_, fun s => ?_, fun s => ?_⟩
  · simp [ledger, h.activations] at ha
  · simp [noResults] at hr
  · simp [noTasks]
  · simp [noResults]

/-- **Every event keeps the books in order.** -/
theorem happen_booked {Q : Nat → String → StepLaunch → Prop} {x : Driver × Services}
    (h : x.1.ledger.Booked Q x.1.epoch) (sound : x.1.Sound)
    (stored : x.2.store.find? x.1.flow = some x.1.record) {e : Event} (listener : e.FromListener)
    (saved : ¬ FailsToSave x e)
    (launched : ∀ step l, LaunchesAt x step l e → Q x.1.ledger.activations.length step l) :
    (happen x e).1.ledger.Booked Q (happen x e).1.epoch := by
  have effect := happen_effect x.1 x.2 h.unfailed stored listener saved
  have ahead := happen_ahead sound x.2 e
  have launchedBy := fun i a => ahead.sound.launched (i := i) (a := a)
  have grows : x.1.epoch ≤ (happen x e).1.epoch := ahead.epoch_le
  generalize (happen x e).1.epoch = n at *
  generalize (happen x e).1.ledger = l' at *
  cases effect with
  | keeps => exact h.later grows
  | advances _ ha step => exact (h.advances ha step).later grows
  | launches _ here =>
    exact (h.later grows).add (launched _ _ here) (launchedBy _ _ (Ledger.at_end _ _))
  | saves _ ha updates live => exact (h.saves ha updates live).later grows
  | drops _ ha updates stale => exact (h.drops ha updates stale).later grows

end Driver

end Workflow
