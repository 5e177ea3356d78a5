import Workflow.Proofs.Flow.Bookkeeping

/-!
# Workflow.Proofs.Flow.Agreement — the record has the results that the handler has

A result of a launched task is kept by the handler of the launch when it is heard, and by the record
when the update is noted.  `Agrees` says that for one activation the two differ by what is to be
handed over, and by nothing once the activation is stale.  Of everything that an event can do to the
ledger only an update of that activation touches the results of its tasks, unless its step launches
one of them again; so the two agree along every run (`run_agrees`).  What the handler came with it
keeps among its results (`merged`).
-/

namespace Workflow

/-- When a decision is to be told, and nothing could not be saved, everything is handed over. -/
theorem Activation.handed_over {a : Activation} (saved : a.failure = none)
    (decides : a.decision?.isSome) : a.updates = [] := by
  cases pending : a.updates with
  | nil => rfl
  | cons => simp [decision?, saved, pending] at decides

namespace Ledger

/-- Activation `i` is that of a launch, and later activations of its step are of other tasks. -/
def Owns (i : Nat) (step : String) (launch : StepLaunch) : Nat → String → StepLaunch → Prop :=
  fun j step' launch' => (j = i → step' = step ∧ launch' = launch) ∧
    (i < j → step' = step → ∀ t ∈ launch'.batch.taskIds, t ∉ launch.batch.taskIds)

/-- The results that the record has of the tasks of a launch, kept with those that the handler of
the launch came with. -/
def merged (l : Ledger) (step : String) (launch : StepLaunch) : List TaskResult :=
  TaskResult.storeAll ((l.results step).filter fun r => launch.batch.taskIds.contains r.task)
    launch.handler.results

theorem merged_eq (l : Ledger) (step : String) (launch : StepLaunch) :
    l.merged step launch = TaskResult.storeAll
      ((l.results step).filter (·.task ∈ launch.batch.taskIds)) launch.handler.results := by
  simp only [merged, List.contains_eq_mem]

/-- The record has the results that were kept for an activation of a launch, and the handler keeps
these and what is still to be handed over. -/
structure Agrees (i : Nat) (step : String) (launch : StepLaunch) (epoch : Nat) (l : Ledger)
    (kept : List TaskResult) : Prop where
  placed : i < l.activations.length
  older : ∀ (j : Nat) a, j < i → l.activations[j]? = some a → a.epoch < epoch
  agree : kept = l.merged step launch
  current : ∀ a, l.activations[i]? = some a → a.epoch = epoch →
    a.listener.handler.results =
      TaskResult.storeAll (a.updates.filterMap StepUpdate.result?) kept

/-- A result of another step or of another task does not show. -/
theorem merged_note_other {l : Ledger} {step step' : String} {update : StepUpdate}
    {launch : StepLaunch} (other : ∀ r log, update = .taskResult r log → step' = step →
      r.task ∉ launch.batch.taskIds) :
    (l.note step' update).merged step launch = l.merged step launch := by
  cases update with
  | taskResult r log =>
    simp only [merged_eq, note]
    split
    · rename_i same
      rw [TaskResult.filter_store, if_neg (other r log rfl same.symm)]
    · rfl
  | _ => rfl

/-- A result of one of the tasks is kept. -/
theorem merged_note {l : Ledger} {step : String} (distinct : ((l.results step).map
      TaskResult.task).Nodup) {launch : StepLaunch} {r : TaskResult}
    (own : r.task ∈ launch.batch.taskIds) (log : List LogEntry) :
    (l.note step (.taskResult r log)).merged step launch = r.store (l.merged step launch) := by
  simp only [merged_eq, note, if_true, TaskResult.filter_store, own]
  exact TaskResult.storeAll_store (TaskResult.nodup_filter distinct _) r _

namespace Agrees

variable {i : Nat} {step : String} {launch : StepLaunch} {epoch : Nat} {l : Ledger}
  {kept : List TaskResult} (h : l.Agrees i step launch epoch kept)
include h

theorem later {epoch' : Nat} (launched : ∀ a, l.activations[i]? = some a → a.epoch ≤ epoch)
    (grows : epoch ≤ epoch') : l.Agrees i step launch epoch' kept := by
  refine ⟨h.placed, fun j a hj ha => ?_, h.agree, fun a ha live => h.current a ha ?_⟩
  · exact Nat.lt_of_lt_of_le (h.older j a hj ha) grows
  · have := launched a ha
    omega

theorem add (a : Activation) : (l.add a).Agrees i step launch epoch kept := by
  have old : ∀ j b, j < l.activations.length → (l.add a).activations[j]? = some b →
      l.activations[j]? = some b := by
    intro j b hj hb
    rcases at_add hb with hold | ⟨rfl, -⟩
    · exact hold
    · omega
  have placed := h.placed
  refine ⟨?_, fun j b hj hb => ?_, h.agree, fun b hb live => ?_⟩
  · simp only [Ledger.add, List.length_append]
    omega
  · exact h.older j b hj (old j b (by omega) hb)
  · exact h.current b (old i b placed hb) live

/-- An activation changes, but neither its epoch nor, if it is activation `i` and current, that its
handler keeps what is to be handed over. -/
theorem set {j : Nat} {a a' : Activation} (ha : l.activations[j]? = some a)
    (same : a'.epoch = a.epoch)
    (keeps : j = i → a.epoch = epoch →
      a.listener.handler.results =
        TaskResult.storeAll (a.updates.filterMap StepUpdate.result?) kept →
      a'.listener.handler.results =
        TaskResult.storeAll (a'.updates.filterMap StepUpdate.result?) kept) :
    (l.set j a').Agrees i step launch epoch kept := by
  refine ⟨?_, fun k b hk hb => ?_, h.agree, fun b hb live => ?_⟩
  · simpa [Ledger.set] using h.placed
  · rcases at_set hb with ⟨rfl, rfl⟩ | ⟨-, old⟩
    · exact same ▸ h.older k a hk ha
    · exact h.older k b hk old
  · rcases at_set hb with ⟨rfl, rfl⟩ | ⟨-, old⟩
    · have live' := same.symm.trans live
      exact keeps rfl live' (h.current a ha live')
    · exact h.current b old live

/-- What is heard is kept and is to be handed over. -/
theorem advances {j : Nat} {a a' : Activation} (ha : l.activations[j]? = some a)
    (goes : a.Advances a') : (l.set j a').Agrees i step launch epoch kept := by
  refine h.set ha goes.stamp.2.1 fun _ _ keeps => ?_
  cases goes with
  | works => exact keeps
  | @hears event _ updates undecided =>
    rw [Listener.hear_undecided undecided, Handler.hear_updates, Handler.hear_results, keeps,
      updates]
    rfl

theorem drops {j : Nat} {a : Activation} {rest : List StepUpdate}
    (ha : l.activations[j]? = some a) (stale : a.epoch ≠ epoch) :
    (l.set j { a with updates := rest }).Agrees i step launch epoch kept :=
  h.set ha rfl fun _ live => absurd live stale

/-- An update of another activation is noted: it is about another step, or about other tasks. -/
theorem saves_other (booked : l.Booked (Owns i step launch) epoch) {j : Nat} {a : Activation}
    {update : StepUpdate} {rest : List StepUpdate} (ha : l.activations[j]? = some a)
    (updates : a.updates = update :: rest) (live : a.epoch = epoch) (other : j ≠ i) :
    ((l.note a.step update).set j { a with updates := rest }).Agrees i step launch epoch kept := by
  obtain ⟨launch', heard, owns, follows⟩ := booked.follows ha
  have after : i < j := by
    have := h.older j a
    grind
  have unseen : (l.note a.step update).merged step launch = l.merged step launch :=
    merged_note_other fun r log heq same =>
      owns.2 after same r.task (follows.result_task (heq ▸ updates))
  have noted : (l.note a.step update).Agrees i step launch epoch kept := by
    refine ⟨?_, ?_, unseen ▸ h.agree, ?_⟩ <;> rw [note_activations]
    · exact h.placed
    · exact h.older
    · exact h.current
  have here : (l.note a.step update).activations[j]? = some a := by rw [note_activations, ha]
  exact noted.set here rfl fun same => absurd same other

/-- An update of the activation is noted: it is what the handler has kept since the latest one. -/
theorem saves_own (booked : l.Booked (Owns i step launch) epoch) {a : Activation}
    {update : StepUpdate} {rest : List StepUpdate} (ha : l.activations[i]? = some a)
    (updates : a.updates = update :: rest) (live : a.epoch = epoch) :
    ((l.note a.step update).set i { a with updates := rest }).Agrees i step launch epoch
      a.listener.handler.results := by
  obtain ⟨launch', heard, owns, follows⟩ := booked.follows ha
  obtain ⟨here, rfl⟩ := owns.1 rfl
  have keeps := h.current a ha live
  rw [updates, follows.updates_eq updates] at keeps
  refine ⟨?_, fun j b hj hb => ?_, ?_, fun b hb _ => ?_⟩
  · simpa [Ledger.set, note_activations] using h.placed
  · rcases at_set hb with ⟨rfl, -⟩ | ⟨-, old⟩
    · exact absurd hj (Nat.lt_irrefl _)
    · exact h.older j b hj (by rwa [note_activations] at old)
  · change _ = (l.note a.step update).merged step launch'
    cases update with
    | taskResult r log =>
      -- the result that is saved is the one that the handler has stored
      have stored : a.listener.handler.results = r.store kept := keeps
      rw [stored, here, merged_note (booked.results step) (follows.result_task updates), h.agree]
    | _ => exact keeps.trans h.agree
  · rcases at_set hb with ⟨-, rfl⟩ | ⟨other, -⟩
    · rw [follows.updates_eq updates]
      rfl
    · exact absurd rfl other

end Agrees

end Ledger

namespace Driver

/-! ### Launches -/

/-- The results that the handler of activation `i` had at the latest update of the run that was
applied for it, or those given if there was none. -/
def accumulated (i : Nat) : Driver × Services → List TaskResult → List Event → List TaskResult
  | _, kept, [] => kept
  | x, kept, e :: es => accumulated i (happen x e) ((applied? x i e).getD kept) es

/-- A step launches one of these tasks. -/
def Reuses (step : String) (ids : List TaskId) (x : Driver × Services) (e : Event) : Prop :=
  ∃ l, LaunchesAt x step l e ∧ ∃ t ∈ l.batch.taskIds, t ∈ ids

/-- The tasks of a launch are new to its step. -/
def IsNew (d : Driver) (step : String) (l : StepLaunch) : Prop :=
  ∀ t ∈ l.batch.taskIds, t ∉ d.record.tasks step

theorem LaunchesAt.unique {x : Driver × Services} {step step' : String} {l l' : StepLaunch}
    {e : Event} (h : LaunchesAt x step l e) (h' : LaunchesAt x step' l' e) :
    step' = step ∧ l' = l := by
  cases e with
  | move now move =>
    cases move with
    | proceed i =>
      obtain ⟨-, e, executing, -, -, rfl, -, launch⟩ := h
      obtain ⟨-, e', executing', -, -, rfl, -, launch'⟩ := h'
      obtain rfl : e = e' := by simpa using executing.symm.trans executing'
      exact ⟨rfl, Option.some.inj (launch'.symm.trans launch)⟩
    | _ => exact absurd h id
  | _ => exact absurd h id

/-- A launch of new tasks: nothing is recorded of them, and their handler has heard nothing yet. -/
theorem launched_agrees {x : Driver × Services} (sound : x.1.Sound)
    {Q : Nat → String → StepLaunch → Prop} (booked : x.1.ledger.Booked Q x.1.epoch) {e : Event}
    {step : String} {l : StepLaunch} (h : LaunchesAt x step l e) (new : x.1.IsNew step l) :
    (happen x e).1.ledger.Agrees x.1.ledger.activations.length step l (happen x e).1.epoch
      l.handler.results := by
  obtain ⟨now, ledger⟩ := h.ledger
  have launched : x.1.epoch + 1 ≤ (happen x e).1.epoch :=
    (happen_ahead sound x.2 e).sound.launched (ledger ▸ Ledger.at_end ..)
  -- no result of an earlier launch is one of a new task
  have unknown : (x.1.ledger.results step).filter (·.task ∈ l.batch.taskIds) = [] := by
    refine List.filter_eq_nil_iff.2 fun r hr => ?_
    have known := booked.recorded step r hr
    exact fun own => new r.task (by simpa using own) known
  rw [ledger]
  refine ⟨by simp [Ledger.add], fun j a hj ha => ?_, ?_, fun a ha _ => ?_⟩
  · rcases Ledger.at_add ha with old | ⟨rfl, -⟩
    · exact Nat.lt_of_lt_of_le (Nat.lt_succ_of_le (booked.launched old)) launched
    · exact absurd hj (Nat.lt_irrefl _)
  · rw [Ledger.merged_eq]
    change _ = TaskResult.storeAll ((x.1.ledger.results step).filter _) l.handler.results
    rw [unknown, TaskResult.storeAll_nil]
  · obtain rfl := Option.some.inj ((Ledger.at_end ..).symm.trans ha)
    rfl

section Runs

variable {i : Nat} {step : String} {launch : StepLaunch}

/-- **Every event keeps the record and the handler of a launch in agreement**, unless the step
launches one of the tasks again. -/
theorem happen_agrees {x : Driver × Services} {kept : List TaskResult}
    (h : x.1.ledger.Agrees i step launch x.1.epoch kept)
    (booked : x.1.ledger.Booked (Ledger.Owns i step launch) x.1.epoch) (sound : x.1.Sound)
    (stored : x.2.store.find? x.1.flow = some x.1.record) {e : Event} (listener : e.FromListener)
    (saved : ¬ FailsToSave x e) : (happen x e).1.ledger.Agrees i step launch (happen x e).1.epoch
      ((applied? x i e).getD kept) := by
  have effect := happen_effect x.1 x.2 booked.unfailed stored listener saved
  have grows : x.1.epoch ≤ (happen x e).1.epoch := (happen_ahead sound x.2 e).epoch_le
  generalize (happen x e).1.epoch = n at *
  generalize (happen x e).1.ledger = l' at *
  cases effect with
  | keeps quiet =>
    rw [quiet i]
    exact h.later (fun _ => booked.launched) grows
  | advances quiet ha goes =>
    rw [quiet i]
    exact (h.advances ha goes).later (fun _ => (booked.advances ha goes).launched) grows
  | launches quiet =>
    rw [quiet i]
    exact (h.later (fun _ => booked.launched) grows).add _
  | @saves j a update rest applied ha updates live =>
    have booked' := booked.saves ha updates live
    rw [applied i]
    by_cases own : j = i
    · subst own
      rw [if_pos rfl]
      exact (h.saves_own booked ha updates live).later (fun _ => booked'.launched) grows
    · rw [if_neg own]
      exact (h.saves_other booked ha updates live own).later (fun _ => booked'.launched) grows
  | drops quiet ha updates stale =>
    rw [quiet i]
    exact (h.drops ha stale).later (fun _ => (booked.drops ha updates stale).launched) grows

end Runs

/-! ### Runs -/

theorem allSaved_append {x : Driver × Services} {es fs : List Event} :
    AllSaved x (es ++ fs) ↔ AllSaved x es ∧ AllSaved (run x es) fs := by
  induction es generalizing x with
  | nil => simp [AllSaved]
  | cons e es ih => simp [AllSaved, ih, and_assoc]

/-- A driver whose record is stored as it is, with its books in order. -/
structure InOrder (Q : Nat → String → StepLaunch → Prop) (flow : FlowId) (type : String)
    (x : Driver × Services) : Prop where
  sound : x.1.Sound
  mirrored : Mirrored flow type (view x)
  booked : x.1.ledger.Booked Q x.1.epoch

section InOrder

variable {Q : Nat → String → StepLaunch → Prop} {flow : FlowId} {type : String}
  {x : Driver × Services} (h : InOrder Q flow type x)
include h

theorem InOrder.stored : x.2.store.find? x.1.flow = some x.1.record := by
  have drives : x.1.flow = flow := h.mirrored.coherent.drives
  rw [drives]
  exact h.mirrored.stored

theorem InOrder.happen {e : Event} (listener : e.FromListener) (spares : e.SparesRecord flow)
    (saved : ¬ FailsToSave x e)
    (launched : ∀ step l, LaunchesAt x step l e → Q x.1.ledger.activations.length step l) :
    InOrder Q flow type (Driver.happen x e) :=
  ⟨(happen_ahead h.sound x.2 e).sound, h.mirrored.happen spares saved,
    happen_booked h.booked h.sound h.stored listener saved launched⟩

end InOrder

theorem InOrder.run {flow : FlowId} {type : String} {x : Driver × Services}
    (h : InOrder (fun _ _ _ => True) flow type x) {es : List Event}
    (listener : ∀ e ∈ es, e.FromListener) (spares : ∀ e ∈ es, e.SparesRecord flow)
    (saved : AllSaved x es) : InOrder (fun _ _ _ => True) flow type (Driver.run x es) := by
  induction es generalizing x with
  | nil => exact h
  | cons e es ih =>
    obtain ⟨listener, listeners⟩ := List.forall_mem_cons.1 listener
    obtain ⟨spares, spare⟩ := List.forall_mem_cons.1 spares
    exact ih (h.happen listener spares saved.1 fun _ _ _ => trivial) listeners spare saved.2

theorem create_inOrder {w w' : World} {definition : Definition} {source : Nat} {d : Driver}
    (h : w.create definition source = (.ok d, w')) :
    InOrder (fun _ _ _ => True) d.flow definition.flowType (d, w'.services) := by
  have untouched := World.create_untouched h
  refine ⟨untouched.sound, create_mirrored h, ?_⟩
  obtain ⟨flow, rfl⟩ := World.create_driver h
  exact untouched.booked _ rfl rfl

section Launched

variable {flow : FlowId} {type : String} {step : String} {launch : StepLaunch}

/-- **Along a run of launched tasks the record and their handler agree**, as long as the step
launches none of them again. -/
theorem run_agrees {i : Nat} {x : Driver × Services} {kept : List TaskResult}
    (h : InOrder (Ledger.Owns i step launch) flow type x)
    (agrees : x.1.ledger.Agrees i step launch x.1.epoch kept)
    {es : List Event} (listener : ∀ e ∈ es, e.FromListener) (spares : ∀ e ∈ es, e.SparesRecord flow)
    (saved : AllSaved x es) (never : Never (Reuses step launch.batch.taskIds) x es) :
    (run x es).1.ledger.Agrees i step launch (run x es).1.epoch (accumulated i x kept es) ∧
      (run x es).1.Unfailed := by
  induction es generalizing x kept with
  | nil => exact ⟨agrees, h.booked.unfailed⟩
  | cons e es ih =>
    obtain ⟨listener, listeners⟩ := List.forall_mem_cons.1 listener
    obtain ⟨spares, spare⟩ := List.forall_mem_cons.1 spares
    have owned : ∀ step' l, LaunchesAt x step' l e →
        Ledger.Owns i step launch x.1.ledger.activations.length step' l := by
      intro step' l launches
      refine ⟨fun same => absurd agrees.placed (by omega), fun _ same t ht own => ?_⟩
      exact never.1 ⟨l, same ▸ launches, t, ht, own⟩
    have next := happen_agrees agrees h.booked h.sound h.stored listener saved.1
    exact ih (h.happen listener spares saved.1 owned) next listeners spare saved.2 never.2

/-- A launch owns its activation, and those before it are no concern of it. -/
theorem launched_inOrder {x : Driver × Services} (h : InOrder (fun _ _ _ => True) flow type x)
    {e : Event} (launches : LaunchesAt x step launch e) (listener : e.FromListener)
    (spares : e.SparesRecord flow) (saved : ¬ FailsToSave x e) :
    InOrder (Ledger.Owns x.1.ledger.activations.length step launch) flow type (happen x e) := by
  have before : InOrder (Ledger.Owns x.1.ledger.activations.length step launch) flow type x := by
    refine ⟨h.sound, h.mirrored, h.booked.mono fun i step' l' hlt _ => ?_⟩
    exact ⟨fun same => absurd hlt (by omega), fun later => absurd hlt (by omega)⟩
  refine before.happen listener spares saved fun step' l launches' => ?_
  exact ⟨fun _ => launches.unique launches', fun later => absurd later (Nat.lt_irrefl _)⟩

/-- From the launch of new tasks on, whatever was before. -/
theorem launch_agrees {x : Driver × Services} (h : InOrder (fun _ _ _ => True) flow type x)
    {before after : List Event} {e : Event}
    (listener : ∀ e' ∈ before ++ e :: after, e'.FromListener)
    (spares : ∀ e' ∈ before ++ e :: after, e'.SparesRecord flow)
    (saved : AllSaved x (before ++ e :: after)) {y : Driver × Services} (hy : run x before = y)
    (launches : LaunchesAt y step launch e) (new : y.1.IsNew step launch)
    (never : Never (Reuses step launch.batch.taskIds) (happen y e) after) :
    (run (happen y e) after).1.ledger.Agrees y.1.activations.length step launch
        (run (happen y e) after).1.epoch
        (accumulated y.1.activations.length (happen y e) launch.handler.results after) ∧
      (run (happen y e) after).1.Unfailed := by
  subst hy
  obtain ⟨savedBefore, saved, savedAfter⟩ := allSaved_append.1 saved
  obtain ⟨listenerBefore, listener⟩ := List.forall_mem_append.1 listener
  obtain ⟨sparesBefore, spares⟩ := List.forall_mem_append.1 spares
  obtain ⟨listener, listenerAfter⟩ := List.forall_mem_cons.1 listener
  obtain ⟨spares, sparesAfter⟩ := List.forall_mem_cons.1 spares
  have inOrder := h.run listenerBefore sparesBefore savedBefore
  have owned := launched_inOrder inOrder launches listener spares saved
  have agrees := launched_agrees inOrder.sound inOrder.booked launches new
  have place : (run x before).1.ledger.activations.length = (run x before).1.activations.length :=
    List.length_map _
  rw [place] at owned agrees
  exact run_agrees owned agrees listenerAfter sparesAfter savedAfter never

end Launched

/-- **The record and the handlers keep the same results.**  A flow was created; nobody else has
changed its stored record, no save has failed, and no update has come out of the blue.

* A step has launched tasks that are new to it, and it has not launched one of them again.  Then
  the results that the record has of these tasks under the step are, in the same order and with the
  same values, those that the handler has accumulated by the latest update that was applied while
  the activation was that of the current epoch; and when the listener of the current epoch is to
  tell a decision, they are all that the handler has.  If the handler came with results, they are
  kept among these: in front, unless they are of the same tasks.
* Of every step the record has results only of tasks that it has as well, and no task twice. -/
theorem record_agrees {w w' : World} {definition : Definition} {source : Nat} {d : Driver}
    (created : w.create definition source = (.ok d, w')) (es : List Event)
    (listener : ∀ e ∈ es, e.FromListener) (spares : ∀ e ∈ es, e.SparesRecord d.flow)
    (saved : AllSaved (d, w'.services) es) (x : Driver × Services)
    (hx : run (d, w'.services) es = x) :
    (∀ before e after y step launch recorded, es = before ++ e :: after →
      run (d, w'.services) before = y → LaunchesAt y step launch e → y.1.IsNew step launch →
      Never (Reuses step launch.batch.taskIds) (happen y e) after →
      (x.1.record.results step).filter (·.task ∈ launch.batch.taskIds) = recorded →
      accumulated y.1.activations.length (happen y e) launch.handler.results after =
          TaskResult.storeAll recorded launch.handler.results ∧
        (∀ a, x.1.activations[y.1.activations.length]? = some a → a.epoch = x.1.epoch →
          a.decision?.isSome →
          a.listener.handler.results = TaskResult.storeAll recorded launch.handler.results) ∧
        ((∀ r ∈ launch.handler.results, r.task ∉ launch.batch.taskIds) →
          TaskResult.storeAll recorded launch.handler.results =
            launch.handler.results ++ recorded)) ∧
    ∀ step, (∀ r ∈ x.1.record.results step, r.task ∈ x.1.record.tasks step) ∧
      (x.1.record.tasks step).Nodup ∧ ((x.1.record.results step).map TaskResult.task).Nodup := by
  have start := create_inOrder created
  have booked := (hx ▸ start.run listener spares saved : InOrder _ _ _ x).booked
  refine ⟨?_, fun step => ⟨booked.recorded step, booked.tasks step, booked.results step⟩⟩
  rintro before e after y step launch recorded rfl hy launches new never rfl
  obtain ⟨agrees, unfailed⟩ := launch_agrees start listener spares saved hy launches new never
  rw [run_append, hy, run_cons] at hx
  rw [hx] at agrees unfailed
  have same := agrees.agree.trans (Ledger.merged_eq ..)
  refine ⟨same, fun a ha live decides => ?_, fun apart => ?_⟩
  · have here : x.1.ledger.activations[y.1.activations.length]? = some a.bare := by
      simp [ledger, ha]
    have nothing : a.bare.updates = [] := a.handed_over (unfailed.at ha) decides
    have keeps := agrees.current a.bare here live
    rw [nothing] at keeps
    exact keeps.trans same
  · refine TaskResult.storeAll_eq_append (TaskResult.nodup_filter (booked.results step) _) ?_
    intro q hq p hp same
    have own : q.task ∈ launch.batch.taskIds := by simpa using (List.mem_filter.1 hq).2
    exact apart p hp (same ▸ own)

/-- The same task in every turn of a step; its result is that of the turn. -/
def sameTask (turn : Nat) : StepLaunch :=
  let answer := (TaskResult.success (.ofNat 7)).withMessage (if turn = 1 then "first" else "later")
  ⟨⟨[⟨⟨.ofNat 7, ⟨0, 0, 0, .one⟩, fun _ => ⟨some 0, .answer (.ok answer)⟩⟩, .submit⟩], default⟩,
    .ofRoutes (.onResult "solo" "solo")⟩

/-- A step that launches it whenever it is executed. -/
def launchesSame : Nat → StepContext → StepWork := fun turn _ =>
  .atOnce (.ofLaunch (sameTask turn).batch (sameTask turn).handler)

/-- The task of an activation is created and ends, which is heard and saved, and then the handler
decides. -/
def taskEnds (i : Nat) : List Event :=
  [.move 0 (.hear i), .move 0 (.save i), .move 0 (.work i), .move 0 (.work i), .move 0 (.hear i),
    .move 0 (.save i), .move 0 (.hear i)]

/-- The step is executed and launches the task. -/
def taskRuns : List Event :=
  .move 0 .start :: .move 0 (.proceed 0) :: .move 0 (.proceed 0) :: taskEnds 0

/-- The decision is for the step again, which launches the task again. -/
def taskRunsAgain : List Event :=
  .move 0 (.decide 0) :: .move 0 (.proceed 1) :: .move 0 (.proceed 1) :: taskEnds 1

section Repeated

variable {d : Driver} {w' : World}
  (created : World.empty.create (.solo launchesSame) 0 = (.ok d, w'))
include created

theorem taskRuns_saved : AllSaved (d, w'.services) taskRuns := by
  cases created
  refine .cons (not_failsToSave rfl) (.cons (not_failsToSave rfl) (.cons (not_failsToSave rfl) ?_))
  refine .cons (not_failsToSave rfl) (.cons (not_failsToSave rfl) (.cons (not_failsToSave rfl) ?_))
  refine .cons (not_failsToSave rfl) (.cons (not_failsToSave rfl) (.cons (not_failsToSave rfl) ?_))
  exact .cons (not_failsToSave rfl) trivial

theorem taskRunsAgain_saved : AllSaved (run (d, w'.services) taskRuns) taskRunsAgain := by
  cases created
  refine .cons (not_failsToSave rfl) (.cons (not_failsToSave rfl) (.cons (not_failsToSave rfl) ?_))
  refine .cons (not_failsToSave rfl) (.cons (not_failsToSave rfl) (.cons (not_failsToSave rfl) ?_))
  refine .cons (not_failsToSave rfl) (.cons (not_failsToSave rfl) (.cons (not_failsToSave rfl) ?_))
  exact .cons (not_failsToSave rfl) trivial

end Repeated

/-- Where no step answers, no task is launched. -/
theorem never_reuses {step : String} {ids : List TaskId} {x : Driver × Services} {es : List Event}
    (h : ∀ e ∈ es, ∀ now i, e ≠ .move now (.proceed i)) : Never (Reuses step ids) x es := by
  induction es generalizing x with
  | nil => trivial
  | cons e es ih =>
    obtain ⟨first, rest⟩ := List.forall_mem_cons.1 h
    refine ⟨fun ⟨_, launches, _⟩ => ?_, ih rest⟩
    cases e with
    | move now move =>
      cases move with
      | proceed i => exact first now i rfl
      | _ => exact launches
    | _ => exact launches

/-- A task ends and its result is saved; its handler, about to decide, has the same. -/
theorem record_agrees_solo : ∃ d w' x y a,
    World.empty.create (.solo launchesSame) 0 = (.ok d, w') ∧
    run (d, w'.services) taskRuns = x ∧
    run (d, w'.services) [.move 0 .start, .move 0 (.proceed 0)] = y ∧
    LaunchesAt y "solo" (sameTask 1) (.move 0 (.proceed 0)) ∧ y.1.IsNew "solo" (sameTask 1) ∧
    x.1.activations[0]? = some a ∧ a.decision?.isSome ∧
    x.1.record.results "solo" = [(TaskResult.success (.ofNat 7)).withMessage "first"] ∧
    a.listener.handler.results =
      (x.1.record.results "solo").filter (·.task ∈ (sameTask 1).batch.taskIds) := by
  have created : World.empty.create (.solo launchesSame) 0 = (.ok _, _) := rfl
  have fair : ∀ flow, ∀ e ∈ taskRuns, e.FromListener ∧ e.SparesRecord flow := by
    simp [taskRuns, taskEnds, Event.FromListener, Event.SparesRecord]
  obtain ⟨agrees, -⟩ := record_agrees created taskRuns (fun e he => (fair default e he).1)
    (fun e he => (fair _ e he).2) (taskRuns_saved created) _ rfl
  obtain ⟨-, all, behind⟩ := agrees [.move 0 .start, .move 0 (.proceed 0)] (.move 0 (.proceed 0))
    (taskEnds 0) _ "solo" (sameTask 1) _ rfl rfl ⟨rfl, _, rfl, Nat.le_refl 0, rfl, rfl, rfl, rfl⟩
    (fun _ _ => List.not_mem_nil) (never_reuses (by simp [taskEnds])) rfl
  have fresh : ∀ r ∈ (sameTask 1).handler.results, r.task ∉ (sameTask 1).batch.taskIds :=
    fun r hr => absurd hr List.not_mem_nil
  have same := (all _ rfl rfl rfl).trans (behind fresh)
  refine ⟨_, _, _, _, _, created, rfl, rfl, ?launches, ?new, rfl, rfl, rfl, same⟩
  case launches => exact ⟨rfl, _, rfl, Nat.le_refl 0, rfl, rfl, rfl, rfl⟩
  case new => exact fun _ _ => List.not_mem_nil

/-- A step that launches a task again has its later result in the place of the earlier one, which
the first handler has accumulated. -/
theorem relaunched_task_overwritten : ∃ d w' x y,
    World.empty.create (.solo launchesSame) 0 = (.ok d, w') ∧
    (∀ e ∈ taskRuns ++ taskRunsAgain, e.FromListener ∧ e.SparesRecord d.flow) ∧
    AllSaved (d, w'.services) (taskRuns ++ taskRunsAgain) ∧
    run (d, w'.services) (taskRuns ++ taskRunsAgain) = x ∧
    run (d, w'.services) [.move 0 .start, .move 0 (.proceed 0)] = y ∧
    LaunchesAt y "solo" (sameTask 1) (.move 0 (.proceed 0)) ∧
    (sameTask 1).batch.taskIds.Nodup ∧ y.1.IsNew "solo" (sameTask 1) ∧
    accumulated 0 (happen y (.move 0 (.proceed 0))) (sameTask 1).handler.results
        (taskEnds 0 ++ taskRunsAgain) ≠
      (x.1.record.results "solo").filter (·.task ∈ (sameTask 1).batch.taskIds) := by
  have created : World.empty.create (.solo launchesSame) 0 = (.ok _, _) := rfl
  refine ⟨_, _, _, _, created, ?fair, ?saved, rfl, rfl, ?launches, ?distinct, ?new, ?differ⟩
  case fair =>
    simp [taskRuns, taskRunsAgain, taskEnds, Event.FromListener, Event.SparesRecord]
  case saved => exact allSaved_append.2 ⟨taskRuns_saved created, taskRunsAgain_saved created⟩
  case launches => exact ⟨rfl, _, rfl, Nat.le_refl 0, rfl, rfl, rfl, rfl⟩
  case distinct => simp [sameTask, Batch.taskIds]
  case new => exact fun _ _ => List.not_mem_nil
  case differ =>
    change [(TaskResult.success (.ofNat 7)).withMessage "first"] ≠
      [(TaskResult.success (.ofNat 7)).withMessage "later"]
    simp [TaskResult.withMessage]

end Driver

end Workflow
