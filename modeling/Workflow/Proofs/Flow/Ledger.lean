import Workflow.Proofs.Flow.FinalResult
import Workflow.Proofs.Flow.SharedStore

/-!
# Workflow.Proofs.Flow.Ledger — what an event does to tasks, their results and their listeners

The ledger of a driver has what its record says of tasks, step by step, and the activations that
make it say so.  An event does one of few things to it: it leaves it as it is, lets one crew or one
listener go a step further, launches tasks, or takes the next update of a listener, which is noted
if the listener's activation is that of the current epoch, and dropped otherwise (`happen_effect`).
-/

namespace Workflow

namespace Activation

/-- The activation, whether or not its crew was sent home or its decision was told. -/
def bare (a : Activation) : Activation := { a with aborted := false, told := false }

theorem bare_tell {a : Activation} (h : a.failure = none) : a.tell.bare = a.bare := by
  simp [tell, bare, h]

/-- The crew works, or the listener hears the next event. -/
inductive Advances (a : Activation) : Activation → Prop
  | works {now : Nat} {polls : PollCounts} {s : TimedCrew.Stepped}
    (h : a.crew.step? now polls = some s) :
    Advances a { a with crew := s.crew, inbox := a.inbox ++ s.events }
  | hears {event : TaskEvent} {inbox : List TaskEvent} (updates : a.updates = [])
    (undecided : a.listener.decision = none) (next : a.inbox = event :: inbox) :
    Advances a { a with
      listener := (a.listener.hear event).1
      inbox := inbox
      updates := (a.listener.hear event).2 }

theorem work?_advances {a a' : Activation} {now : Nat} {polls polls' : PollCounts}
    {trace : List TraceEntry} (h : a.work? now polls = some (a', polls', trace)) :
    a.bare.Advances a'.bare := by
  unfold work? at h
  split at h
  · cases h
  · obtain ⟨s, hs, heq⟩ := Option.map_eq_some_iff.1 h
    cases heq
    exact .works hs

theorem hear?_advances {a a' : Activation} (h : a.hear? = some a') : a.bare.Advances a'.bare := by
  unfold hear? at h
  split at h
  · rename_i updates undecided next
    cases h
    exact .hears updates undecided next
  · cases h

theorem Advances.stamp {a a' : Activation} (h : a.Advances a') :
    a'.step = a.step ∧ a'.epoch = a.epoch ∧ a'.failure = a.failure := by
  cases h <;> exact ⟨rfl, rfl, rfl⟩

end Activation

/-! ### Ledgers -/

/-- What is known of tasks and their results per step, and every activation. -/
@[ext] structure Ledger where
  tasks : String → List TaskId
  results : String → List TaskResult
  activations : List Activation

namespace Ledger

/-- An update about a step is noted. -/
def note (l : Ledger) (step : String) : StepUpdate → Ledger
  | .taskCreated task => { l with
      tasks := fun s =>
        if s = step && !(l.tasks s).contains task then l.tasks s ++ [task] else l.tasks s }
  | .taskResult r _ => { l with
      results := fun s => if s = step then r.store (l.results s) else l.results s }
  | .log _ _ => l

/-- One activation is in a new state. -/
def set (l : Ledger) (i : Nat) (a : Activation) : Ledger :=
  { l with activations := l.activations.set i a }

/-- One more activation. -/
def add (l : Ledger) (a : Activation) : Ledger := { l with activations := l.activations ++ [a] }

theorem note_activations (l : Ledger) (step : String) (update : StepUpdate) :
    (l.note step update).activations = l.activations := by
  cases update <;> rfl

end Ledger

namespace Record

/-- What the record says of tasks and their results. -/
def books (r : Record) : (String → List TaskId) × (String → List TaskResult) :=
  (r.tasks, r.results)

@[simp] theorem start_books (r : Record) (first : String) : (r.start first).books = r.books := rfl

@[simp] theorem advanceTo_books (r : Record) (step : String) :
    (r.advanceTo step).books = r.books := rfl

@[simp] theorem pause_books (r : Record) : r.pause.books = r.books := rfl

@[simp] theorem complete_books (r : Record) (result : FlowResult) :
    (r.complete result).books = r.books := rfl

@[simp] theorem setResult_books (r : Record) (result : FlowResult) :
    (r.setResult result).books = r.books := rfl

@[simp] theorem recordError_books (r : Record) (step message : String) (cause : Option String) :
    (r.recordError step message cause).books = r.books := rfl

@[simp] theorem touch_books (r : Record) (now : Instant) : (r.touch now).books = r.books := rfl

@[simp] theorem markCompleted_books (r : Record) (step : String) :
    (r.markCompleted step).books = r.books := by
  unfold markCompleted
  split <;> rfl

@[simp] theorem appendLog_books (r : Record) (step : String) (task : Option TaskId)
    (entries : List LogEntry) (now : Instant) :
    (r.appendLog step task entries now).books = r.books := by
  unfold appendLog
  split <;> rfl

theorem tasks_recordTask (r : Record) (step : String) (task : TaskId) (s : String) :
    (r.recordTask step task).tasks s =
      if s = step && !(r.tasks s).contains task then r.tasks s ++ [task] else r.tasks s := by
  by_cases h : s = step
  · subst h
    by_cases known : task ∈ r.tasks s <;> simp [recordTask, tasks] at known ⊢ <;> simp [known]
  · simp [recordTask, tasks, Table.get?_put_of_ne _ _ h, h]

theorem results_saveResult (r : Record) (step : String) (result : TaskResult) (s : String) :
    (r.saveResult step result).results s =
      if s = step then result.store (r.results s) else r.results s := by
  by_cases h : s = step
  · subst h
    simp [saveResult, results]
  · simp [saveResult, results, Table.get?_put_of_ne _ _ h, h]

end Record

namespace Driver

def ledger (d : Driver) : Ledger :=
  ⟨d.record.tasks, d.record.results, d.activations.map Activation.bare⟩

theorem ledger_congr {d d' : Driver} (books : d'.record.books = d.record.books)
    (activations : d'.activations.map Activation.bare = d.activations.map Activation.bare) :
    d'.ledger = d.ledger := by
  obtain ⟨tasks, results⟩ := Prod.mk.inj books
  exact Ledger.ext tasks results activations

section Blocks

variable {d : Driver}

theorem onActivation_ledger {i : Nat} {a : Activation} {change : Activation → Activation}
    (ha : d.activations[i]? = some a) :
    (d.onActivation i change).ledger = d.ledger.set i (change a).bare := by
  have hset : (d.activations.modify i change).map Activation.bare =
      (d.activations.map Activation.bare).set i (change a).bare := by
    obtain ⟨hlt, heq⟩ := List.getElem?_eq_some_iff.1 ha
    refine List.ext_getElem? fun j => ?_
    by_cases hij : i = j
    · subst hij
      simp [hlt, heq]
    · simp [hij]
  simp only [ledger, onActivation, Ledger.set, hset]

/-- A change of an activation that the ledger does not show. -/
theorem onActivation_ledger_same {i : Nat} {change : Activation → Activation}
    (same : ∀ a, d.activations[i]? = some a → (change a).bare = a.bare) :
    (d.onActivation i change).ledger = d.ledger := by
  cases ha : d.activations[i]? with
  | none =>
    have beyond := List.getElem?_eq_none_iff.1 ha
    simp only [ledger, onActivation, List.modify_eq_self beyond]
  | some a =>
    obtain ⟨hlt, heq⟩ := List.getElem?_eq_some_iff.1 ha
    rw [onActivation_ledger ha, same a ha]
    have here : (d.activations.map Activation.bare).set i a.bare =
        d.activations.map Activation.bare := by
      rw [← heq, ← List.getElem_map Activation.bare (h := by simpa using hlt)]
      exact List.set_getElem_self _
    simp only [Ledger.set, ledger, here]

theorem abortActive_ledger (d : Driver) : d.abortActive.ledger = d.ledger := by
  unfold abortActive
  split
  · rename_i i _
    have aborted : (d.onActivation i .abort).ledger = d.ledger :=
      onActivation_ledger_same fun _ _ => rfl
    exact aborted
  · rfl

theorem logStep_books (d : Driver) (now : Instant) (step : String) (entries : List LogEntry) :
    (d.logStep now step entries).record.books = d.record.books := by
  rw [logStep_eq]
  simp only [onRecord]
  split <;> simp

theorem logStep_ledger (d : Driver) (now : Instant) (step : String) (entries : List LogEntry) :
    (d.logStep now step entries).ledger = d.ledger :=
  ledger_congr (logStep_books ..) (by rw [logStep_eq]; rfl)

theorem launch_ledger (d : Driver) (now : Nat) (step : String) (l : StepLaunch) :
    (d.launch now step l).ledger = d.ledger.add (.start step (d.epoch + 1) now l) := by
  obtain ⟨tasks, results⟩ := Prod.mk.inj (logStep_books d.nextEpoch (.ofVirtualMs now) step
    [⟨"launched " ++ toString l.batch.size ++ " task(s)", none⟩])
  refine Ledger.ext tasks results ?_
  simp only [ledger, launch_activations, List.map_append]
  rfl

theorem edgeRecord_books (d : Driver) (now : Instant) (step : String) (t : Transition) :
    (d.edgeRecord now step t).books = d.record.books := by
  have logged : (if d.keepsLog step then d.record.appendLog step none t.log now
      else d.record).books = d.record.books := by
    split <;> simp
  unfold edgeRecord
  cases t.target <;> cases t.result <;> by_cases hc : d.completes step <;> simpa [hc] using logged

theorem errorRecord_books (d : Driver) (now : Instant) (step : String) (e : FlowError) :
    (d.errorRecord now step e).books = d.record.books := by
  unfold errorRecord
  simp only [Record.setResult_books]
  split <;> simp

/-- No decision touches what is recorded of tasks. -/
theorem applyDecision_books (d : Driver) (now : Instant) (step : String) (decision : Decision) :
    (d.applyDecision now step decision).record.books = d.record.books := by
  have routed : ∀ e, (d.routeError now step e).record.books = d.record.books := by
    intro e
    rw [routeError_eq]
    split
    · exact errorRecord_books d now step e
    · split <;> exact errorRecord_books d now step e
  cases decision with
  | error e => exact routed e
  | ok t =>
    simp only [applyDecision, applyEdge]
    split
    · exact routed _
    · rw [takeEdge_eq]
      split <;> exact edgeRecord_books d now step t

theorem applyUpdate_ledger (d : Driver) (now : Instant) (step : String) (update : StepUpdate) :
    (d.applyUpdate now step update).ledger = d.ledger.note step update := by
  have logged : ∀ (task : Option TaskId) (entries : List LogEntry) (r : Record),
      (if d.keepsLog step then r.appendLog step task entries now else r).books = r.books := by
    intro task entries r
    split <;> simp
  cases update with
  | taskCreated task => exact Ledger.ext (funext (d.record.tasks_recordTask step task)) rfl rfl
  | taskResult r entries =>
    have saved : (d.onRecord (·.saveResult step r)).ledger =
        d.ledger.note step (.taskResult r entries) :=
      Ledger.ext rfl (funext (d.record.results_saveResult step r)) rfl
    rw [← saved]
    exact ledger_congr (logged (some r.task) entries (d.record.saveResult step r)) rfl
  | log task entries => exact ledger_congr (logged task entries d.record) rfl

end Blocks

/-! ### The effect of an event -/

/-- A step answers in the current epoch with no edge, and launches tasks. -/
def LaunchesAt (x : Driver × Services) (step : String) (l : StepLaunch) : Event → Prop
  | .move now (.proceed i) => x.1.isRunning ∧ ∃ e, x.1.requests[i]? = some (.executing e) ∧
    e.due ≤ now ∧ e.epoch = x.1.epoch ∧ e.step = step ∧
    (e.answer x.2.ids.tasks).1.Waits (some l)
  | _ => False

/-- The event is no update out of the blue. -/
def Event.FromListener : Event → Prop
  | .update .. => False
  | _ => True

/-- The results that the handler of an activation has, if the event applies an update of its
listener while the activation is that of the current epoch. -/
def applied? (x : Driver × Services) (i : Nat) : Event → Option (List TaskResult)
  | .move _ (.save j) =>
    if j = i then
      x.1.activations[i]?.bind fun a =>
        if a.epoch = x.1.epoch && a.failure.isNone && !a.updates.isEmpty then
          some a.listener.handler.results
        else none
    else none
  | _ => none

/-- What an event may do to the ledger. -/
inductive Effect (x : Driver × Services) (e : Event) : Ledger → Prop
  | keeps (quiet : ∀ j, applied? x j e = none) : Effect x e x.1.ledger
  | advances (quiet : ∀ j, applied? x j e = none) {i : Nat} {a a' : Activation}
    (ha : x.1.ledger.activations[i]? = some a) (h : a.Advances a') :
    Effect x e (x.1.ledger.set i a')
  | launches (quiet : ∀ j, applied? x j e = none) {step : String} {l : StepLaunch} {now : Nat}
    (h : LaunchesAt x step l e) :
    Effect x e (x.1.ledger.add (.start step (x.1.epoch + 1) now l))
  | saves {i : Nat} {a : Activation} {update : StepUpdate} {rest : List StepUpdate}
    (applied : ∀ j, applied? x j e = if i = j then some a.listener.handler.results else none)
    (ha : x.1.ledger.activations[i]? = some a) (updates : a.updates = update :: rest)
    (live : a.epoch = x.1.epoch) :
    Effect x e ((x.1.ledger.note a.step update).set i { a with updates := rest })
  | drops (quiet : ∀ j, applied? x j e = none) {i : Nat} {a : Activation} {update : StepUpdate}
    {rest : List StepUpdate} (ha : x.1.ledger.activations[i]? = some a)
    (updates : a.updates = update :: rest) (stale : a.epoch ≠ x.1.epoch) :
    Effect x e (x.1.ledger.set i { a with updates := rest })

theorem Effect.same {x : Driver × Services} {e : Event} (quiet : ∀ j, applied? x j e = none)
    {d : Driver} (h : d.ledger = x.1.ledger) : Effect x e d.ledger := h ▸ .keeps quiet

/-- No event finds an update of an activation that could not be saved. -/
def Unfailed (d : Driver) : Prop := ∀ a ∈ d.ledger.activations, a.failure = none

theorem Unfailed.at {d : Driver} (h : d.Unfailed) {i : Nat} {a : Activation}
    (ha : d.activations[i]? = some a) : a.failure = none :=
  h a.bare (List.mem_map_of_mem (List.mem_of_getElem? ha))

section Sections

variable (d : Driver) (s : Services) (now : Nat)

theorem releaseLease_ledger : (d.releaseLease s).1.ledger = d.ledger := by
  rw [releaseLease_driver]
  rfl

theorem persist_ledger : (d.persist s now).2.1.ledger = d.ledger := by
  rw [persist_driver]
  exact ledger_congr (Record.touch_books ..) rfl

theorem carryOn_ledger : (d.carryOn s now).2.1.ledger = d.ledger :=
  ledger_congr ((congrArg Record.books (carryOn_record ..)).trans (Record.touch_books ..))
    (by rw [carryOn_activations])

/-- A decision in a running flow, with what is saved of it. -/
theorem decided_ledger (running : d.record.state = .running) (step : String)
    (decision : Decision) :
    ((d.applyDecision (.ofVirtualMs now) step decision).carryOn s now).2.1.ledger = d.ledger := by
  rw [carryOn_ledger]
  exact ledger_congr (applyDecision_books ..)
    (by rw [(applyDecision_routed _ step decision running).activations])

theorem retired_ledger : d.retired.ledger = d.ledger := abortActive_ledger d.nextEpoch

theorem stopped_ledger {change : Record → Record} (books : ∀ r, (change r).books = r.books) :
    (d.stopped change).ledger = d.ledger := by
  rw [← retired_ledger d]
  exact ledger_congr (books d.retired.record) rfl

theorem decide_ledger (epoch : Nat) (step : String) (decision : Decision) :
    (d.decide s now epoch step decision).1.ledger = d.ledger := by
  refine decide_rule (motive := fun r => r.1.ledger = d.ledger) d s now epoch step decision
    (fun _ => rfl) (fun _ _ _ _ _ _ => retired_ledger d) ?_
  rintro lease s' d' _ running _ rfl
  have running' : { d.retired with lease := some lease }.record.state = .running :=
    (congrArg Record.state (retired_record d)).trans running
  exact (decided_ledger { d.retired with lease := some lease } s' now running' step decision).trans
    (retired_ledger d)

theorem resume_ledger (stored : s.store.find? d.flow = some d.record) :
    (d.resume s now).2.1.ledger = d.ledger := by
  refine resume_rule (motive := fun r => r.2.1.ledger = d.ledger) d s now
    (fun _ => rfl) (fun _ _ _ _ => rfl) (fun _ _ _ _ _ => rfl) ?_
  intro stored' lease s' _ _ found _ _
  obtain rfl : stored' = d.record := Option.some.inj ((find_ok found).symm.trans stored)
  rfl

/-- A launch after some log lines, with what is saved of it. -/
theorem launched_ledger (step : String) (log : List LogEntry) (l : StepLaunch) :
    (((d.logStep (.ofVirtualMs now) step log).launch now step l).persist s now).2.1.ledger =
      d.ledger.add (.start step (d.epoch + 1) now l) := by
  rw [persist_ledger, launch_ledger, logStep_ledger, logStep_eq]
  rfl

/-- A step that has answered: nothing happens to the ledger unless it launches. -/
theorem conclude_effect {i : Nat} {e : Execution} (executing : d.requests[i]? = some (.executing e))
    (due : e.due ≤ now) :
    Effect (d, s) (.move now (.proceed i)) (d.conclude s now e).2.1.ledger := by
  have quiet : ∀ j, applied? (d, s) j (.move now (.proceed i)) = none := fun _ => rfl
  refine conclude_rule (motive := fun r => Effect (d, s) (.move now (.proceed i)) r.2.1.ledger)
    d s now e ?dropped ?carried ?waits ?launches
  case dropped => exact fun _ _ _ => .keeps quiet
  case carried =>
    exact fun decision s' _ running _ _ =>
      .same quiet (decided_ledger d s' now running e.step decision)
  case waits =>
    rintro log s' d' _ _ _ _ rfl
    refine .same quiet ?_
    rw [releaseLease_ledger, persist_ledger, logStep_ledger]
  case launches =>
    rintro log l s' d' current running _ waits rfl
    rw [releaseLease_ledger, launched_ledger]
    exact .launches quiet
      ⟨by simp [isRunning, running], e, executing, due, current.symm, rfl, waits⟩

/-- A step that launches adds its activation to the ledger, in the next epoch. -/
theorem LaunchesAt.ledger {x : Driver × Services} {step : String} {l : StepLaunch} {e : Event}
    (h : LaunchesAt x step l e) :
    ∃ now, (happen x e).1.ledger = x.1.ledger.add (.start step (x.1.epoch + 1) now l) := by
  cases e with
  | move now move =>
    cases move with
    | proceed i =>
      obtain ⟨running, e, executing, due, current, rfl, waits⟩ := h
      refine ⟨now, ?_⟩
      simp only [happen, perform, proceed, executing, due, if_true]
      refine conclude_rule (motive := fun r => (r.2.1.setRequest i r.1).ledger =
        x.1.ledger.add (.start e.step (x.1.epoch + 1) now l)) x.1 x.2 now e
        ?dropped ?carried ?waits ?launches
      case dropped =>
        intro s' stale
        exact absurd stale (by simpa [isRunning, current] using running)
      case carried =>
        intro decision s' _ _ _ decides
        exact absurd (waits.1.symm.trans decides) (by simp)
      case waits =>
        intro log s' d' _ _ _ nothing
        exact absurd (waits.2.symm.trans nothing.2) (by simp)
      case launches =>
        rintro log l' s' d' _ _ _ waits' rfl
        obtain rfl : l = l' := Option.some.inj (waits.2.symm.trans waits'.2)
        exact (releaseLease_ledger ..).trans (launched_ledger x.1 s' now e.step log l)
    | _ => exact absurd h id
  | _ => exact absurd h id

variable {d s}

theorem applied?_save {i : Nat} {a : Activation} (ha : d.activations[i]? = some a) (j : Nat) :
    applied? (d, s) j (.move now (.save i)) =
      if i = j then
        if a.epoch = d.epoch && a.failure.isNone && !a.updates.isEmpty then
          some a.listener.handler.results
        else none
      else none := by
  by_cases h : i = j
  · subst h
    simp [applied?, ha]
  · simp [applied?, h]

/-- An update of the current epoch is noted, and saved if the store works. -/
theorem saveUpdate_live {epoch : Nat} (live : epoch = d.epoch) (works : s.saving.call.1 = false)
    (step : String) (update : StepUpdate) :
    (d.saveUpdate s now epoch step update).1 = .ok () ∧
      (d.saveUpdate s now epoch step update).2.1 =
        d.applyUpdate (.ofVirtualMs now) step update := by
  subst live
  have unfailing : (Except.ok () : Except StoreError Unit).mapError FlowError.store = .ok () := rfl
  simp [saveUpdate, Services.save, works, unfailing]

/-- The next update of a listener is noted, or comes too late. -/
theorem save_effect (unfailed : d.Unfailed) (i : Nat)
    (saved : ¬ FailsToSave (d, s) (.move now (.save i))) :
    Effect (d, s) (.move now (.save i)) (d.perform s now (.save i)).1.ledger := by
  have works := works_of_saved saved (by simp [Event.IsOwn])
  simp only [happen] at works
  simp only [perform] at works ⊢
  cases ha : d.activations[i]? with
  | none =>
    refine .keeps fun j => ?_
    by_cases h : i = j
    · subst h
      simp [applied?, ha]
    · simp [applied?, h]
  | some a =>
    have noted := unfailed.at ha
    have here : d.ledger.activations[i]? = some a.bare := by simp [ledger, ha]
    have applied := applied?_save (s := s) now ha
    cases hu : a.updates with
    | nil =>
      simp only [noted, hu]
      exact .keeps fun j => by simp [applied j, hu]
    | cons update rest =>
      simp only [ha, noted, hu] at works ⊢
      have taken : ({ a with updates := rest, failure := none } : Activation).bare =
          { a.bare with updates := rest } := by
        simp [Activation.bare, noted]
      by_cases live : a.epoch = d.epoch
      · -- an update of the epoch is noted, as its save works
        have counted : (d.saveUpdate s now a.epoch a.step update).2.2.saving =
            s.saving.call.2 := by
          rw [live, saveUpdate, if_neg (by simp)]
          exact save_saving ..
        obtain ⟨ok, noting⟩ := saveUpdate_live now live (works counted) a.step update
        have same : (d.applyUpdate (.ofVirtualMs now) a.step update).activations[i]? = some a := by
          obtain ⟨r, -, -, heq⟩ := applyUpdate_eq d (.ofVirtualMs now) a.step update
          rw [heq]
          exact ha
        simp only [ok, noting]
        rw [onActivation_ledger same, applyUpdate_ledger, taken]
        exact Effect.saves (x := (d, s)) (a := a.bare)
          (fun j => by simp [applied j, live, noted, hu, Activation.bare]) here hu live
      · -- an update of an earlier epoch is dropped
        rw [saveUpdate_stale (Ne.symm live), onActivation_ledger ha, taken]
        exact .drops (fun j => by simp [applied j, live]) here hu live

variable (d s)

theorem perform_effect (unfailed : d.Unfailed) (stored : s.store.find? d.flow = some d.record)
    (move : Move) (saved : ¬ FailsToSave (d, s) (.move now move)) :
    Effect (d, s) (.move now move) (d.perform s now move).1.ledger := by
  cases move with
  | start =>
    refine .same (fun _ => rfl) ?_
    refine start_rule (motive := fun r => (requesting r).1.ledger = d.ledger) d s now
      (fun _ => rfl) (fun _ _ _ _ _ => rfl) fun lease s' _ _ => ?_
    exact (persist_ledger _ s' now).trans (ledger_congr rfl rfl)
  | resume => exact .same (fun _ => rfl) (resume_ledger d s now stored)
  | pause =>
    refine .same (fun _ => rfl) ?_
    refine pause_rule (motive := fun r => (answering r).1.ledger = d.ledger) d s now
      (fun _ => rfl) (fun _ _ => rfl) fun _ => ?_
    rw [← stopped_ledger d Record.pause_books]
    simp only [answering, settle_driver, persist_driver]
    exact ledger_congr rfl rfl
  | moveTo step =>
    refine .same (fun _ => rfl) ?_
    exact moveTo_rule (motive := fun r => (answering r).1.ledger = d.ledger) d s now step
      (fun _ => rfl) fun _ _ => rfl
  | proceed i =>
    simp only [perform, proceed]
    split
    · exact .keeps fun _ => rfl
    · rename_i e executing
      split
      · rename_i due
        exact conclude_effect d s now executing due
      · exact .keeps fun _ => rfl
    · exact .keeps fun _ => rfl
  | work i =>
    refine work_rule d s now i (.keeps fun _ => rfl) fun a a' polls trace ha hw => ?_
    rw [onActivation_ledger ha]
    exact .advances (fun _ => rfl) (by simp [ledger, ha]) (Activation.work?_advances hw)
  | hear i =>
    refine hear_rule d s now i (.keeps fun _ => rfl) fun a a' ha hh => ?_
    rw [onActivation_ledger ha]
    exact .advances (fun _ => rfl) (by simp [ledger, ha]) (Activation.hear?_advances hh)
  | save i => exact save_effect now unfailed i saved
  | decide i =>
    refine tell_rule d s now i (.keeps fun _ => rfl) fun a decision _ _ => ?_
    refine .same (fun _ => rfl) ((decide_ledger (d.onActivation i .tell) s now ..).trans ?_)
    exact onActivation_ledger_same fun a ha => Activation.bare_tell (unfailed.at ha)
  | expire =>
    simp only [perform]
    split
    · refine .same (fun _ => rfl) ?_
      refine expire_rule (motive := fun r => r.1.ledger = d.ledger) d s now (fun _ => rfl) ?_
      rintro d' _ rfl
      rw [releaseLease_ledger, persist_ledger]
      exact stopped_ledger { d with watchdog := none } fun r => by simp
    · exact .keeps fun _ => rfl

omit now in
/-- **What an event does to the ledger.**  No save fails, and nothing comes out of the blue. -/
theorem happen_effect (unfailed : d.Unfailed) (stored : s.store.find? d.flow = some d.record)
    {e : Event} (listener : e.FromListener) (saved : ¬ FailsToSave (d, s) e) :
    Effect (d, s) e (happen (d, s) e).1.ledger := by
  cases e with
  | move now move => exact perform_effect d s now unfailed stored move saved
  | update => exact absurd listener id
  | decision now i decision =>
    simp only [happen]
    split
    · exact .same (fun _ => rfl) (decide_ledger d s now ..)
    · exact .keeps fun _ => rfl
  | outside change => exact .keeps fun _ => rfl

end Sections

end Driver

end Workflow
