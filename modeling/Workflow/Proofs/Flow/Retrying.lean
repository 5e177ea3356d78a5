import Workflow.Proofs.Flow.Deadline
import Workflow.Proofs.Flow.Durability

/-!
# Workflow.Proofs.Flow.Retrying — which failed starts and resumes can be made again

A start or a resume that may enter its flow ends in one of three ways (`MayEnter.ends`): it is
refused the lease and nothing has changed, its save fails after the driver has entered the flow, or
it drives the flow.  After the first it is made again and drives the flow as soon as the services
answer; after the second it is turned away until the flow is paused (`retried_iff_refused`).
-/

namespace Workflow

namespace Driver

/-! ### Entering a flow -/

/-- The calls that set a flow going. -/
inductive Entry where
  | start
  | resume

/-- The move of such a call. -/
def Entry.move : Entry → Move
  | start => .start
  | resume => .resume

/-- Such a call. -/
def enter (x : Driver × Services) (now : Nat) : Entry → Except FlowError Unit × Driver × Services
  | .start => x.1.start x.2 now
  | .resume => x.1.resume x.2 now

/-- Nothing but a lease and a save stands between a call and the flow, which it enters with this
record: the flow was created and has not started, or its stored record can be resumed. -/
inductive MayEnter (x : Driver × Services) : Entry → Record → Prop
  | start (created : x.1.record.state = .created) :
    MayEnter x .start (x.1.record.start x.1.definition.firstStep)
  | resume {stored : Record} (unleased : x.1.lease = none) (inactive : x.1.active = none)
    (works : x.2.finding.call.1 = false) (found : x.2.store.find? x.1.flow = some stored)
    (free : resumeFault? x.1.flow stored = none) : MayEnter x .resume (x.1.resumedRecord stored)

/-- The driver has entered the flow with a record: it has a lease, the flow is known to run, and
the deadline is set anew. -/
structure HasEntered (d : Driver) (r : Record) (now : Nat) (d' : Driver) : Prop where
  record : d'.record = r.touch (.ofVirtualMs now)
  running : d'.record.state = .running
  published : d'.published = .running
  leased : d'.lease ≠ none
  watchdog : d'.watchdog = (d.armWatchdog now).watchdog
  requests : d'.requests = d.requests
  flow : d'.flow = d.flow

/-- How a call ends that may enter the flow. -/
inductive EntryEnds (x : Driver × Services) (r : Record) (now : Nat) :
    Except FlowError Unit × Driver × Services → Prop
  /-- No lease is to be had, and nothing has changed. -/
  | refused {e : LockError} {s : Services} (unleased : x.1.lease = none)
    (out : x.2.acquiring.call.1 = true ∨ x.2.locks.isHeld x.1.flow = true)
    (store : s.store = x.2.store) : EntryEnds x r now (.error (.lock e), x.1, s)
  /-- The driver has entered the flow, and the store does not know. -/
  | unsaved {e : StoreError} {d : Driver} {s : Services} (entered : HasEntered x.1 r now d)
    (out : x.2.saving.call.1 = true) (store : s.store = x.2.store) :
    EntryEnds x r now (.error (.store e), d, s)
  /-- The flow is driven from here on. -/
  | driven {d : Driver} {s : Services} (entered : HasEntered x.1 r now d)
    (stored : s.store.find? d.record.flow = some d.record) : EntryEnds x r now (.ok (), d, s)

/-- The last part of every entry: the record of the driver that has entered is saved. -/
theorem HasEntered.ends {x : Driver × Services} {r : Record} {now : Nat} {d : Driver}
    {s : Services} (side : storeSide s = storeSide x.2)
    (entered : HasEntered x.1 r now (d.persist s now).2.1) :
    EntryEnds x r now (d.persist s now) := by
  obtain ⟨store, saving⟩ := Prod.mk.inj side
  have outcome : d.persist s now = ((s.save (d.record.touch (.ofVirtualMs now))).1.mapError .store,
      (d.persist s now).2.1, (s.save (d.record.touch (.ofVirtualMs now))).2) := rfl
  rw [outcome]
  unfold Services.save
  simp only
  cases fails : s.saving.call.1 with
  | true => exact .unsaved entered (saving ▸ fails) store
  | false => exact .driven entered (find?_save s.store _)

/-- A lease is refused only while the lock service is out or the flow is taken. -/
theorem acquire_error {s s' : Services} {flow : FlowId} {e : LockError}
    (h : s.acquire flow = (.error e, s')) :
    s.acquiring.call.1 = true ∨ s.locks.isHeld flow = true := by
  cases out : s.acquiring.call.1 with
  | true => exact .inl rfl
  | false =>
    cases taken : s.locks.isHeld flow with
    | true => exact .inr rfl
    | false =>
      obtain ⟨lease, s'', got⟩ := acquire_ok_iff.2 ⟨out, taken⟩
      rw [h] at got
      cases got

/-- **How a start or a resume ends that may enter its flow.** -/
theorem MayEnter.ends {x : Driver × Services} {c : Entry} {r : Record} (h : MayEnter x c r)
    (now : Nat) : EntryEnds x r now (enter x now c) := by
  cases h with
  | start created =>
    refine start_rule (motive := EntryEnds x _ now) x.1 x.2 now
      (fun other => absurd created other) ?_ ?_
    · intro e s' _ unleased got
      exact .refused unleased (acquire_error got) (congrArg Prod.fst (acquire_storeSide got))
    · intro lease s' _ leased
      exact HasEntered.ends leased.storeSide
        ⟨rfl, rfl, rfl, Option.some_ne_none lease, rfl, rfl, rfl⟩
  | @resume stored unleased inactive works found free =>
    have got := find_of_works works x.1.flow
    rw [found] at got
    unfold enter Driver.resume resumeFound acquireLease
    simp only [unleased, inactive, got, free, Option.isSome_none, Bool.or_self, Bool.false_eq_true,
      if_false]
    rcases leased : { x.2 with finding := x.2.finding.call.2 }.acquire x.1.flow with ⟨_ | lease, s'⟩
    · have out := acquire_error leased
      have side := acquire_storeSide leased
      simp only [leased]
      exact .refused unleased out (congrArg Prod.fst side)
    · have side := acquire_storeSide leased
      simp only [leased]
      exact HasEntered.ends side ⟨rfl, rfl, rfl, Option.some_ne_none lease, rfl, rfl, rfl⟩

/-! ### Making a call again -/

/-- The store and the lock service answer, and nobody has the lease of the flow. -/
structure Answer (s : Services) (flow : FlowId) : Prop where
  finding : s.finding.call.1 = false
  acquiring : s.acquiring.call.1 = false
  free : s.locks.isHeld flow = false
  saving : s.saving.call.1 = false

/-- The call enters the flow with a record, the record is stored, and the call goes on to run
steps. -/
def SetsGoing (x : Driver × Services) (now : Nat) (c : Entry) (r : Record) : Prop :=
  ∃ d s, enter x now c = (.ok (), d, s) ∧ HasEntered x.1 r now d ∧
    s.store.find? d.record.flow = some d.record ∧
    (happen x (.move now c.move)).1.requests = x.1.requests ++ [.ready]

section MayEnter

variable {x : Driver × Services} {c : Entry} {r : Record}

/-- What may be entered may be entered later, as long as the same record is stored. -/
theorem MayEnter.later (h : MayEnter x c r) {s : Services} (works : s.finding.call.1 = false)
    (same : s.store.find? x.1.flow = x.2.store.find? x.1.flow) : MayEnter (x.1, s) c r := by
  cases h with
  | start created => exact .start created
  | resume unleased inactive _ found free =>
    exact .resume unleased inactive works (same.trans found) free

theorem happen_entry (x : Driver × Services) (now : Nat) (c : Entry) :
    happen x (.move now c.move) = requesting (enter x now c) := by
  cases c <;> rfl

/-- **Once the services answer, the flow is driven.** -/
theorem MayEnter.drives (h : MayEnter x c r) (answer : Answer x.2 x.1.flow) (now : Nat) :
    SetsGoing x now c r := by
  have ends := h.ends now
  generalize hout : enter x now c = out at ends
  cases ends with
  | refused _ out _ =>
    rcases out with out | taken
    · exact absurd (answer.acquiring.symm.trans out) Bool.false_ne_true
    · exact absurd (answer.free.symm.trans taken) Bool.false_ne_true
  | unsaved _ out _ => exact absurd (answer.saving.symm.trans out) Bool.false_ne_true
  | @driven d s entered stored =>
    refine ⟨d, s, hout, entered, stored, ?_⟩
    rw [happen_entry, hout]
    show d.requests ++ [.ready] = _
    rw [entered.requests]

end MayEnter

/-! ### After a save that failed -/

/-- What is wrong with a call to a flow that runs already. -/
def Entry.fault (flow : FlowId) : Entry → StateFault
  | start => .notCreated flow .running
  | resume => .alreadyRunning flow

section HasEntered

variable {d d' : Driver} {r : Record} {now : Nat} (h : HasEntered d r now d')
include h

/-- A flow that was entered cannot be entered again, whatever the services answer. -/
theorem HasEntered.turnedAway (s : Services) (now' : Nat) (c : Entry) :
    (enter (d', s) now' c).1 = .error (.invalidState (c.fault d.flow)) := by
  cases c with
  | start =>
    unfold enter Driver.start
    rw [if_pos (by simp [h.running]), h.running, h.flow]
    rfl
  | resume =>
    rw [← h.flow]
    exact (resume_alreadyRunning_iff d' s now').2 (.inl h.leased)

/-- A pause takes it out of the flow: lease and deadline are gone, and once the paused record is
stored the flow may be resumed. -/
theorem HasEntered.pauses (s : Services) (now' : Nat) :
    (d'.pause s now').2.1.record = r.pause.touch (.ofVirtualMs now') ∧
    (d'.pause s now').2.1.published = .paused ∧
    (d'.pause s now').2.1.lease = none ∧ (d'.pause s now').2.1.watchdog = none ∧
    ∀ s', s'.finding.call.1 = false →
      s'.store.find? d.flow = some (d'.pause s now').2.1.record →
      MayEnter ((d'.pause s now').2.1, s') .resume
        ((d'.pause s now').2.1.resumedRecord (d'.pause s now').2.1.record) := by
  refine pause_rule (motive := fun p => p.2.1.record = r.pause.touch (.ofVirtualMs now') ∧
    p.2.1.published = .paused ∧ p.2.1.lease = none ∧ p.2.1.watchdog = none ∧
    ∀ s', s'.finding.call.1 = false → s'.store.find? d.flow = some p.2.1.record →
      MayEnter (p.2.1, s') .resume (p.2.1.resumedRecord p.2.1.record)) d' s now' ?_ ?_ ?_
  · intro paused
    rw [h.running] at paused
    cases paused
  · exact fun other => absurd h.running other
  · intro _
    rw [settle_driver, persist_driver]
    refine ⟨?_, ?_, rfl, rfl, fun s' works found => ?_⟩
    · simp only [stopped_record, h.record]
      rfl
    · simp
    · -- a paused flow may be resumed with the record that it was stopped with
      refine .resume rfl (stopped_active d' .pause) works ?_ ?_
      · exact (congrArg s'.store.find? ((stopped_flow d' .pause).trans h.flow)).trans found
      · simp [resumeFault?, stopped_record, Record.pause, Record.touch]

end HasEntered

/-! ### No deadline before the start -/

/-- A flow that has not started has no deadline, and its state is known. -/
structure Unarmed (d : Driver) : Prop where
  known : d.published = d.record.state
  watchdog : d.record.state = .created → d.watchdog = none

/-- What an event saves is the record of a flow that has started, unless that has not started
before either. -/
theorem created_of_yields {x : Driver × Services} {e : Event} {r : Record} (h : Yields x e r)
    (created : r.state = .created) : x.1.record.state = .created := by
  unfold Yields at h
  split at h
  · exact h.1
  · obtain ⟨stored, -, -, -, -, rfl⟩ := h
    cases created
  · exact (View.admits_of_revised (v := view x) h).created created

theorem Unarmed.happen {x : Driver × Services} (h : Unarmed x.1) (e : Event) :
    Unarmed (Driver.happen x e).1 := by
  rcases e.own_or_outside with own | ⟨change, rfl⟩
  · have writes := happen_writes h.known own
    obtain ⟨known, before⟩ : (Driver.happen x e).1.published = (Driver.happen x e).1.record.state ∧
        ((Driver.happen x e).1.record.state = .created → x.1.record.state = .created) := by
      generalize hv : view (Driver.happen x e) = v' at writes
      have record : (Driver.happen x e).1.record = v'.record := congrArg View.record hv
      have published : (Driver.happen x e).1.published = v'.published :=
        congrArg View.published hv
      rw [record, published]
      cases writes with
      | leaves => exact ⟨h.known, id⟩
      | saves hr => exact ⟨rfl, created_of_yields hr⟩
    refine ⟨known, fun created => ?_⟩
    have outside : entersAt? x e = none := by
      cases enters : entersAt? x e with
      | none => rfl
      | some now =>
        have running := (entersAt?_entered enters).running
        rw [created] at running
        cases running
    cases happen_guarded outside with
    | left same => exact same.trans (h.watchdog (before created))
    | dropped none_ => exact none_
  · exact h

theorem Unarmed.run {x : Driver × Services} (h : Unarmed x.1) (es : List Event) :
    Unarmed (Driver.run x es).1 := by
  induction es generalizing x with
  | nil => exact h
  | cons e es ih => exact ih (h.happen e)

/-! ### Failed starts and resumes -/

/-- **A failed start or resume can be made again just if it was refused the lease.**  A flow was
created, and anything at all has happened to its driver, to the store and to the locks.  A start or
a resume that may enter the flow fails.  Then it was refused the lease, or its save has failed; what
is stored is the same as before, and

* the driver is as it was just if the call was refused the lease;
* in this case it has no lease, nor a deadline before the first start, and as soon as the services
  answer and the same record is stored, the same call enters the flow and goes on to run steps;
* if the save has failed, the driver has entered the flow nevertheless: it has the lease, the flow
  counts as running, and its deadline is set.  A start as well as a resume is turned away now,
  whatever the services answer.  Once the flow is paused the lease and the deadline are gone, and it
  may be resumed as soon as the paused record is stored. -/
theorem retried_iff_refused {w w' : World} {definition : Definition} {source : Nat} {d : Driver}
    (created : w.create definition source = (.ok d, w')) (es : List Event)
    (x : Driver × Services) (hx : run (d, w'.services) es = x) {c : Entry} {r : Record}
    (may : MayEnter x c r) {now : Nat} {e : FlowError} {y : Driver × Services}
    (failed : enter x now c = (.error e, y)) :
    ((∃ refusal, e = .lock refusal) ∨ ∃ fault, e = .store fault) ∧ y.2.store = x.2.store ∧
    (y.1 = x.1 ↔ ∃ refusal, e = .lock refusal) ∧
    ((∃ refusal, e = .lock refusal) →
      y.1.lease = none ∧ (c = .start → y.1.watchdog = none) ∧
      ∀ s now', Answer s x.1.flow → s.store.find? x.1.flow = x.2.store.find? x.1.flow →
        SetsGoing (y.1, s) now' c r) ∧
    ((∃ fault, e = .store fault) →
      HasEntered x.1 r now y.1 ∧
      (∀ s now' c', (enter (y.1, s) now' c').1 = .error (.invalidState (c'.fault x.1.flow))) ∧
      ∀ s now', (y.1.pause s now').2.1.record = r.pause.touch (.ofVirtualMs now') ∧
        (y.1.pause s now').2.1.published = .paused ∧
        (y.1.pause s now').2.1.lease = none ∧ (y.1.pause s now').2.1.watchdog = none ∧
        ∀ s', s'.finding.call.1 = false →
          s'.store.find? x.1.flow = some (y.1.pause s now').2.1.record →
          MayEnter ((y.1.pause s now').2.1, s') .resume
            ((y.1.pause s now').2.1.resumedRecord (y.1.pause s now').2.1.record)) := by
  have unarmed : Unarmed x.1 := by
    obtain ⟨flow, hd⟩ := World.create_driver created
    rw [← hx]
    exact Unarmed.run (x := (d, w'.services)) (hd ▸ ⟨rfl, fun _ => rfl⟩) es
  have ends := may.ends now
  rw [failed] at ends
  cases ends with
  | @refused refusal _ unleased _ store =>
    -- the driver is as it was, and the call may be made again
    refine ⟨.inl ⟨refusal, rfl⟩, store, ⟨fun _ => ⟨refusal, rfl⟩, fun _ => rfl⟩,
      fun _ => ⟨unleased, ?_, ?_⟩, fun ⟨fault, h⟩ => ?_⟩
    · rintro rfl
      cases may with
      | start created => exact unarmed.watchdog created
    · intro s now' answer same
      exact (may.later answer.finding same).drives answer now'
    · cases h
  | @unsaved fault d' s' entered _ store =>
    -- the record has entered already, and the driver keeps the lease
    have changed : d' ≠ x.1 := by
      rintro rfl
      cases may with
      | start created => exact absurd (created.symm.trans entered.running) (by decide)
      | resume unleased => exact entered.leased unleased
    refine ⟨.inr ⟨fault, rfl⟩, store, ⟨fun same => absurd same changed, fun ⟨_, h⟩ => ?_⟩,
      fun ⟨_, h⟩ => ?_, fun _ => ⟨entered, entered.turnedAway, entered.pauses⟩⟩
    · cases h
    · cases h

/-- The lock service is out for one call, the start of a new flow.  The same start sets the flow
going afterwards. -/
theorem retried_iff_refused_lease : ∃ d w' x y,
    World.empty.create (.solo completesFlow) 0 = (.ok d, w') ∧
    run (d, w'.services) [.outside fun s => { s with acquiring := s.acquiring.failNext 1 }] = x ∧
    MayEnter x .start (d.record.start "solo") ∧
    enter x 0 .start = (.error (.lock Services.noQuorum), y) ∧ y.1 = x.1 ∧ y.1.lease = none ∧
    SetsGoing y 1 .start (d.record.start "solo") := by
  have created : World.empty.create (.solo completesFlow) 0 = (.ok _, _) := rfl
  obtain ⟨-, -, as_before, again, -⟩ := retried_iff_refused created
    [.outside fun s => { s with acquiring := s.acquiring.failNext 1 }] _ rfl
    (MayEnter.start rfl) (rfl : enter _ 0 .start = (.error (.lock Services.noQuorum), _))
  obtain ⟨unleased, -, sets⟩ := again ⟨_, rfl⟩
  exact ⟨_, _, _, _, created, rfl, .start rfl, rfl, as_before.2 ⟨_, rfl⟩, unleased,
    sets _ 1 ⟨rfl, rfl, rfl, rfl⟩ rfl⟩

/-- The first save of a start fails, and no other call does.  The flow counts as running with a
lease held, and neither the same start nor a resume is let in. -/
theorem start_unsaved_turned_away : ∃ d w' y,
    (World.ofPlan (· = 2)).create (.solo completesFlow) 0 = (.ok d, w') ∧
    d.record.state = .created ∧
    enter (d, w'.services) 0 .start = (.error (.store Services.connectionReset), y) ∧
    y.1.record.state = .running ∧ y.1.published = .running ∧ y.1.lease ≠ none ∧
    y.2.locks.isHeld d.flow ∧ y.2.saving.call.1 = false ∧ y.2.acquiring.call.1 = false ∧
    (enter y 1 .start).1 = .error (.invalidState (.notCreated d.flow .running)) ∧
    (enter y 1 .resume).1 = .error (.invalidState (.alreadyRunning d.flow)) :=
  ⟨_, _, _, rfl, rfl, rfl, rfl, rfl, Option.some_ne_none _, rfl, rfl, rfl, rfl, rfl⟩

end Driver

end Workflow
