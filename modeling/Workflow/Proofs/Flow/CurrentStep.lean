import Workflow.Proofs.Flow.Durability

/-!
# Workflow.Proofs.Flow.CurrentStep — a flow that has started is on a step

A definition is checked when it is built, and an edge is checked again when it is taken, since a
step may answer with any target.  Between the two the current step of a record either stays or goes
to a step of the definition (`Advances`); only a resume takes over what the store has.  So the
current step of a flow that has started is set, and it is a step of the definition unless somebody
else has stored a record for which this fails (`current_step_exists`).
-/

namespace Workflow

namespace Definition

variable {definition : Definition}

theorem hasStep_iff {id : String} : definition.hasStep id ↔ id ∈ stepIds definition.steps := by
  simp [hasStep, step?, stepIds, List.find?_isSome]

theorem hasStep_firstStep : definition.hasStep definition.firstStep :=
  hasStep_iff.2 definition.firstStep_mem

theorem mem_of_step? {id : String} {s : Step} (h : definition.step? id = some s) :
    s ∈ definition.steps :=
  List.mem_of_find?_eq_some h

/-- A step that is known to be led to is there. -/
theorem hasStep_target {s : Step} (hs : s ∈ definition.steps) {target : String}
    (h : target ∈ s.targets) : definition.hasStep target :=
  hasStep_iff.2 (definition.targets_mem s hs target h)

end Definition

namespace Record

/-- The current step stays, or goes to a step of the definition. -/
inductive Advances (definition : Definition) (r r' : Record) : Prop
  | stays (step : r'.currentStep = r.currentStep)
  | goes {target : String} (known : definition.hasStep target) (step : r'.currentStep = some target)

theorem Advances.congr {definition : Definition} {r r' r'' : Record}
    (h : r.Advances definition r') (same : r''.currentStep = r'.currentStep) :
    r.Advances definition r'' := by
  cases h with
  | stays step => exact .stays (same.trans step)
  | goes known step => exact .goes known (same.trans step)

/-- A flow that is entered is on the step that it was on, or on the first one. -/
theorem start_advances (definition : Definition) (r : Record) :
    r.Advances definition (r.start definition.firstStep) := by
  cases hstep : r.currentStep with
  | some step => exact .stays (by simp [start, hstep])
  | none => exact .goes Definition.hasStep_firstStep (by simp [start, hstep])

end Record

namespace Driver

/-! ### The definition of a driver -/

section Definition

variable (d : Driver) (s : Services) (now : Nat)

theorem conclude_definition (e : Execution) :
    (d.conclude s now e).2.1.definition = d.definition := by
  refine conclude_rule d s now e ?dropped ?carried ?waits ?launches
  case dropped => exact fun _ _ _ => rfl
  case carried =>
    intro decision s' _ running _ _
    have routed := applyDecision_routed (.ofVirtualMs now) e.step decision running
    exact (carryOn_definition ..).trans routed.definition
  case waits =>
    rintro log s' d' _ _ _ _ rfl
    rw [releaseLease_driver, logStep_eq]
    rfl
  case launches =>
    rintro log l s' d' _ _ _ _ rfl
    rw [releaseLease_driver, persist_driver]
    refine (launch_definition ..).trans ?_
    rw [logStep_eq]
    rfl

theorem saveUpdate_definition (epoch : Nat) (step : String) (update : StepUpdate) :
    (d.saveUpdate s now epoch step update).2.1.definition = d.definition :=
  saveUpdate_rule (motive := fun r => r.2.1.definition = d.definition) d s now epoch step update
    (fun _ => rfl) fun _ _ _ _ => rfl

theorem decide_definition (epoch : Nat) (step : String) (decision : Decision) :
    (d.decide s now epoch step decision).1.definition = d.definition := by
  refine decide_rule d s now epoch step decision ?stale ?unleased ?decided
  case stale => exact fun _ => rfl
  case unleased => exact fun _ _ _ _ _ _ => retired_definition d
  case decided =>
    rintro lease s' d' _ running _ rfl
    have running' : { d.retired with lease := some lease }.record.state = .running :=
      (congrArg Record.state (retired_record d)).trans running
    have routed := applyDecision_routed (.ofVirtualMs now) step decision running'
    exact ((carryOn_definition ..).trans routed.definition).trans (retired_definition d)

theorem perform_definition (move : Move) : (d.perform s now move).1.definition = d.definition := by
  cases move with
  | start =>
    exact start_rule (motive := fun r => (requesting r).1.definition = d.definition) d s now
      (fun _ => rfl) (fun _ _ _ _ _ => rfl) fun _ _ _ _ => rfl
  | resume =>
    exact resume_rule (motive := fun r => (requesting r).1.definition = d.definition) d s now
      (fun _ => rfl) (fun _ _ _ _ => rfl) (fun _ _ _ _ _ => rfl) fun _ _ _ _ _ _ _ _ => rfl
  | pause =>
    refine pause_rule (motive := fun r => (answering r).1.definition = d.definition) d s now
      (fun _ => rfl) (fun _ _ => rfl) fun _ => ?_
    simp [answering, addRequest]
  | moveTo step =>
    exact moveTo_rule (motive := fun r => (answering r).1.definition = d.definition) d s now step
      (fun _ => rfl) fun _ _ => rfl
  | proceed i =>
    simp only [perform, proceed]
    split
    · rfl
    · split
      · exact conclude_definition ..
      · rfl
    · rfl
  | work i => exact work_rule d s now i rfl fun _ _ _ _ _ _ => rfl
  | hear i => exact hear_rule d s now i rfl fun _ _ _ _ => rfl
  | save i =>
    refine save_rule d s now i rfl ?_
    rintro a update rest r _ _ rfl
    exact saveUpdate_definition ..
  | decide i => exact tell_rule d s now i rfl fun a decision _ _ => decide_definition ..
  | expire =>
    simp only [perform]
    split
    · refine expire_rule d s now (fun _ => rfl) ?_
      rintro d' _ rfl
      simp
    · rfl

end Definition

/-- A driver keeps the definition that it was made with. -/
theorem happen_definition (x : Driver × Services) (e : Event) :
    (happen x e).1.definition = x.1.definition := by
  cases e with
  | move now move => exact perform_definition x.1 x.2 now move
  | update now i update =>
    simp only [happen]
    split
    · exact saveUpdate_definition ..
    · rfl
  | decision now i decision =>
    simp only [happen]
    split
    · exact decide_definition ..
    · rfl
  | outside change => rfl

theorem run_definition (x : Driver × Services) (es : List Event) :
    (run x es).1.definition = x.1.definition := by
  induction es generalizing x with
  | nil => rfl
  | cons e es ih => exact (ih (happen x e)).trans (happen_definition x e)

/-! ### Edges and errors -/

/-- Errors lead to steps of the definition. -/
theorem hasStep_exceptionStep {d : Driver} {step target : String}
    (h : d.exceptionStep? step = some target) : d.definition.hasStep target := by
  obtain ⟨hbind, -⟩ := Option.filter_eq_some_iff.1 h
  obtain ⟨s, hs, hon⟩ := Option.bind_eq_some_iff.1 hbind
  refine Definition.hasStep_target (Definition.mem_of_step? hs) ?_
  simp [Step.targets, StepProperties.targets, hon]

section Advances

variable (d : Driver) (now : Instant) (step : String)

theorem routeError_advances (e : FlowError) :
    d.record.Advances d.definition (d.routeError now step e).record := by
  let noted := (d.onRecord (·.recordError step e.message e.cause)).logStep now step
    [⟨e.message, e.cause⟩]
  have stays : noted.record.currentStep = d.record.currentStep :=
    logStep_currentStep (d.onRecord (·.recordError step e.message e.cause)) ..
  have same : (noted.onRecord (·.setResult .failed)).exceptionStep? step =
      d.exceptionStep? step := by
    simp only [noted, logStep_eq]
    rfl
  unfold routeError
  simp only
  split
  · rename_i target leads
    exact .goes (hasStep_exceptionStep (same.symm.trans leads)) rfl
  · split <;> exact .stays stays

theorem edgeRecord_advances {t : Transition} (fault : d.edgeFault? step t = none) :
    d.record.Advances d.definition (d.edgeRecord now step t) := by
  cases htarget : t.target with
  | some target =>
    have known : d.definition.hasStep target := by
      simpa [edgeFault?, htarget] using fault
    refine .goes known ?_
    simp [edgeRecord, htarget, Record.advanceTo]
  | none =>
    refine .stays ?_
    unfold edgeRecord
    have logged : (if d.keepsLog step then d.record.appendLog step none t.log now
        else d.record).currentStep = d.record.currentStep := by
      split <;> simp
    cases t.result <;> by_cases hc : d.completes step <;>
      simpa [hc, htarget, Record.setResult] using logged

theorem applyDecision_advances (decision : Decision) :
    d.record.Advances d.definition (d.applyDecision now step decision).record := by
  cases decision with
  | error e => exact routeError_advances d now step e
  | ok t =>
    simp only [applyDecision, applyEdge]
    split
    · exact routeError_advances d now step _
    · rename_i fault
      have edge := edgeRecord_advances d now step fault
      rw [takeEdge_eq]
      split <;> exact edge.congr rfl

end Advances

/-- What an event saves is on the step of the record in memory or on a step of the definition; only
a resume may save the step of a stored record. -/
theorem Revision.advances {x : Driver × Services} {e : Event} {r : Record} (h : Revision x e r) :
    x.1.record.Advances x.1.definition r ∨ ∃ stored, x.2.store.find? x.1.flow = some stored ∧
      stored.Advances x.1.definition r := by
  cases h with
  | starts => exact .inl ((Record.start_advances x.1.definition x.1.record).congr rfl)
  | @resumes _ stored _ _ found _ =>
    have entered := Record.start_advances x.1.definition (stored.setResult .unknown)
    refine .inr ⟨stored, found, ?_⟩
    cases entered with
    | stays step => exact .stays step
    | goes known step => exact .goes known step
  | pauses => exact .inl (.stays rfl)
  | moves known => exact .inl (.goes known rfl)
  | @decides _ now _ step decision d _ _ _ definition record =>
    have taken := applyDecision_advances d (.ofVirtualMs now) step decision
    rw [definition, record] at taken
    exact .inl (taken.congr rfl)
  | waits => exact .inl (.stays (logStep_currentStep ..))
  | launches => exact .inl (.stays ((launch_currentStep ..).trans (logStep_currentStep ..)))
  | @updates _ now _ step update =>
    obtain ⟨r, -, same, heq⟩ := applyUpdate_eq x.1 (.ofVirtualMs now) step update
    rw [heq]
    exact .inl (.stays same)
  | expires => exact .inl (.stays rfl)

/-- What an event saves of a flow that has started is on some step. -/
theorem Revision.onStep {x : Driver × Services} {e : Event} {r : Record} (h : Revision x e r)
    (started : x.1.record.state ≠ .created → x.1.record.currentStep ≠ none)
    (entered : r.state ≠ .created) : r.currentStep ≠ none := by
  have held : x.1.record.state = .running → x.1.record.currentStep ≠ none :=
    fun running => started (by simp [running])
  cases h with
  | starts => exact Option.some_ne_none _
  | resumes => exact Option.some_ne_none _
  | pauses running => exact held running
  | moves => exact Option.some_ne_none _
  | @decides _ now _ step decision d _ _ running _ record =>
    have routed := applyDecision_routed (.ofVirtualMs now) step decision (record ▸ running)
    exact routed.step (record ▸ held running)
  | waits running =>
    exact fun lost => held running ((logStep_currentStep ..).symm.trans lost)
  | launches running =>
    intro lost
    have same := (launch_currentStep ..).symm.trans lost
    exact held running ((logStep_currentStep ..).symm.trans same)
  | @updates _ now _ step update =>
    obtain ⟨r, state, same, heq⟩ := applyUpdate_eq x.1 (.ofVirtualMs now) step update
    rw [heq] at entered ⊢
    exact fun lost => started (state ▸ entered) (same.symm.trans lost)
  | expires running => exact held running

/-! ### Runs -/

/-- Steps that somebody else stores for the flow have a property. -/
def Event.Stores (P : String → Prop) (flow : FlowId) : Event → Prop
  | .outside change => ∀ s stored step, (change s).store.find? flow = some stored →
    stored.currentStep = some step → s.store.find? flow = some stored ∨ P step
  | _ => True

theorem Event.stores_true (es : List Event) (flow : FlowId) :
    ∀ e ∈ es, e.Stores (fun _ => True) flow := by
  intro e _
  cases e with
  | outside => exact fun _ _ _ _ _ => .inr trivial
  | _ => trivial

/-- A flow that has started is on a step, and its step in memory and in the store has a property. -/
structure Placed (P : String → Prop) (flow : FlowId) (v : View) : Prop where
  drives : v.flow = flow
  known : v.published = v.record.state
  started : v.record.state ≠ .created → v.record.currentStep ≠ none
  memory : ∀ step, v.record.currentStep = some step → P step
  stored : ∀ stored step, v.store.find? flow = some stored → stored.currentStep = some step → P step

/-- What is found after a save is what was saved or what was there. -/
theorem find?_save_cases {s : Store} {r found : Record} {flow : FlowId}
    (h : (s.save r).find? flow = some found) : found = r ∨ s.find? flow = some found := by
  by_cases own : r.flow = flow
  · subst own
    rw [find?_save] at h
    exact .inl (Option.some.inj h).symm
  · have kept : (s.save r).find? flow = s.find? flow := by
      simp only [Store.find?, Store.save]
      rw [Table.get?_put_of_ne _ _ (Ne.symm own)]
    exact .inr (kept.symm.trans h)

section Placed

variable {P : String → Prop} {flow : FlowId}

theorem Placed.save {v : View} (h : Placed P flow v) {r : Record}
    (started : r.state ≠ .created → r.currentStep ≠ none)
    (memory : ∀ step, r.currentStep = some step → P step) : Placed P flow (v.save r) := by
  refine ⟨h.drives, rfl, started, memory, fun stored step found hstep => ?_⟩
  unfold View.save at found
  simp only at found
  split at found
  · exact h.stored stored step found hstep
  · rcases find?_save_cases found with rfl | before
    · exact memory step hstep
    · exact h.stored stored step before hstep

variable {x : Driver × Services} (h : Placed P flow (view x))
include h

theorem Placed.happen (steps : ∀ step, x.1.definition.hasStep step → P step) {e : Event}
    (stores : e.Stores P flow) : Placed P flow (view (happen x e)) := by
  rcases e.own_or_outside with own | ⟨change, rfl⟩
  · have writes := happen_revises h.known own
    generalize view (Driver.happen x e) = v' at writes
    cases writes with
    | leaves => exact h
    | @saves r hr =>
      refine h.save (hr.onStep h.started) fun step hstep => ?_
      have flow : x.1.flow = flow := h.drives
      rcases hr.advances with advances | ⟨stored, found, advances⟩
      · cases advances with
        | stays same => exact h.memory step (same.symm.trans hstep)
        | goes known moved => exact steps step (Option.some.inj (moved.symm.trans hstep) ▸ known)
      · cases advances with
        | stays same => exact h.stored stored step (flow ▸ found) (same.symm.trans hstep)
        | goes known moved => exact steps step (Option.some.inj (moved.symm.trans hstep) ▸ known)
  · -- from outside only steps are stored that satisfy `P`
    refine ⟨h.drives, h.known, h.started, h.memory, fun stored step found hstep => ?_⟩
    exact (stores x.2 stored step found hstep).elim (h.stored stored step · hstep) id

theorem Placed.run (steps : ∀ step, x.1.definition.hasStep step → P step) {es : List Event}
    (stores : ∀ e ∈ es, e.Stores P flow) : Placed P flow (view (run x es)) := by
  induction es generalizing x with
  | nil => exact h
  | cons e es ih =>
    refine ih (h.happen steps (stores e List.mem_cons_self)) ?_
      fun e' he' => stores e' (List.mem_cons_of_mem _ he')
    rwa [happen_definition]

end Placed

/-- A flow that was just created is on no step yet, nor is its stored record. -/
theorem create_placed {w w' : World} {definition : Definition} {source : Nat} {d : Driver}
    (h : w.create definition source = (.ok d, w')) (P : String → Prop) :
    Placed P d.flow (view (d, w'.services)) := by
  have mirrored := create_mirrored h
  obtain ⟨flow, hd⟩ := World.create_driver h
  have nowhere : d.record.currentStep = none := by
    rw [hd]
    rfl
  have stays : ∀ step, d.record.currentStep = some step → P step :=
    fun step hstep => absurd (nowhere.symm.trans hstep) (by simp)
  refine ⟨rfl, mirrored.coherent.known, fun entered => absurd ?_ entered, stays, ?_⟩
  · rw [hd]
    rfl
  · intro stored step found hstep
    obtain rfl : stored = d.record := Option.some.inj (found.symm.trans mirrored.stored)
    exact stays step hstep

/-- **The current step always exists.**  A flow was created, and anything at all has happened to its
driver; steps and decisions may name any target, calls may have failed, and somebody else may have
stored any record in the place of the flow's.

* If the flow has started then it is on some step, so no request finds it running without one.
* Whatever step fails, its error is led only to a step of the definition.
* As long as the others do not store a step that is not of the definition, the flow is on a step of
  the definition once it has started. -/
theorem current_step_exists {w w' : World} {definition : Definition} {source : Nat} {d : Driver}
    (created : w.create definition source = (.ok d, w')) (es : List Event) (x : Driver × Services)
    (hx : run (d, w'.services) es = x) :
    (x.1.record.state ≠ .created → x.1.record.currentStep ≠ none) ∧
    (∀ s now flow,
      (x.1.look s now).1 ≠ .answered (.error (.invalidState (.noCurrentStep flow)))) ∧
    (∀ step target, x.1.exceptionStep? step = some target → definition.hasStep target) ∧
    ((∀ e ∈ es, e.Stores (definition.hasStep ·) d.flow) → x.1.record.state ≠ .created →
      ∃ step, x.1.record.currentStep = some step ∧ definition.hasStep step) := by
  subst hx
  have same : d.definition = definition := by
    obtain ⟨flow, rfl⟩ := World.create_driver created
    rfl
  have placed : ∀ P : String → Prop, (∀ step, definition.hasStep step → P step) →
      (∀ e ∈ es, e.Stores P d.flow) → Placed P d.flow (view (run (d, w'.services) es)) :=
    fun P steps stores => (create_placed created P).run (same ▸ steps) stores
  have anywhere := placed (fun _ => True) (fun _ _ => trivial) (Event.stores_true es d.flow)
  have started := anywhere.started
  refine ⟨started, fun s now flow => ?_, fun step target leads => ?_, fun stores entered => ?_⟩
  · refine look_rule (motive := fun r =>
      r.1 ≠ .answered (.error (.invalidState (.noCurrentStep flow)))) _ s now ?idle ?lost ?executes
    case idle => exact fun _ => by simp
    case lost => exact fun running _ lost => absurd lost (started (by simp [view, running]))
    case executes => exact fun _ _ _ _ _ _ _ => by simp
  · have known := hasStep_exceptionStep leads
    rwa [run_definition, same] at known
  · have within := placed (definition.hasStep ·) (fun _ known => known) stores
    obtain ⟨step, hstep⟩ := Option.ne_none_iff_exists'.1 (started entered)
    exact ⟨step, hstep, within.memory step hstep⟩

/-- A record that is put into the store of a running flow without a step is no obstacle: the flow is
paused, its stored record is replaced, and it is resumed on its first step. -/
theorem current_step_exists_replaced : ∃ d w' x stored,
    World.empty.create (.solo pausesFlow) 0 = (.ok d, w') ∧
    run (d, w'.services) [.move 0 .start, .move 0 (.proceed 0), .move 0 (.proceed 0),
      .outside fun s => { s with store := s.store.save stored }, .move 1 .resume] = x ∧
    stored.flow = d.flow ∧ stored.state = .running ∧ stored.currentStep = none ∧
    x.1.record.state = .running ∧
    ∃ step, x.1.record.currentStep = some step ∧ (Definition.solo pausesFlow).hasStep step := by
  have created : World.empty.create (.solo pausesFlow) 0 = (.ok _, _) := rfl
  let stored : Record :=
    { Record.create (.ofNat 1) "solo" (.ofVirtualMs 0) with state := .running }
  obtain ⟨-, -, -, within⟩ := current_step_exists created [.move 0 .start, .move 0 (.proceed 0),
    .move 0 (.proceed 0), .outside fun s => { s with store := s.store.save stored },
    .move 1 .resume] _ rfl
  refine ⟨_, _, _, stored, created, rfl, rfl, rfl, rfl, rfl, within ?_ (by decide)⟩
  simp only [List.forall_mem_cons]
  refine ⟨trivial, trivial, trivial, fun s found step hfound hstep => ?_, trivial, nofun⟩
  rcases find?_save_cases hfound with rfl | before
  · cases hstep
  · exact .inl before

end Driver

end Workflow
