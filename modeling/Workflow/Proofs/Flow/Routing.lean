import Workflow.Proofs.Flow.ActivationSafety
import Workflow.Proofs.Flow.CurrentStep
import Workflow.Proofs.Step.Targets

/-!
# Workflow.Proofs.Flow.Routing — a definition of plain steps routes every edge

When all steps of a definition are plain, an edge comes from a transition that a step declares, from
the routes of a step's handler, or out of the blue.  What is executed was looked up in the
definition, and every listener has the handler of a step that was executed; so `Routing` is kept by
every event, and as long as nothing comes out of the blue, the target of an edge is a step of the
definition (`edges_are_routed`).
-/

namespace Workflow

theorem StepAnswer.Within.decision {P : String → Prop} {a : StepAnswer} (h : a.Within P)
    {t : Transition} (decides : a.decision? = some (.ok t)) : t.Within P := by
  unfold StepAnswer.decision? at decides
  split at decides
  · cases decides
  · rename_i outcome
    split at decides
    · cases decides
      exact h.outcome t outcome
    · cases decides

namespace Driver

/-- What is executed, and what is listened to, leads to steps with a property. -/
structure Routing (P : String → Prop) (d : Driver) : Prop where
  answers : ∀ e, .executing e ∈ d.requests → ∀ ids, (e.answer ids).1.Within P
  listeners : ∀ a ∈ d.activations, a.listener.Within P

namespace Routing

variable {P : String → Prop} {d d' : Driver} (h : d.Routing P)

theorem of_untouched (h : d.Untouched) : d.Routing P :=
  ⟨by simp [h.requests], by simp [h.activations]⟩

include h

theorem congr (requests : d'.requests = d.requests) (activations : d'.activations = d.activations) :
    d'.Routing P := by
  refine ⟨?_, ?_⟩
  · rw [requests]
    exact h.answers
  · rw [activations]
    exact h.listeners

theorem addRequest {r : Request} (hr : ∀ e, r ≠ .executing e) : (d.addRequest r).Routing P := by
  refine ⟨fun e he => ?_, h.listeners⟩
  rcases List.mem_append.1 he with hold | hnew
  · exact h.answers e hold
  · exact absurd (List.mem_singleton.1 hnew).symm (hr e)

omit h in
theorem requested {r : Except FlowError Unit × Driver × Services} (h : r.2.1.Routing P) :
    (requesting r).1.Routing P :=
  h.addRequest (ofStart_ne_executing r.1)

omit h in
theorem answered {r : Except FlowError Unit × Driver × Services} (h : r.2.1.Routing P) :
    (answering r).1.Routing P :=
  h.addRequest (by simp)

theorem setRequest (i : Nat) {r : Request}
    (hr : ∀ e, r = .executing e → ∀ ids, (e.answer ids).1.Within P) :
    (d.setRequest i r).Routing P := by
  refine ⟨fun e he => ?_, h.listeners⟩
  rcases List.mem_or_eq_of_mem_set he with hold | hnew
  · exact h.answers e hold
  · exact hr e hnew.symm

theorem onActivation (i : Nat) {change : Activation → Activation}
    (keeps : ∀ a, d.activations[i]? = some a → a.listener.Within P →
      (change a).listener.Within P) : (d.onActivation i change).Routing P := by
  refine ⟨h.answers, fun a ha => ?_⟩
  obtain ⟨j, hj⟩ := List.mem_iff_getElem?.1 ha
  simp only [Driver.onActivation, List.getElem?_modify, Option.map_eq_map,
    Option.map_eq_some_iff] at hj
  obtain ⟨b, hb, rfl⟩ := hj
  have within := h.listeners b (List.mem_of_getElem? hb)
  split
  · rename_i same
    exact keeps b (same ▸ hb) within
  · exact within

theorem abortActive : d.abortActive.Routing P := by
  unfold Driver.abortActive
  split
  · rename_i i _
    have aborted : (d.onActivation i .abort).Routing P := h.onActivation i fun _ _ within => within
    exact aborted.congr rfl rfl
  · exact h

theorem stopped (change : Record → Record) : (d.stopped change).Routing P :=
  (h.congr rfl rfl : d.nextEpoch.Routing P).abortActive.congr rfl rfl

theorem retired : d.retired.Routing P := (h.congr rfl rfl : d.nextEpoch.Routing P).abortActive

theorem routed (r : Routed d d') : d'.Routing P := h.congr r.requests r.activations

theorem carryOn (s : Services) (now : Nat) : (d.carryOn s now).2.1.Routing P :=
  h.congr (carryOn_requests ..) (carryOn_activations ..)

theorem settled (s : Services) (now : Nat) :
    ((d.persist s now).2.1.settle (d.persist s now).2.2).1.Routing P := by
  rw [settle_driver]
  exact h.congr rfl rfl

theorem saved (s : Services) (now : Nat) :
    ((d.persist s now).2.1.releaseLease (d.persist s now).2.2).1.Routing P := by
  rw [releaseLease_driver]
  exact h.congr rfl rfl

theorem logStep (now : Instant) (step : String) (log : List LogEntry) :
    (d.logStep now step log).Routing P := by
  rw [logStep_eq]
  exact h.congr rfl rfl

/-- The handler of launched tasks comes with the answer of the step. -/
theorem launch (now : Nat) (step : String) {l : StepLaunch} (hl : l.handler.Within P) :
    (d.launch now step l).Routing P := by
  refine ⟨?_, fun a ha => ?_⟩
  · rw [launch_requests]
    exact h.answers
  · rw [launch_activations] at ha
    rcases List.mem_append.1 ha with hold | hnew
    · exact h.listeners a hold
    · rw [List.mem_singleton.1 hnew]
      exact Listener.within_ofHandler hl

end Routing

/-- What is executed answers as its step in the definition does, or that there is no such step. -/
theorem look_answer {d : Driver} {s : Services} {now : Nat} {e : Execution}
    (h : (d.look s now).1 = .executing e) :
    d.record.state = .running ∧ d.record.currentStep = some e.step ∧
      ((d.definition.step? e.step = none ∧
          e.answer = (StepAnswer.plain (.error (.stepNotFound e.step)), ·)) ∨
        ∃ step turn, d.definition.step? e.step = some step ∧
          e.answer = (step.execute turn d.record).answer) := by
  unfold look at h
  split at h
  · cases h
  · rename_i idle
    have running : d.record.state = .running := by
      simp only [isRunning] at idle
      grind
    split at h
    · cases h
    · rename_i id hstep
      split at h
      · -- the current step is none of the definition
        rename_i unknown
        cases h
        exact ⟨running, hstep, .inl ⟨unknown, rfl⟩⟩
      · rename_i step found
        cases h
        exact ⟨running, hstep, .inr ⟨step, _, found, rfl⟩⟩

section Sections

variable {P : String → Prop} {d : Driver} (h : d.Routing P) (s : Services) (now : Nat)
include h

theorem look_routing (plain : ∀ step ∈ d.definition.steps, step.isPlain)
    (declared : ∀ step ∈ d.definition.steps, ∀ target ∈ step.declaredTargets, P target) (i : Nat) :
    (d.setRequest i (d.look s now).1).Routing P := by
  refine h.setRequest i fun e he ids => ?_
  obtain ⟨-, -, ⟨-, answer⟩ | ⟨step, turn, found, answer⟩⟩ := look_answer he
  · rw [answer]
    exact StepAnswer.within_error _
  · have mem := Definition.mem_of_step? found
    rw [answer]
    exact Step.execute_within (plain step mem) (declared step mem) turn d.record ids

theorem conclude_routing {e : Execution} (he : .executing e ∈ d.requests) (i : Nat) :
    ((d.conclude s now e).2.1.setRequest i (d.conclude s now e).1).Routing P := by
  have unanswered : ∀ outcome e', Request.answered outcome = .executing e' →
      ∀ ids, (e'.answer ids).1.Within P := nofun
  refine conclude_rule (motive := fun r => (r.2.1.setRequest i r.1).Routing P) d s now e
    ?dropped ?carried ?waits ?launches
  case dropped => exact fun _ _ _ => h.setRequest i (unanswered _)
  case carried =>
    intro decision s' _ running _ _
    have routed := h.routed (applyDecision_routed (.ofVirtualMs now) e.step decision running)
    exact (routed.carryOn s' now).setRequest i
      fun e' heq => absurd heq (carryOn_request_ne_executing _ _ _ e')
  case waits =>
    rintro log s' d' _ _ _ _ rfl
    exact ((h.logStep ..).saved s' now).setRequest i (unanswered _)
  case launches =>
    rintro log l s' d' _ _ _ ⟨-, launches⟩ rfl
    have handler := (h.answers e he s.ids.tasks).launch l launches
    have launched := (h.logStep (.ofVirtualMs now) e.step log).launch now e.step handler
    exact (launched.saved s' now).setRequest i (unanswered _)

theorem saveUpdate_routing (epoch : Nat) (step : String) (update : StepUpdate) :
    (d.saveUpdate s now epoch step update).2.1.Routing P :=
  saveUpdate_rule (motive := fun r => r.2.1.Routing P) d s now epoch step update (fun _ => h)
    fun _ _ _ _ => h.congr rfl rfl

theorem decide_routing (epoch : Nat) (step : String) (decision : Decision) :
    (d.decide s now epoch step decision).1.Routing P := by
  refine decide_rule d s now epoch step decision (fun _ => h) (fun _ _ _ _ _ _ => h.retired) ?_
  rintro lease s' d' _ running _ rfl
  have leased : { d.retired with lease := some lease }.Routing P := h.retired.congr rfl rfl
  have running' : { d.retired with lease := some lease }.record.state = .running :=
    (congrArg Record.state (retired_record d)).trans running
  have routed := leased.routed (applyDecision_routed (.ofVirtualMs now) step decision running')
  exact (routed.carryOn s' now).addRequest (carryOn_request_ne_executing _ _ _)

theorem perform_routing (plain : ∀ step ∈ d.definition.steps, step.isPlain)
    (declared : ∀ step ∈ d.definition.steps, ∀ target ∈ step.declaredTargets, P target)
    (move : Move) : (d.perform s now move).1.Routing P := by
  cases move with
  | start =>
    refine start_rule (motive := fun r => (requesting r).1.Routing P) d s now ?_ ?_ ?_
    · exact fun _ => .requested h
    · exact fun _ _ _ _ _ => .requested h
    · exact fun _ _ _ _ => .requested (h.congr rfl rfl)
  | resume =>
    refine resume_rule (motive := fun r => (requesting r).1.Routing P) d s now ?_ ?_ ?_ ?_
    · exact fun _ => .requested h
    · exact fun _ _ _ _ => .requested h
    · exact fun _ _ _ _ _ => .requested h
    · exact fun _ _ _ _ _ _ _ _ => .requested (h.congr rfl rfl)
  | pause =>
    refine pause_rule (motive := fun r => (answering r).1.Routing P) d s now ?_ ?_ ?_
    · exact fun _ => .answered h
    · exact fun _ _ => .answered h
    · exact fun _ => .answered ((h.stopped .pause).settled s now)
  | moveTo step =>
    refine moveTo_rule (motive := fun r => (answering r).1.Routing P) d s now step ?_ ?_
    · exact fun _ => .answered h
    · exact fun _ _ => .answered (h.congr rfl rfl)
  | proceed i =>
    simp only [perform, proceed]
    split
    · exact look_routing h s now plain declared i
    · rename_i e he
      split
      · -- the step has answered
        exact conclude_routing h s now (List.mem_of_getElem? he) i
      · exact h
    · exact h
  | work i =>
    refine work_rule d s now i h fun a a' polls trace ha hw => ?_
    refine h.onActivation i fun b hb within => ?_
    obtain rfl : a = b := Option.some.inj (ha.symm.trans hb)
    exact Activation.work?_listener hw ▸ within
  | hear i =>
    refine hear_rule d s now i h fun a a' ha hh => ?_
    refine h.onActivation i fun b hb within => ?_
    obtain rfl : a = b := Option.some.inj (ha.symm.trans hb)
    obtain ⟨event, heard⟩ := Activation.hear?_listener hh
    -- what is heard is reduced by a handler that leads to declared targets only
    exact heard ▸ within.hear event
  | save i =>
    refine save_rule d s now i h ?_
    rintro a update rest r _ _ rfl
    exact (saveUpdate_routing h s now ..).onActivation i fun _ _ within => within
  | decide i =>
    refine tell_rule d s now i h fun a decision _ _ => ?_
    refine decide_routing (h.onActivation i fun b _ within => ?_) s now ..
    exact b.tell_listener ▸ within
  | expire =>
    simp only [perform]
    split
    · refine expire_rule d s now (fun _ => h.congr rfl rfl) ?_
      rintro d' _ rfl
      -- the deadline ends the flow, and leads nowhere
      have unarmed : { d with watchdog := none }.Routing P := h.congr rfl rfl
      exact (unarmed.stopped _).saved s now
    · exact h

omit now in
/-- Whatever happens, what is executed and what is listened to stays within the definition. -/
theorem happen_routing (plain : ∀ step ∈ d.definition.steps, step.isPlain)
    (declared : ∀ step ∈ d.definition.steps, ∀ target ∈ step.declaredTargets, P target)
    (e : Event) : (happen (d, s) e).1.Routing P := by
  cases e with
  | move now move => exact perform_routing h s now plain declared move
  | update now i update =>
    simp only [happen]
    split
    · exact saveUpdate_routing h s now ..
    · exact h
  | decision now i decision =>
    simp only [happen]
    split
    · exact decide_routing h s now ..
    · exact h
  | outside change => exact h

end Sections

theorem run_routing {P : String → Prop} {x : Driver × Services} (h : x.1.Routing P)
    (plain : ∀ step ∈ x.1.definition.steps, step.isPlain)
    (declared : ∀ step ∈ x.1.definition.steps, ∀ target ∈ step.declaredTargets, P target)
    (es : List Event) : (run x es).1.Routing P := by
  induction es generalizing x with
  | nil => exact h
  | cons e es ih =>
    have same := happen_definition x e
    exact ih (happen_routing h x.2 plain declared e) (same ▸ plain) (same ▸ declared)

/-! ### Edges -/

/-- The event is no decision out of the blue. -/
def Event.IsHeard : Event → Prop
  | .decision .. => False
  | _ => True

/-- The edges that an event brings lead where the routing says. -/
theorem Brings.within {P : String → Prop} {x : Driver × Services} (h : x.1.Routing P) {e : Event}
    {epoch : Nat} {step : String} {t : Transition} (heard : e.IsHeard)
    (brought : Brings x e epoch step (.ok t)) : t.Within P := by
  cases brought with
  | answer executing _ decides =>
    exact (h.answers _ (List.mem_of_getElem? executing) _).decision decides
  | told activation decides =>
    exact Activation.decision_within (h.listeners _ (List.mem_of_getElem? activation)) decides
  | blue => exact absurd heard id

/-- An edge whose target is a step of the definition is not refused for it. -/
theorem edgeFault_of_within {d : Driver} {t : Transition} (h : t.Within (d.definition.hasStep ·))
    (step target : String) : d.edgeFault? step t ≠ some (.stepNotFound target) := by
  unfold edgeFault?
  split
  · rename_i next hnext
    simp [h next hnext]
  · split <;> simp

/-- **Validated routing.**  All steps of a definition are plain: they take a fixed edge or launch
tasks, and no handler has a processor of its own.  A flow was created, and anything at all has
happened to its driver.

* Every edge that a step answers with or that a listener tells, whatever results the tasks have had,
  has no target or one that is a step of the definition; so it is not refused for its target.
* As long as nobody else stores a step that is not of the definition, every step that is executed is
  found in the definition. -/
theorem validated_routing {definition : Definition}
    (plain : ∀ step ∈ definition.steps, step.isPlain) {w w' : World} {source : Nat} {d : Driver}
    (created : w.create definition source = (.ok d, w')) (es : List Event) (x : Driver × Services)
    (hx : run (d, w'.services) es = x) :
    (∀ e epoch step t, e.IsHeard → Brings x e epoch step (.ok t) →
      (∀ target, t.target = some target → definition.hasStep target) ∧
      ∀ d' : Driver, d'.definition = definition →
        ∀ target, d'.edgeFault? step t ≠ some (.stepNotFound target)) ∧
    ((∀ e ∈ es, e.Stores (definition.hasStep ·) d.flow) → ∀ s now e,
      (x.1.look s now).1 = .executing e → ∃ step, definition.step? e.step = some step) := by
  have same : d.definition = definition := by
    obtain ⟨flow, rfl⟩ := World.create_driver created
    rfl
  have declared : ∀ step ∈ definition.steps, ∀ target ∈ step.declaredTargets,
      definition.hasStep target :=
    fun step mem target ht => Definition.hasStep_target mem (List.mem_append_right _ ht)
  have routing : (run (d, w'.services) es).1.Routing (definition.hasStep ·) :=
    run_routing (.of_untouched (World.create_untouched created)) (same ▸ plain) (same ▸ declared) es
  subst hx
  refine ⟨fun e epoch step t heard brought => ?_, fun stores s now e executing => ?_⟩
  · have within := Brings.within routing heard brought
    refine ⟨within, fun d' hd => ?_⟩
    subst hd
    exact edgeFault_of_within within step
  · have placed := (create_placed created (definition.hasStep ·)).run
      (by rw [same]; exact fun _ known => known) stores
    have known := placed.memory e.step (look_answer executing).2.1
    exact Option.isSome_iff_exists.1 known

/-- A flow whose first step launches no tasks and leads to the second, which completes the flow. -/
def launchThenStop : Definition where
  flowType := "launch then stop"
  properties := default
  steps := [⟨.named "launch", .tasks fun _ _ ids => (.ok [], ids),
      .ofRoutes (.onResult "stop" "stop"), default⟩,
    ⟨.named "stop", .fixed (.park .completed .success none), .empty, default⟩]
  firstStep := "launch"
  nodup := by decide
  firstStep_mem := by decide
  targets_mem := by
    intro step hstep target ht
    simp only [List.mem_cons, List.not_mem_nil, or_false] at hstep
    rcases hstep with rfl | rfl
    · have handled : target ∈ (Routes.onResult "stop" "stop").targets := ht
      rcases Routes.mem_targets_onResult handled with rfl | rfl <;> decide
    · simp [Step.targets, StepProperties.targets, StepProperties.named, Step.declaredTargets,
        Transition.park] at ht

/-- The tasks are launched and their handler hears that they have completed.  Its edge leads to the
second step. -/
theorem validated_routing_launch : ∃ d w' x epoch step t,
    (∀ step ∈ launchThenStop.steps, step.isPlain) ∧
    World.empty.create launchThenStop 0 = (.ok d, w') ∧
    run (d, w'.services) [.move 0 .start, .move 0 (.proceed 0), .move 0 (.proceed 0),
      .move 0 (.hear 0)] = x ∧
    Brings x (.move 0 (.decide 0)) epoch step (.ok t) ∧ t.target = some "stop" ∧
    ∀ target, x.1.edgeFault? step t ≠ some (.stepNotFound target) := by
  have plain : ∀ step ∈ launchThenStop.steps, step.isPlain := by decide
  have created : World.empty.create launchThenStop 0 = (.ok _, _) := rfl
  obtain ⟨edges, -⟩ := validated_routing plain created [.move 0 .start, .move 0 (.proceed 0),
    .move 0 (.proceed 0), .move 0 (.hear 0)] _ rfl
  have routed := edges (.move 0 (.decide 0)) _ _ ((Transition.runTo "stop").withResult .failed)
    trivial (.told rfl rfl)
  exact ⟨_, _, _, _, _, _, plain, created, rfl, .told rfl rfl, rfl, routed.2 _ rfl⟩

end Driver

end Workflow
