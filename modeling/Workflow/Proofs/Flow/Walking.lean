import Workflow.Proofs.Flow.Settling
import Workflow.Proofs.Flow.Standing
import Workflow.Proofs.Flow.Undisturbed

/-!
# Workflow.Proofs.Flow.Walking — a flow on its way from step to step

Nobody disturbs a flow, and nothing goes on in its driver but one request (`OnTurn`).  Then there is
one move at a time: the request begins a turn of the current step (`OnTurn.settles`), and once the
step has answered with an edge, the flow takes it, and the request goes on with the next step or
with nothing (`OnTurn.takes`).
-/

namespace Workflow

/-- What work on tasks depends on. -/
def Services.workSide (s : Services) : PollCounts × List TraceEntry × IdStream .task :=
  (s.polls, s.trace, s.ids.tasks)

namespace Services

theorem workSide_eq_iff {s : Services} {polls : PollCounts} {trace : List TraceEntry}
    {tasks : IdStream .task} : s.workSide = (polls, trace, tasks) ↔
      s.polls = polls ∧ s.trace = trace ∧ s.ids.tasks = tasks := by
  simp [workSide]

variable (s : Services)

@[simp] theorem save_workSide (r : Record) : (s.save r).2.workSide = s.workSide := by
  unfold save
  simp only
  split <;> rfl

@[simp] theorem release_workSide (lease : Lease) : (s.release lease).2.workSide = s.workSide := by
  unfold release
  simp only
  split <;> rfl

theorem acquire_workSide {s s' : Services} {flow : FlowId} {got : Except LockError Lease}
    (h : s.acquire flow = (got, s')) : s'.workSide = s.workSide := by
  unfold acquire at h
  simp only at h
  split at h <;> cases h <;> rfl

end Services

/-- Nothing more happens to the activation. -/
structure Activation.Idle (a : Activation) : Prop where
  due : a.due = none
  saved : a.updates = []
  deaf : a.hear? = none
  told : a.decision? = none

namespace Driver

/-! ### What can happen -/

/-- At most one request and one activation can make a move. -/
structure Quiet (d : Driver) (request activation : Option Nat) : Prop where
  requests : ∀ i r, d.requests[i]? = some r → request = some i ∨ ∃ outcome, r = .answered outcome
  activations : ∀ i a, d.activations[i]? = some a → activation = some i ∨ a.Idle

namespace Quiet

variable {d : Driver} {request activation : Option Nat}

theorem enabled (h : d.Quiet request activation) (unarmed : d.watchdog = none) {now : Nat}
    {m : Move} (enabled : d.Enabled now m) : (∃ i, request = some i ∧ m = .proceed i) ∨
      ∃ i, activation = some i ∧ m ∈ [.work i, .save i, .decide i, .hear i] := by
  -- a move of an activation is impossible for one to which nothing more happens
  have ofActivation (i : Nat) (p : Activation → Bool) (able : d.activations[i]?.any p)
      (idle : ∀ a, a.Idle → p a = false) : activation = some i := by
    obtain ⟨a, ha, able⟩ := (Option.any_eq_true _ _).1 able
    refine (h.activations i a ha).resolve_right fun still => ?_
    exact absurd (idle a still) (by simp [able])
  cases m with
  | proceed i =>
    obtain ⟨r, hr, goes⟩ := (Option.any_eq_true _ _).1 enabled
    refine .inl ⟨i, (h.requests i r hr).resolve_right ?_, rfl⟩
    rintro ⟨outcome, rfl⟩
    cases goes
  | work i =>
    exact .inr ⟨i, ofActivation i _ enabled fun a idle => by simp [idle.due], by simp⟩
  | save i =>
    exact .inr ⟨i, ofActivation i _ enabled fun a idle => by simp [idle.saved], by simp⟩
  | decide i =>
    exact .inr ⟨i, ofActivation i _ enabled fun a idle => by simp [idle.told], by simp⟩
  | hear i =>
    exact .inr ⟨i, ofActivation i _ enabled fun a idle => by simp [idle.deaf], by simp⟩
  | expire => simp [Enabled, unarmed] at enabled
  | _ => cases enabled

theorem still (h : d.Quiet none none) (unarmed : d.watchdog = none) (now : Nat) (m : Move) :
    d.Enabled now m = false := by
  cases able : d.Enabled now m with
  | false => rfl
  | true =>
    rcases h.enabled unarmed able with ⟨_, nothing, -⟩ | ⟨_, nothing, -⟩ <;> cases nothing

theorem congr (h : d.Quiet request activation) {d' : Driver} (requests : d'.requests = d.requests)
    (activations : d'.activations = d.activations) : d'.Quiet request activation :=
  ⟨requests ▸ h.requests, activations ▸ h.activations⟩

/-- The request is in a new phase. -/
theorem setRequest {i : Nat} (h : d.Quiet (some i) activation) {r : Request}
    (goes : request = some i ∨ ∃ outcome, r = .answered outcome) :
    (d.setRequest i r).Quiet request activation := by
  refine ⟨fun j r' hr' => ?_, h.activations⟩
  simp only [Driver.setRequest, List.getElem?_set] at hr'
  have := h.requests j r'
  grind

/-- One more request. -/
theorem addRequest (h : d.Quiet none activation) {r : Request}
    (goes : request = some d.requests.length ∨ ∃ outcome, r = .answered outcome) :
    (d.addRequest r).Quiet request activation := by
  refine ⟨fun j r' hr' => ?_, h.activations⟩
  simp only [Driver.addRequest, List.getElem?_append] at hr'
  have := h.requests j r'
  grind

end Quiet

/-! ### Saving and leases -/

section WorkSide

variable (d : Driver) (s : Services) (now : Nat)

theorem persist_workSide : (d.persist s now).2.2.workSide = s.workSide :=
  Services.save_workSide ..

theorem releaseLease_workSide : (d.releaseLease s).2.workSide = s.workSide := by
  unfold releaseLease
  split
  · exact Services.release_workSide ..
  · rfl

theorem carryOn_workSide : (d.carryOn s now).2.2.workSide = s.workSide :=
  carryOn_rule (motive := fun r => r.2.2.workSide = s.workSide) d s now
    (fun _ _ => persist_workSide ..) (fun _ _ => persist_workSide ..)
    fun _ _ => (releaseLease_workSide ..).trans (persist_workSide d s now)

theorem Leased.workSide {d : Driver} {s s' : Services} {lease : Lease} (h : Leased d s lease s') :
    s'.workSide = s.workSide := by
  cases h with
  | had => rfl
  | given _ got => exact Services.acquire_workSide got

/-- Where saves do not fail, the request goes on as long as the flow runs. -/
theorem carryOn_request {s : Services} (works : s.saving.call.1 = false) :
    (d.carryOn s now).1 = if d.record.state = .running then .ready else .answered (.ok ()) := by
  refine carryOn_rule (motive := fun r => r.1 = _) d s now (fun e failed => ?_)
    (fun _ running => ?_) fun _ stopped => ?_
  · cases (persist_ok_iff.2 works).symm.trans failed
  · rw [if_pos running]
  · rw [if_neg stopped]

end WorkSide

/-! ### Steps of a known definition -/

section Known

variable {d : Driver} {definition : Definition} (drives : d.definition = definition) {id : String}
  {step : Step} (known : definition.step? id = some step)
include drives known

theorem completes_of_known : d.completes id = !step.properties.isErrorStep := by
  simp [completes, drives, known]

theorem keepsLog_of_known : d.keepsLog id = step.properties.logging := by
  simp [keepsLog, drives, known]

/-- An edge to a step that exists is in order. -/
theorem edgeFault?_of_known {t : Transition} (target : t.target = some id) (origin : String) :
    d.edgeFault? origin t = none := by
  simp [edgeFault?, target, Definition.hasStep, drives, known]

end Known

/-- An edge that ends the flow is in order. -/
theorem edgeFault?_of_completes (d : Driver) {t : Transition} (target : t.target = none)
    (completes : t.state = some .completed) (origin : String) : d.edgeFault? origin t = none := by
  simp [edgeFault?, target, completes]

/-! ### Turns -/

variable {flow : FlowId} {definition : Definition} {i : Nat} {x y z : Driver × Services}

/-- The flow runs, and nothing goes on but a request that is about to begin a turn. -/
structure OnTurn (flow : FlowId) (definition : Definition) (i : Nat) (x : Driver × Services) :
    Prop where
  undisturbed : Undisturbed flow definition x
  running : x.1.record.state = .running
  idle : x.1.active = none
  quiet : x.1.Quiet (some i) none
  ready : x.1.requests[i]? = some .ready

/-- A step takes a turn. -/
structure TakesTurn (flow : FlowId) (definition : Definition) (i : Nat) (step : Step)
    (x : Driver × Services) (e : Execution) (z : Driver × Services) : Prop where
  undisturbed : Undisturbed flow definition z
  driver : z.1 = x.1.setRequest i (.executing e)
  work : z.2.workSide = x.2.workSide
  turns : z.2.turns = (x.2.nextTurn x.1.source step.id).2.turns
  own : e.step = step.id
  epoch : e.epoch = x.1.epoch
  answer : ∃ turn, e.answer = (step.execute turn x.1.record).answer

/-- What comes of a decision that was applied: the flow has this record, a request goes on as long
as it runs and is answered then, and nothing else goes on. -/
structure CarriedOn (flow : FlowId) (definition : Definition) (i : Nat) (r : Record)
    (x y : Driver × Services) : Prop where
  undisturbed : Undisturbed flow definition y
  record : y.1.record = r
  work : y.2.workSide = x.2.workSide
  going : y.1.record.state = .running → OnTurn flow definition i y
  rests : y.1.record.state ≠ .running → y.1.Quiet none none
  answered : y.1.record.state ≠ .running → y.1.requests[i]? = some (.answered (.ok ()))

/-- What comes of an edge: the request goes on as long as the flow runs, and nothing else does. -/
structure Takes (flow : FlowId) (definition : Definition) (i : Nat) (step : String) (t : Transition)
    (x y : Driver × Services) : Prop where
  undisturbed : Undisturbed flow definition y
  record : ∃ now : Nat, y.1.record =
    (x.1.takeEdge (.ofVirtualMs now) step t).record.touch (.ofVirtualMs now)
  work : y.2.workSide = x.2.workSide
  going : y.1.record.state = .running → OnTurn flow definition i y
  rests : y.1.record.state ≠ .running → y.1.Quiet none none

section Takes

variable {step : String} {t : Transition} (h : Takes flow definition i step t x y)
include h

theorem Takes.standing (on : t.state ≠ some .paused) :
    y.1.record.standing = x.1.record.standing.take step (x.1.completes step) t := by
  obtain ⟨now, record⟩ := h.record
  rw [record, Record.touch_standing, takeEdge_standing _ _ _ _ on]

theorem Takes.said (s : String) : y.1.record.said s =
    x.1.record.said s ++ if s = step ∧ x.1.keepsLog step then t.log else [] := by
  obtain ⟨now, record⟩ := h.record
  rw [record, Record.touch_said, takeEdge_said]

theorem Takes.results (s : String) : y.1.record.results s = x.1.record.results s := by
  obtain ⟨now, record⟩ := h.record
  rw [record]
  exact takeEdge_results ..

end Takes

/-- What is made of the record depends on the definition and the record only. -/
theorem takeEdge_record_congr {d d' : Driver} (definition : d.definition = d'.definition)
    (record : d.record = d'.record) (now : Instant) (step : String) (t : Transition) :
    (d.takeEdge now step t).record = (d'.takeEdge now step t).record := by
  have keeps : d.keepsLog step = d'.keepsLog step := by rw [keepsLog, definition, keepsLog]
  have counts : d.completes step = d'.completes step := by rw [completes, definition, completes]
  have same : d.edgeRecord now step t = d'.edgeRecord now step t := by
    simp only [edgeRecord, keeps, counts, record]
  rw [takeEdge_eq, takeEdge_eq, same]
  split <;> rfl

/-- An edge that is in order is taken. -/
theorem applyEdge_of_fine {d d' : Driver} (definition : d.definition = d'.definition)
    {step : String} {t : Transition} (fine : d'.edgeFault? step t = none) (now : Instant) :
    d.applyEdge now step t = d.takeEdge now step t := by
  have fine' : d.edgeFault? step t = none := by
    rw [← fine]
    simp only [edgeFault?, definition]
  simp only [applyEdge, fine']

/-- A driver that was led somewhere saves its record, and a request carries on. -/
theorem CarriedOn.of_routed {d d' : Driver} {s : Services} {now : Nat} (routed : Routed d d')
    (idle : d.active = none) (works : s.saving.call.1 = false)
    (carried : Request × Driver × Services) (carries : carried = d'.carryOn s now)
    (undisturbed : Undisturbed flow definition y)
    (record : y.1.record = carried.2.1.record) (active : y.1.active = carried.2.1.active)
    (work : y.2.workSide = x.2.workSide) (here : y.1.requests[i]? = some carried.1)
    (quiet : ∀ request, request = some i ∨ (∃ outcome, carried.1 = .answered outcome) →
      y.1.Quiet request none) :
    CarriedOn flow definition i (d'.record.touch (.ofVirtualMs now)) x y := by
  have saved : y.1.record = d'.record.touch (.ofVirtualMs now) := by
    rw [record, carries, carryOn_record]
  have state : y.1.record.state = d'.record.state := by
    rw [saved, Record.touch_state]
  have request := carryOn_request d' now works
  rw [← carries] at request
  refine ⟨undisturbed, saved, work, fun running => ?_, fun stopped => ?_, fun stopped => ?_⟩
  · rw [if_pos (state ▸ running)] at request
    refine ⟨undisturbed, running, ?_, quiet _ (.inl rfl), request ▸ here⟩
    rw [active, carries, carryOn_active, routed.active, idle]
  · rw [if_neg (state ▸ stopped)] at request
    exact quiet none (.inr ⟨_, request⟩)
  · rw [if_neg (state ▸ stopped)] at request
    exact request ▸ here

/-- An edge that was taken, and carried on. -/
theorem CarriedOn.takes {d : Driver} {now : Nat} {step : String} {t : Transition}
    (drives : d.definition = x.1.definition) (same : d.record = x.1.record)
    (h : CarriedOn flow definition i
      ((d.takeEdge (.ofVirtualMs now) step t).record.touch (.ofVirtualMs now)) x y) :
    Takes flow definition i step t x y := by
  refine ⟨h.undisturbed, ⟨now, ?_⟩, h.work, h.going, h.rests⟩
  rw [h.record, takeEdge_record_congr drives same]

/-- A call that has entered the flow goes on. -/
theorem OnTurn.of_saved {d : Driver} {s : Services} {now : Nat} (works : s.saving.call.1 = false)
    (undisturbed : Undisturbed flow definition (requesting (d.persist s now)))
    (running : d.record.state = .running) (idle : d.active = none) (quiet : d.Quiet none none) :
    OnTurn flow definition d.requests.length (requesting (d.persist s now)) := by
  have saved : (d.persist s now).1 = .ok () := persist_ok_iff.2 works
  have goes : requesting (d.persist s now) =
      ((d.persist s now).2.1.addRequest .ready, (d.persist s now).2.2) := by
    simp only [requesting, saved, Request.ofStart]
  rw [goes] at undisturbed ⊢
  have same : (d.persist s now).2.1.Quiet none none := quiet.congr rfl rfl
  exact ⟨undisturbed, running, idle, same.addRequest (.inl rfl), by simp [addRequest]⟩

/-- A flow that was just created is started. -/
theorem Undisturbed.starts (h : Undisturbed flow definition x) (new : x.1.Untouched) (now : Nat) :
    OnTurn flow definition 0 (x.1.perform x.2 now .start) ∧
      (x.1.perform x.2 now .start).1.record =
        (x.1.record.start definition.firstStep).touch (.ofVirtualMs now) ∧
      (x.1.perform x.2 now .start).2.workSide = x.2.workSide := by
  have undisturbed := h.perform now .start
  revert undisturbed
  simp only [Driver.perform]
  refine start_rule x.1 x.2 now (fun started => absurd new.state started)
    (fun _ _ _ free refused => (h.registered.not_refused free refused).elim) ?_
  intro lease s' _ leased undisturbed
  have works : s'.saving.call.1 = false := by
    rw [show s'.saving = x.2.saving from congrArg Prod.snd leased.storeSide]
    exact h.saving.call.1
  have quiet : x.1.Quiet none none :=
    ⟨fun i r hr => by simp [new.requests] at hr, fun i a ha => by simp [new.activations] at ha⟩
  have turn := OnTurn.of_saved works undisturbed rfl new.active (quiet.congr rfl rfl)
  refine ⟨?_, ?_, (persist_workSide ..).trans leased.workSide⟩
  · have first : x.1.requests.length = 0 := by simp [new.requests]
    exact first ▸ turn
  · rw [← h.drives]
    rfl

/-- Nothing but the request can make a move. -/
theorem OnTurn.only_proceeds (h : OnTurn flow definition i x) {now : Nat} {m : Move}
    (enabled : x.1.Enabled now m) : m = .proceed i := by
  rcases h.quiet.enabled h.undisturbed.unarmed enabled with ⟨j, same, rfl⟩ | ⟨_, nothing, -⟩
  · rw [Option.some.inj same]
  · cases nothing

theorem OnTurn.can_proceed (h : OnTurn flow definition i x) (now : Nat) :
    x.1.Enabled now (.proceed i) := by
  simp [Enabled, h.ready, Request.goesAt]

/-- The request begins a turn of the current step. -/
theorem OnTurn.begins (h : OnTurn flow definition i x) {id : String} {step : Step}
    (here : x.1.record.currentStep = some id) (known : definition.step? id = some step)
    (now : Nat) : ∃ e, TakesTurn flow definition i step x e (x.1.perform x.2 now (.proceed i)) := by
  have found : x.1.definition.step? id = some step := h.undisturbed.drives ▸ known
  have own : step.id = id := by simpa using List.find?_some known
  obtain ⟨turn, e, s', looked, side, turns, step_, epoch, answer⟩ : ∃ turn e s',
      x.1.look x.2 now = (.executing e, s') ∧ s'.workSide = x.2.workSide ∧
        s'.turns = (x.2.nextTurn x.1.source id).2.turns ∧ e.step = id ∧
        e.epoch = x.1.epoch ∧ e.answer = (step.execute turn x.1.record).answer := by
    simp only [look, isRunning, h.running, h.idle, here, found]
    exact ⟨_, _, _, rfl, rfl, rfl, rfl, rfl, rfl⟩
  have proceeds : x.1.perform x.2 now (.proceed i) =
      (x.1.setRequest i (.executing e), s') := by
    simp [perform, proceed, h.ready, looked]
  refine ⟨e, h.undisturbed.perform .., ?_, ?_, ?_, step_.trans own.symm, epoch, turn, answer⟩
  · rw [proceeds]
  · rw [proceeds, side]
  · rw [proceeds, turns, own]

section TakesTurn

variable {step : Step} {e : Execution} (h : TakesTurn flow definition i step x e z)
  (before : OnTurn flow definition i x)

include h before

theorem TakesTurn.quiet : z.1.Quiet (some i) none :=
  h.driver ▸ before.quiet.setRequest (.inl rfl)

theorem TakesTurn.executing : z.1.requests[i]? = some (.executing e) := by
  rw [h.driver]
  exact List.getElem?_set_self (List.getElem?_eq_some_iff.1 before.ready).1

/-- Nothing but the request can make a move, and only once the step answers. -/
theorem TakesTurn.only_proceeds {now : Nat} {m : Move} (enabled : z.1.Enabled now m) :
    m = .proceed i ∧ e.due ≤ now := by
  rcases (h.quiet before).enabled h.undisturbed.unarmed enabled with
    ⟨j, same, rfl⟩ | ⟨_, nothing, -⟩
  · obtain rfl : i = j := Option.some.inj same
    exact ⟨rfl, by simpa [Enabled, h.executing before, Request.goesAt] using enabled⟩
  · cases nothing

theorem TakesTurn.can_proceed : z.1.Enabled e.due (.proceed i) := by
  simp [Enabled, h.executing before, Request.goesAt]

theorem TakesTurn.settles {Over : Driver × Services → Prop}
    (next : ∀ now, e.due ≤ now → Settles Over (z.1.perform z.2 now (.proceed i))) :
    Settles Over z := by
  refine .moves ?_ ⟨e.due, .proceed i, h.can_proceed before⟩ fun now m enabled => ?_
  · have running : z.1.record.state = .running := by rw [h.driver]; exact before.running
    rw [h.undisturbed.known, running]
    rfl
  · obtain ⟨rfl, due⟩ := h.only_proceeds before enabled
    exact next now due

end TakesTurn

/-- The current step takes its next turn, and the request waits for its answer. -/
theorem OnTurn.settles (h : OnTurn flow definition i x) {id : String} {step : Step}
    (here : x.1.record.currentStep = some id) (known : definition.step? id = some step)
    {Over : Driver × Services → Prop}
    (next : ∀ e z, TakesTurn flow definition i step x e z → ∀ now, e.due ≤ now →
      Settles Over (z.1.perform z.2 now (.proceed i))) : Settles Over x := by
  refine .moves ?_ ⟨0, .proceed i, h.can_proceed 0⟩ fun now m enabled => ?_
  · rw [h.undisturbed.known, h.running]
    rfl
  · obtain rfl := h.only_proceeds enabled
    obtain ⟨e, turn⟩ := h.begins here known now
    exact turn.settles h (next e _ turn)

section Answers

variable {step : Step} {e : Execution} (h : TakesTurn flow definition i step x e z)
  (before : OnTurn flow definition i x) {t : Transition} (edge : t.isEdge)
  (answers : ∀ turn ids, (step.execute turn x.1.record).answer ids = (.plain (.ok t), ids))
  {now : Nat} (due : e.due ≤ now)

include h before edge answers due

/-- A step that answers with an edge has it applied. -/
theorem TakesTurn.applies : z.1.perform z.2 now (.proceed i) =
    (((z.1.applyEdge (.ofVirtualMs now) step.id t).carryOn z.2 now).2.1.setRequest i
      ((z.1.applyEdge (.ofVirtualMs now) step.id t).carryOn z.2 now).1,
    ((z.1.applyEdge (.ofVirtualMs now) step.id t).carryOn z.2 now).2.2) := by
  obtain ⟨n, answer⟩ := h.answer
  have drawn : z.2.drawing e.answer = (.plain (.ok t), z.2) := by
    simp [Services.drawing, answer, answers]
  have epoch : z.1.epoch = e.epoch := by
    rw [h.driver, h.epoch]
    rfl
  have running : z.1.isRunning := by simp [h.driver, isRunning, setRequest, before.running]
  simp [perform, proceed, h.executing before, due, conclude, drawn, epoch, running, h.own,
    StepAnswer.plain, edge]

theorem TakesTurn.carriedOn : CarriedOn flow definition i
    ((z.1.applyEdge (.ofVirtualMs now) step.id t).record.touch (.ofVirtualMs now)) x
    (z.1.perform z.2 now (.proceed i)) := by
  have applies := h.applies before edge answers due
  have running : z.1.record.state = .running := by
    rw [h.driver]
    exact before.running
  have idle : z.1.active = none := by
    rw [h.driver]
    exact before.idle
  have routed := applyEdge_routed (.ofVirtualMs now) step.id t running
  have undisturbed := h.undisturbed.perform now (.proceed i)
  rw [applies] at undisturbed ⊢
  let carried := (z.1.applyEdge (.ofVirtualMs now) step.id t).carryOn z.2 now
  have requests : carried.2.1.requests = z.1.requests :=
    (carryOn_requests ..).trans routed.requests
  have activations : carried.2.1.activations = z.1.activations :=
    (carryOn_activations ..).trans routed.activations
  refine .of_routed routed idle h.undisturbed.saving.call.1 carried rfl undisturbed rfl rfl
    ?_ ?_ fun request goes => ?_
  · exact (carryOn_workSide ..).trans h.work
  · show (carried.2.1.requests.set i carried.1)[i]? = some carried.1
    rw [requests]
    exact List.getElem?_set_self (List.getElem?_eq_some_iff.1 (h.executing before)).1
  · exact ((h.quiet before).congr requests activations).setRequest goes

end Answers

/-- **A step that answers with an edge has the flow take it.** -/
theorem OnTurn.takes (h : OnTurn flow definition i x) {id : String} {step : Step}
    (here : x.1.record.currentStep = some id) (known : definition.step? id = some step)
    {t : Transition} (edge : t.isEdge) (fine : x.1.edgeFault? id t = none)
    (answers : ∀ turn ids, (step.execute turn x.1.record).answer ids = (.plain (.ok t), ids))
    {Over : Driver × Services → Prop}
    (next : ∀ y, Takes flow definition i id t x y → Settles Over y) : Settles Over x := by
  refine h.settles here known fun e z turn now due => next _ ?_
  have own : step.id = id := by simpa using List.find?_some known
  have carried := turn.carriedOn h edge answers due
  have drives : z.1.definition = x.1.definition := by
    rw [turn.driver]
    rfl
  rw [own, applyEdge_of_fine drives fine] at carried
  exact carried.takes drives (by rw [turn.driver]; rfl)

/-- A step that answers with an edge moves the flow. -/
theorem OnTurn.walks (h : OnTurn flow definition i x) {z : Standing}
    (stands : x.1.record.standing = z) {id : String} {step : Step} (here : z.step = some id)
    (known : definition.step? id = some step) {t : Transition} (edge : t.isEdge)
    (fine : x.1.edgeFault? id t = none) (on : t.state ≠ some .paused)
    (answers : ∀ turn ids, (step.execute turn x.1.record).answer ids = (.plain (.ok t), ids))
    {Over : Driver × Services → Prop}
    (next : ∀ y, Takes flow definition i id t x y →
      y.1.record.standing = z.take id (!step.properties.isErrorStep) t → Settles Over y) :
    Settles Over x := by
  subst stands
  refine h.takes here known edge fine answers fun y takes => next y takes ?_
  rw [takes.standing on, completes_of_known h.undisturbed.drives known]

end Driver

end Workflow
