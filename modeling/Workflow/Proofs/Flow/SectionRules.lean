import Workflow.Flow.Section

/-!
# Workflow.Proofs.Flow.SectionRules — what each critical section can do, said once

A section of a driver ends in one of a few ways.  There is one rule for each section: to show that
something holds of what the section gives, show it for every way in which it ends.  Proofs about
runs cite the rules and do not open the sections.  In front of them stand the fields that the
building blocks of sections (saving, leases, epochs, edges) change.
-/

namespace Workflow

namespace Record

@[simp] theorem start_state (r : Record) (first : String) : (r.start first).state = .running := rfl

@[simp] theorem pause_state (r : Record) : r.pause.state = .paused := rfl

@[simp] theorem complete_state (r : Record) (result : FlowResult) :
    (r.complete result).state = .completed := rfl

@[simp] theorem touch_state (r : Record) (now : Instant) : (r.touch now).state = r.state := rfl

@[simp] theorem advanceTo_state (r : Record) (step : String) :
    (r.advanceTo step).state = r.state := rfl

@[simp] theorem setResult_state (r : Record) (result : FlowResult) :
    (r.setResult result).state = r.state := rfl

@[simp] theorem recordError_state (r : Record) (step message : String) (cause : Option String) :
    (r.recordError step message cause).state = r.state := rfl

@[simp] theorem appendLog_state (r : Record) (step : String) (task : Option TaskId)
    (entries : List LogEntry) (now : Instant) :
    (r.appendLog step task entries now).state = r.state := by
  unfold appendLog
  split <;> rfl

@[simp] theorem markCompleted_state (r : Record) (step : String) :
    (r.markCompleted step).state = r.state := by
  unfold markCompleted
  split <;> rfl

@[simp] theorem appendLog_currentStep (r : Record) (step : String) (task : Option TaskId)
    (entries : List LogEntry) (now : Instant) :
    (r.appendLog step task entries now).currentStep = r.currentStep := by
  unfold appendLog
  split <;> rfl

@[simp] theorem markCompleted_currentStep (r : Record) (step : String) :
    (r.markCompleted step).currentStep = r.currentStep := by
  unfold markCompleted
  split <;> rfl

@[simp] theorem appendLog_result (r : Record) (step : String) (task : Option TaskId)
    (entries : List LogEntry) (now : Instant) :
    (r.appendLog step task entries now).result = r.result := by
  unfold appendLog
  split <;> rfl

@[simp] theorem markCompleted_result (r : Record) (step : String) :
    (r.markCompleted step).result = r.result := by
  unfold markCompleted
  split <;> rfl

end Record

namespace StepAnswer

/-- What an answer decides, if it is an error or an edge. -/
def decision? (a : StepAnswer) : Option Decision :=
  match a.outcome with
  | .error e => some (.error e)
  | .ok t => if t.isEdge then some (.ok t) else none

/-- An answer that decides nothing, with what it launches. -/
def Waits (a : StepAnswer) (launch : Option StepLaunch) : Prop :=
  a.decision? = none ∧ a.launch = launch

end StepAnswer

namespace Driver

/-! ### Building blocks -/

@[simp] theorem persist_driver (d : Driver) (s : Services) (now : Nat) :
    (d.persist s now).2.1 =
      { d with record := d.record.touch (.ofVirtualMs now), published := d.record.state } := rfl

theorem persist_record_state (d : Driver) (s : Services) (now : Nat) :
    (d.persist s now).2.1.record.state = d.record.state := rfl

@[simp] theorem releaseLease_driver (d : Driver) (s : Services) :
    (d.releaseLease s).1 = { d with lease := none } := by
  unfold releaseLease
  cases h : d.lease with
  | some lease => rfl
  | none =>
    cases d
    subst h
    rfl

@[simp] theorem settle_driver (d : Driver) (s : Services) :
    (d.settle s).1 = { d with lease := none, watchdog := none } := by
  rw [settle, releaseLease_driver]

/-- A driver comes to have a lease: it has one already, or the lock service gives it one. -/
inductive Leased (d : Driver) (s : Services) (lease : Lease) : Services → Prop
  | had (h : d.lease = some lease) : Leased d s lease s
  | given {s' : Services} (h : d.lease = none) (got : s.acquire d.flow = (.ok lease, s')) :
    Leased d s lease s'

/-- The lease is refused by the lock service, or the driver has it. -/
@[elab_as_elim] theorem acquireLease_rule
    {motive : Except FlowError Unit × Driver × Services → Prop} (d : Driver) (s : Services)
    (refused : ∀ e s', d.lease = none → s.acquire d.flow = (.error e, s') →
      motive (.error (.lock e), d, s'))
    (leased : ∀ lease s', Leased d s lease s' →
      motive (.ok (), { d with lease := some lease }, s')) :
    motive (d.acquireLease s) := by
  unfold acquireLease
  cases h : d.lease with
  | some lease =>
    have hd : { d with lease := some lease } = d := by rw [← h]
    have := leased lease s (.had h)
    rwa [hd] at this
  | none =>
    rcases hgot : s.acquire d.flow with ⟨got, s'⟩
    cases got with
    | ok lease => exact leased lease s' (.given h hgot)
    | error e => exact refused e s' h hgot

/-! ### Edges and errors -/

theorem logStep_eq (d : Driver) (now : Instant) (step : String) (entries : List LogEntry) :
    d.logStep now step entries = d.onRecord fun r =>
      if d.keepsLog step then r.appendLog step none entries now else r := by
  unfold logStep
  split <;> rfl

@[simp] theorem logStep_state (d : Driver) (now : Instant) (step : String)
    (entries : List LogEntry) : (d.logStep now step entries).record.state = d.record.state := by
  rw [logStep_eq]
  simp only [onRecord]
  split <;> simp

@[simp] theorem logStep_currentStep (d : Driver) (now : Instant) (step : String)
    (entries : List LogEntry) :
    (d.logStep now step entries).record.currentStep = d.record.currentStep := by
  rw [logStep_eq]
  simp only [onRecord]
  split <;> simp

/-- What an edge or an error makes of a running flow: it runs on or completes in the same epoch, or
it is paused in the next one.  It stays on some step, and nothing but the record and the epoch
changes. -/
structure Routed (d d' : Driver) : Prop where
  rest : d' = { d with record := d'.record, epoch := d'.epoch }
  going : d'.record.state = .paused ∧ d'.epoch = d.epoch + 1 ∨
    (d'.record.state = .running ∨ d'.record.state = .completed) ∧ d'.epoch = d.epoch
  step : d.record.currentStep ≠ none → d'.record.currentStep ≠ none

section Routed

variable {d d' : Driver} (h : Routed d d')
include h

theorem Routed.definition : d'.definition = d.definition := by rw [h.rest]

theorem Routed.flow : d'.flow = d.flow := by rw [h.rest]

theorem Routed.lease : d'.lease = d.lease := by rw [h.rest]

theorem Routed.active : d'.active = d.active := by rw [h.rest]

theorem Routed.activations : d'.activations = d.activations := by rw [h.rest]

theorem Routed.requests : d'.requests = d.requests := by rw [h.rest]

theorem Routed.epoch_le : d.epoch ≤ d'.epoch := by
  rcases h.going with ⟨-, hn⟩ | ⟨-, hn⟩ <;> omega

theorem Routed.entered : d'.record.state ≠ .created := by
  rcases h.going with ⟨hgoing, -⟩ | ⟨hgoing | hgoing, -⟩ <;> rw [hgoing] <;> simp

end Routed

theorem routeError_routed {d : Driver} (now : Instant) (step : String) (e : FlowError)
    (h : d.record.state = .running) : Routed d (d.routeError now step e) := by
  unfold routeError
  simp only [logStep_eq, onRecord]
  split
  · refine ⟨rfl, .inr ⟨.inl ?_, rfl⟩, fun _ => Option.some_ne_none _⟩
    simp only [Record.advanceTo_state, Record.setResult_state]
    split <;> simp [h]
  · have hstep : ∀ b : Bool, (if b then
        (d.record.recordError step e.message e.cause).appendLog step none [⟨e.message, e.cause⟩] now
        else d.record.recordError step e.message e.cause).currentStep = d.record.currentStep := by
      intro b
      cases b <;> simp [Record.recordError]
    split
    · exact ⟨rfl, .inr ⟨.inr rfl, rfl⟩, fun hc hn => hc ((hstep _).symm.trans hn)⟩
    · exact ⟨rfl, .inl ⟨rfl, rfl⟩, fun hc hn => hc ((hstep _).symm.trans hn)⟩

/-- The record of a flow whose step takes an edge, before the edge stops the flow. -/
def edgeRecord (d : Driver) (now : Instant) (step : String) (t : Transition) : Record :=
  let r := if d.keepsLog step then d.record.appendLog step none t.log now else d.record
  let r := if d.completes step then r.markCompleted step else r
  let r := t.result.elim r r.setResult
  t.target.elim r r.advanceTo

theorem edgeRecord_state (d : Driver) (now : Instant) (step : String) (t : Transition) :
    (d.edgeRecord now step t).state = d.record.state := by
  have hlog : (if d.keepsLog step then d.record.appendLog step none t.log now
      else d.record).state = d.record.state := by
    split <;> simp
  unfold edgeRecord
  cases t.target <;> cases t.result <;> by_cases hc : d.completes step <;> simpa [hc] using hlog

theorem edgeRecord_step {d : Driver} (now : Instant) (step : String) (t : Transition)
    (h : d.record.currentStep ≠ none) : (d.edgeRecord now step t).currentStep ≠ none := by
  have hlog : (if d.keepsLog step then d.record.appendLog step none t.log now
      else d.record).currentStep = d.record.currentStep := by
    split <;> simp
  unfold edgeRecord
  cases t.target with
  | some target => exact Option.some_ne_none _
  | none =>
    cases t.result <;> by_cases hc : d.completes step <;> simpa [hc, Record.setResult, hlog] using h

theorem takeEdge_eq (d : Driver) (now : Instant) (step : String) (t : Transition) :
    d.takeEdge now step t =
      match t.state with
      | some .completed => d.onRecord fun _ =>
        (d.edgeRecord now step t).complete (finalResult (d.edgeRecord now step t).result)
      | some .paused => d.nextEpoch.onRecord fun _ => (d.edgeRecord now step t).pause
      | _ => d.onRecord fun _ => d.edgeRecord now step t := by
  unfold takeEdge edgeRecord
  simp only [logStep_eq]
  have hc : ∀ f, (d.onRecord f).completes step = d.completes step := fun _ => rfl
  rw [hc]
  cases t.target <;> cases t.result <;> by_cases h : d.completes step <;> simp only [h] <;> rfl

theorem takeEdge_routed {d : Driver} (now : Instant) (step : String) (t : Transition)
    (h : d.record.state = .running) : Routed d (d.takeEdge now step t) := by
  have hr : (d.edgeRecord now step t).state = .running := by rw [edgeRecord_state, h]
  rw [takeEdge_eq]
  split
  · exact ⟨rfl, .inr ⟨.inr rfl, rfl⟩, edgeRecord_step now step t⟩
  · exact ⟨rfl, .inl ⟨rfl, rfl⟩, edgeRecord_step now step t⟩
  · exact ⟨rfl, .inr ⟨.inl hr, rfl⟩, edgeRecord_step now step t⟩

theorem applyEdge_routed {d : Driver} (now : Instant) (step : String) (t : Transition)
    (h : d.record.state = .running) : Routed d (d.applyEdge now step t) := by
  unfold applyEdge
  split
  · exact routeError_routed now step _ h
  · exact takeEdge_routed now step t h

theorem applyDecision_routed {d : Driver} (now : Instant) (step : String) (decision : Decision)
    (h : d.record.state = .running) : Routed d (d.applyDecision now step decision) := by
  cases decision with
  | ok t => exact applyEdge_routed now step t h
  | error e => exact routeError_routed now step e h

/-- An update only changes the record, and never its state or its current step. -/
theorem applyUpdate_eq (d : Driver) (now : Instant) (step : String) (update : StepUpdate) :
    ∃ r : Record, r.state = d.record.state ∧ r.currentStep = d.record.currentStep ∧
      d.applyUpdate now step update = { d with record := r } := by
  cases update with
  | taskCreated task => exact ⟨(d.record.recordTask step task).touch now, rfl, rfl, rfl⟩
  | taskResult r entries =>
    refine ⟨_, ?_, ?_, rfl⟩ <;> simp only [Record.touch, onRecord] <;> split <;>
      simp [Record.saveResult]
  | log task entries =>
    refine ⟨_, ?_, ?_, rfl⟩ <;> simp only [Record.touch, onRecord] <;> split <;> simp

theorem applyUpdate_result (d : Driver) (now : Instant) (step : String) (update : StepUpdate) :
    (d.applyUpdate now step update).record.result = d.record.result := by
  have kept : ∀ (task : Option TaskId) (entries : List LogEntry) (r : Record),
      (if d.keepsLog step then r.appendLog step task entries now else r).result = r.result := by
    intro task entries r
    split <;> simp
  cases update with
  | taskCreated => rfl
  | taskResult r entries => exact kept (some r.task) entries (d.record.saveResult step r)
  | log task entries => exact kept task entries d.record

@[simp] theorem abortActive_active (d : Driver) : d.abortActive.active = none := by
  unfold abortActive
  split
  · rfl
  · assumption

section AbortActive

variable (d : Driver)

@[simp] theorem abortActive_epoch : d.abortActive.epoch = d.epoch := by
  unfold abortActive
  split <;> rfl

@[simp] theorem abortActive_record : d.abortActive.record = d.record := by
  unfold abortActive
  split <;> rfl

@[simp] theorem abortActive_definition : d.abortActive.definition = d.definition := by
  unfold abortActive
  split <;> rfl

@[simp] theorem abortActive_flow : d.abortActive.flow = d.flow := by
  unfold abortActive
  split <;> rfl

@[simp] theorem abortActive_lease : d.abortActive.lease = d.lease := by
  unfold abortActive
  split <;> rfl

@[simp] theorem abortActive_requests : d.abortActive.requests = d.requests := by
  unfold abortActive
  split <;> rfl

@[simp] theorem abortActive_activations : d.abortActive.activations =
    d.active.elim d.activations fun i => d.activations.modify i .abort := by
  unfold abortActive
  split <;> simp [*, onActivation]

end AbortActive

section Launch

variable (d : Driver) (now : Nat) (step : String) (l : StepLaunch)

@[simp] theorem launch_epoch : (d.launch now step l).epoch = d.epoch + 1 := by
  simp [launch, logStep_eq, onRecord, nextEpoch]

@[simp] theorem launch_active : (d.launch now step l).active = some d.activations.length := by
  simp [launch, logStep_eq, onRecord, nextEpoch]

@[simp] theorem launch_activations : (d.launch now step l).activations =
    d.activations ++ [.start step (d.epoch + 1) now l] := by
  simp [launch, logStep_eq, onRecord, nextEpoch]

@[simp] theorem launch_requests : (d.launch now step l).requests = d.requests := by
  simp [launch, logStep_eq, onRecord, nextEpoch]

@[simp] theorem launch_definition : (d.launch now step l).definition = d.definition := by
  simp [launch, logStep_eq, onRecord, nextEpoch]

@[simp] theorem launch_flow : (d.launch now step l).flow = d.flow := by
  simp [launch, logStep_eq, onRecord, nextEpoch]

@[simp] theorem launch_lease : (d.launch now step l).lease = d.lease := by
  simp [launch, logStep_eq, onRecord, nextEpoch]

@[simp] theorem launch_currentStep :
    (d.launch now step l).record.currentStep = d.record.currentStep :=
  logStep_currentStep d.nextEpoch ..

@[simp] theorem launch_state : (d.launch now step l).record.state = d.record.state :=
  logStep_state d.nextEpoch ..

end Launch

/-! ### Rules of the sections -/

/-- Saving after an edge or an error: the save fails, the flow runs on, or it has settled. -/
@[elab_as_elim] theorem carryOn_rule {motive : Request × Driver × Services → Prop}
    (d : Driver) (s : Services) (now : Nat)
    (failed : ∀ e, (d.persist s now).1 = .error e →
      motive (.answered (.error e), (d.persist s now).2))
    (going : (d.persist s now).1 = .ok () → d.record.state = .running →
      motive (.ready, (d.persist s now).2))
    (settled : (d.persist s now).1 = .ok () → d.record.state ≠ .running →
      motive (.answered (.ok ()), (d.persist s now).2.1.settle (d.persist s now).2.2)) :
    motive (d.carryOn s now) := by
  unfold carryOn
  rcases hp : d.persist s now with ⟨saved, d', s'⟩
  rw [hp] at failed going settled
  have hstate : d'.record.state = d.record.state := by
    rw [← persist_record_state d s now, hp]
  cases saved with
  | error e => exact failed e rfl
  | ok u =>
    by_cases hrun : d.record.state = .running
    · have : d'.isRunning = true := by simp [isRunning, hstate, hrun]
      simpa only [this, if_true] using going rfl hrun
    · have : d'.isRunning = false := by simpa [isRunning, hstate] using hrun
      simpa only [this, Bool.false_eq_true, if_false] using settled rfl hrun

section CarryOn

variable (d : Driver) (s : Services) (now : Nat)

@[simp] theorem carryOn_epoch : (d.carryOn s now).2.1.epoch = d.epoch :=
  carryOn_rule d s now (fun _ _ => rfl) (fun _ _ => rfl) (fun _ _ => by simp)

@[simp] theorem carryOn_active : (d.carryOn s now).2.1.active = d.active :=
  carryOn_rule d s now (fun _ _ => rfl) (fun _ _ => rfl) (fun _ _ => by simp)

@[simp] theorem carryOn_activations : (d.carryOn s now).2.1.activations = d.activations :=
  carryOn_rule d s now (fun _ _ => rfl) (fun _ _ => rfl) (fun _ _ => by simp)

@[simp] theorem carryOn_requests : (d.carryOn s now).2.1.requests = d.requests :=
  carryOn_rule d s now (fun _ _ => rfl) (fun _ _ => rfl) (fun _ _ => by simp)

@[simp] theorem carryOn_definition : (d.carryOn s now).2.1.definition = d.definition :=
  carryOn_rule d s now (fun _ _ => rfl) (fun _ _ => rfl) (fun _ _ => by simp)

@[simp] theorem carryOn_flow : (d.carryOn s now).2.1.flow = d.flow :=
  carryOn_rule d s now (fun _ _ => rfl) (fun _ _ => rfl) (fun _ _ => by simp)

@[simp] theorem carryOn_currentStep :
    (d.carryOn s now).2.1.record.currentStep = d.record.currentStep :=
  carryOn_rule d s now (fun _ _ => rfl) (fun _ _ => rfl) (fun _ _ => by simp [Record.touch])

@[simp] theorem carryOn_state : (d.carryOn s now).2.1.record.state = d.record.state :=
  carryOn_rule d s now (fun _ _ => rfl) (fun _ _ => rfl) (fun _ _ => by simp)

/-- A request goes on with the next step, or is answered. -/
theorem carryOn_request_ne_executing (e : Execution) : (d.carryOn s now).1 ≠ .executing e :=
  carryOn_rule d s now (fun _ _ => by simp) (fun _ _ => by simp) (fun _ _ => by simp)

end CarryOn

/-- A flow that was created enters its first step, or is refused. -/
@[elab_as_elim] theorem start_rule {motive : Except FlowError Unit × Driver × Services → Prop}
    (d : Driver) (s : Services) (now : Nat)
    (refused : d.record.state ≠ .created →
      motive (.error (.invalidState (.notCreated d.flow d.record.state)), d, s))
    (unleased : ∀ e s', d.record.state = .created → d.lease = none →
      s.acquire d.flow = (.error e, s') → motive (.error (.lock e), d, s'))
    (entered : ∀ lease s', d.record.state = .created → Leased d s lease s' →
      motive ((({ d with lease := some lease }.onRecord
        (·.start d.definition.firstStep)).armWatchdog now).persist s' now)) :
    motive (d.start s now) := by
  unfold start
  by_cases hc : d.record.state = .created
  · rw [if_neg (by simp [hc])]
    refine acquireLease_rule d s ?_ ?_
    · exact fun e s' hl he => unleased e s' hc hl he
    · exact fun lease s' hl => entered lease s' hc hl
  · rw [if_pos hc]
    exact refused hc

/-- The record with which a stored flow is resumed. -/
def resumedRecord (d : Driver) (stored : Record) : Record :=
  (stored.setResult .unknown).start d.definition.firstStep

theorem resumeFault?_ne_alreadyRunning (flow : FlowId) (stored : Record) :
    resumeFault? flow stored ≠ some (.alreadyRunning flow) := by
  unfold resumeFault?
  split
  · simp
  · split <;> simp

/-- A stored flow is resumed, or there is a reason why not. -/
@[elab_as_elim] theorem resume_rule {motive : Except FlowError Unit × Driver × Services → Prop}
    (d : Driver) (s : Services) (now : Nat)
    (busy : d.lease.isSome ∨ d.active.isSome →
      motive (.error (.invalidState (.alreadyRunning d.flow)), d, s))
    (refused : ∀ e, d.lease = none → d.active = none →
      e ≠ .invalidState (.alreadyRunning d.flow) → motive (.error e, d, (s.find d.flow).2))
    (unleased : ∀ e s', d.lease = none → d.active = none →
      (s.find d.flow).2.acquire d.flow = (.error e, s') → motive (.error (.lock e), d, s'))
    (entered : ∀ stored lease s', d.lease = none → d.active = none →
      (s.find d.flow).1 = .ok (some stored) → resumeFault? d.flow stored = none →
      (s.find d.flow).2.acquire d.flow = (.ok lease, s') →
      motive (({ d.nextEpoch with
        lease := some lease, record := d.resumedRecord stored }.armWatchdog now).persist s' now)) :
    motive (d.resume s now) := by
  unfold resume
  by_cases hbusy : d.lease.isSome ∨ d.active.isSome
  · rw [if_pos (by simpa using hbusy)]
    exact busy hbusy
  · rw [if_neg (by simpa using hbusy)]
    obtain ⟨hl, ha⟩ : d.lease = none ∧ d.active = none := by simpa [not_or] using hbusy
    rcases hf : s.find d.flow with ⟨found, s₁⟩
    rw [hf] at refused unleased entered
    match found with
    | .error e => exact refused (.store e) hl ha (by simp)
    | .ok none => exact refused (.noSuchFlow d.flow) hl ha (by simp)
    | .ok (some stored) =>
      simp only [resumeFound]
      cases hr : resumeFault? d.flow stored with
      | some fault =>
        refine refused (.invalidState fault) hl ha fun heq => ?_
        injection heq with heq
        exact resumeFault?_ne_alreadyRunning d.flow stored (heq ▸ hr)
      | none =>
        refine acquireLease_rule d s₁ ?_ ?_
        · exact fun e s' _ he => unleased e s' hl ha he
        · intro lease s' hleased
          cases hleased with
          -- a driver that had a lease would have been busy
          | had h => rw [hl] at h; cases h
          | given _ got => exact entered stored lease s' hl ha rfl hr got

/-- The driver of a running flow as it stops: a new epoch, and no crew at work. -/
def stopped (d : Driver) (change : Record → Record) : Driver :=
  d.nextEpoch.abortActive.onRecord change

section Stopped

variable (d : Driver) (change : Record → Record)

@[simp] theorem stopped_epoch : (d.stopped change).epoch = d.epoch + 1 := by
  simp [stopped, onRecord, nextEpoch]

@[simp] theorem stopped_record : (d.stopped change).record = change d.record := by
  simp [stopped, onRecord, nextEpoch]

@[simp] theorem stopped_definition : (d.stopped change).definition = d.definition := by
  simp [stopped, onRecord, nextEpoch]

@[simp] theorem stopped_flow : (d.stopped change).flow = d.flow := by
  simp [stopped, onRecord, nextEpoch]

@[simp] theorem stopped_lease : (d.stopped change).lease = d.lease := by
  simp [stopped, onRecord, nextEpoch]

@[simp] theorem stopped_active : (d.stopped change).active = none := by
  simp [stopped, onRecord]

@[simp] theorem stopped_requests : (d.stopped change).requests = d.requests := by
  simp [stopped, onRecord, nextEpoch]

end Stopped

/-- A running flow is paused; any other is left as it is. -/
@[elab_as_elim] theorem pause_rule {motive : Except FlowError Unit × Driver × Services → Prop}
    (d : Driver) (s : Services) (now : Nat)
    (paused : d.record.state = .paused → motive (.ok (), d, s))
    (refused : d.record.state ≠ .running → d.record.state ≠ .paused →
      motive (.error (.invalidState (.cannotPause d.flow d.record.state)), d, s))
    (stopped : d.record.state = .running →
      motive (((d.stopped .pause).persist s now).1,
        ((d.stopped .pause).persist s now).2.1.settle ((d.stopped .pause).persist s now).2.2)) :
    motive (d.pause s now) := by
  unfold pause
  split
  · exact paused ‹_›
  · exact stopped ‹_›
  · rename_i hpaused hrunning
    exact refused hrunning hpaused

/-- A flow that is not running is put on a step. -/
@[elab_as_elim] theorem moveTo_rule {motive : Except FlowError Unit × Driver × Services → Prop}
    (d : Driver) (s : Services) (now : Nat) (step : String)
    (refused : ∀ e, motive (.error e, d, s))
    (moved : d.definition.hasStep step → d.record.state ≠ .running →
      motive ((d.onRecord (·.advanceTo step)).persist s now)) :
    motive (d.moveTo s now step) := by
  unfold moveTo
  split
  · exact refused _
  · rename_i known
    by_cases h : d.isRunning
    · rw [if_pos h]
      exact refused _
    · rw [if_neg h]
      exact moved (by simpa using known) (by simpa [isRunning] using h)

/-- A request that looks at the record is answered, or executes the current step. -/
@[elab_as_elim] theorem look_rule {motive : Request × Services → Prop}
    (d : Driver) (s : Services) (now : Nat)
    (idle : d.record.state ≠ .running ∨ d.active.isSome → motive (.answered (.ok ()), s))
    (lost : d.record.state = .running → d.active = none → d.record.currentStep = none →
      motive (.answered (.error (.invalidState (.noCurrentStep d.flow))), s))
    (executes : ∀ e s', d.record.state = .running → d.active = none →
      d.record.currentStep = some e.step → e.epoch = d.epoch → s' = { s with turns := s'.turns } →
      motive (.executing e, s')) :
    motive (d.look s now) := by
  unfold look
  by_cases hidle : d.record.state ≠ .running ∨ d.active.isSome
  · rw [if_pos (by simpa [isRunning] using hidle)]
    exact idle hidle
  · rw [if_neg (by simpa [isRunning] using hidle)]
    obtain ⟨hrun, ha⟩ : d.record.state = .running ∧ d.active = none := by
      simpa [not_or] using hidle
    cases hc : d.record.currentStep with
    | none => exact lost hrun ha hc
    | some id =>
      cases hs : d.definition.step? id with
      | none => simpa [hs] using executes ⟨id, d.epoch, now, _⟩ s hrun ha hc rfl rfl
      | some step =>
        simp only [hs]
        exact executes ⟨id, d.epoch, _, _⟩ _ hrun ha hc rfl rfl

/-- A step that has answered: its answer is dropped, taken as an edge or an error, or the flow
waits, perhaps for tasks that it launches. -/
@[elab_as_elim] theorem conclude_rule {motive : Request × Driver × Services → Prop}
    (d : Driver) (s : Services) (now : Nat) (e : Execution)
    (dropped : ∀ s', d.epoch ≠ e.epoch ∨ d.record.state ≠ .running → s' = { s with ids := s'.ids } →
      motive (.answered (.ok ()), d, s'))
    (carried : ∀ decision s', d.epoch = e.epoch → d.record.state = .running →
      s' = { s with ids := s'.ids } → (e.answer s.ids.tasks).1.decision? = some decision →
      motive ((d.applyDecision (.ofVirtualMs now) e.step decision).carryOn s' now))
    (waits : ∀ log s' d', d.epoch = e.epoch → d.record.state = .running →
      s' = { s with ids := s'.ids } → (e.answer s.ids.tasks).1.Waits none →
      d' = d.logStep (.ofVirtualMs now) e.step log →
      motive (.answered (d'.persist s' now).1,
        (d'.persist s' now).2.1.releaseLease (d'.persist s' now).2.2))
    (launches : ∀ log l s' d', d.epoch = e.epoch → d.record.state = .running →
      s' = { s with ids := s'.ids } → (e.answer s.ids.tasks).1.Waits (some l) →
      d' = (d.logStep (.ofVirtualMs now) e.step log).launch now e.step l →
      motive (.answered (d'.persist s' now).1,
        (d'.persist s' now).2.1.releaseLease (d'.persist s' now).2.2)) :
    motive (d.conclude s now e) := by
  unfold conclude
  rcases hs : s.drawing e.answer with ⟨answer, s'⟩
  have hids : s' = { s with ids := s'.ids } := by
    obtain rfl : (s.drawing e.answer).2 = s' := by rw [hs]
    rfl
  by_cases hstale : d.epoch ≠ e.epoch ∨ d.record.state ≠ .running
  · simp only
    rw [if_pos (by simpa [isRunning] using hstale)]
    exact dropped s' hstale hids
  · simp only
    rw [if_neg (by simpa [isRunning] using hstale)]
    obtain ⟨he, hrun⟩ : d.epoch = e.epoch ∧ d.record.state = .running := by
      simpa [not_or] using hstale
    have hanswer : (e.answer s.ids.tasks).1 = answer := by
      obtain rfl : (s.drawing e.answer).1 = answer := by rw [hs]
      rfl
    -- an error and an edge are carried out; without an edge the launch is looked at
    rw [hanswer] at carried waits launches
    cases ho : answer.outcome with
    | error err => exact carried (.error err) s' he hrun hids (by simp [StepAnswer.decision?, ho])
    | ok t =>
      by_cases hedge : t.isEdge
      · simp only [hedge, if_true]
        exact carried (.ok t) s' he hrun hids (by simp [StepAnswer.decision?, ho, hedge])
      · have undecided : answer.decision? = none := by simp [StepAnswer.decision?, ho, hedge]
        simp only [hedge, Bool.false_eq_true, if_false]
        cases hl : answer.launch with
        | none => exact waits t.log s' _ he hrun hids ⟨undecided, hl⟩ rfl
        | some l => exact launches t.log l s' _ he hrun hids ⟨undecided, hl⟩ rfl

/-! ### Rules of what happens to launched tasks -/

/-- An update is dropped, or changes the record and is saved. -/
@[elab_as_elim] theorem saveUpdate_rule {motive : Except FlowError Unit × Driver × Services → Prop}
    (d : Driver) (s : Services) (now epoch : Nat) (step : String) (update : StepUpdate)
    (stale : d.epoch ≠ epoch → motive (.ok (), d, s))
    (saved : ∀ r : Record, d.epoch = epoch → r.state = d.record.state →
      r.currentStep = d.record.currentStep →
      motive ((s.save r).1.mapError .store, { d with record := r }, (s.save r).2)) :
    motive (d.saveUpdate s now epoch step update) := by
  unfold saveUpdate
  by_cases h : d.epoch = epoch
  · rw [if_neg (by simpa using h)]
    obtain ⟨r, hr, hstep, heq⟩ := applyUpdate_eq d (.ofVirtualMs now) step update
    simp only [heq]
    exact saved r h hr hstep
  · rw [if_pos h]
    exact stale h

/-- A driver whose activation was decided, before the decision takes effect. -/
def retired (d : Driver) : Driver := d.nextEpoch.abortActive

section Retired

variable (d : Driver)

@[simp] theorem retired_epoch : d.retired.epoch = d.epoch + 1 := abortActive_epoch d.nextEpoch

@[simp] theorem retired_record : d.retired.record = d.record := abortActive_record d.nextEpoch

@[simp] theorem retired_definition : d.retired.definition = d.definition :=
  abortActive_definition d.nextEpoch

@[simp] theorem retired_flow : d.retired.flow = d.flow := abortActive_flow d.nextEpoch

@[simp] theorem retired_lease : d.retired.lease = d.lease := abortActive_lease d.nextEpoch

@[simp] theorem retired_active : d.retired.active = none := abortActive_active d.nextEpoch

@[simp] theorem retired_requests : d.retired.requests = d.requests :=
  abortActive_requests d.nextEpoch

end Retired

/-- A decision is dropped, finds no lease, or retires the activation and takes effect. -/
@[elab_as_elim] theorem decide_rule {motive : Driver × Services → Prop}
    (d : Driver) (s : Services) (now epoch : Nat) (step : String) (decision : Decision)
    (stale : d.epoch ≠ epoch ∨ d.record.state ≠ .running → motive (d, s))
    (unleased : ∀ e s', d.epoch = epoch → d.record.state = .running → d.retired.lease = none →
      s.acquire d.retired.flow = (.error e, s') → motive (d.retired, s'))
    (decided : ∀ lease s' d', d.epoch = epoch → d.record.state = .running →
      Leased d.retired s lease s' →
      d' = { d.retired with lease := some lease }.applyDecision (.ofVirtualMs now) step decision →
      motive ((d'.carryOn s' now).2.1.addRequest (d'.carryOn s' now).1,
        (d'.carryOn s' now).2.2)) :
    motive (d.decide s now epoch step decision) := by
  unfold decide
  by_cases hstale : d.epoch ≠ epoch ∨ d.record.state ≠ .running
  · rw [if_pos (by simpa [isRunning] using hstale)]
    exact stale hstale
  · rw [if_neg (by simpa [isRunning] using hstale)]
    obtain ⟨he, hrun⟩ : d.epoch = epoch ∧ d.record.state = .running := by
      simpa [not_or] using hstale
    refine acquireLease_rule d.nextEpoch.abortActive s ?_ ?_
    · exact fun e s' hl ha => unleased e s' he hrun hl ha
    · exact fun lease s' hl => decided lease s' _ he hrun hl rfl

/-- The deadline of a running flow ends it; that of any other changes nothing else. -/
@[elab_as_elim] theorem expire_rule {motive : Driver × Services → Prop}
    (d : Driver) (s : Services) (now : Nat)
    (idle : d.record.state ≠ .running → motive ({ d with watchdog := none }, s))
    (expired : ∀ d', d.record.state = .running →
      d' = { d with watchdog := none }.stopped (fun r =>
        (r.recordError (d.record.currentStep.getD "") d.deadlineMessage none).complete .timeout) →
      motive ((d'.persist s now).2.1.releaseLease (d'.persist s now).2.2)) :
    motive (d.expire s now) := by
  unfold expire
  by_cases h : d.record.state = .running
  · rw [if_neg (by simp [isRunning, h])]
    refine expired _ h ?_
    unfold stopped abortActive
    split <;> rfl
  · rw [if_pos (by simpa [isRunning] using h)]
    exact idle h

/-! ### Rules of the moves of launched tasks -/

section Moves

variable {motive : Driver × Services → Prop} (d : Driver) (s : Services) (now i : Nat)

/-- Something happens to a crew, and to nothing else of the driver. -/
@[elab_as_elim] theorem work_rule (idle : motive (d, s))
    (worked : ∀ a a' polls trace, d.activations[i]? = some a →
      a.work? now s.polls = some (a', polls, trace) →
      motive (d.onActivation i fun _ => a', { s with polls := polls, trace := s.trace ++ trace })) :
    motive (d.perform s now (.work i)) := by
  simp only [perform]
  cases ha : d.activations[i]? with
  | none => exact idle
  | some a =>
    cases hw : a.work? now s.polls with
    | none => simpa [hw] using idle
    | some w => simpa [hw] using worked a w.1 w.2.1 w.2.2 ha hw

/-- A listener hears an event, and nothing else happens. -/
@[elab_as_elim] theorem hear_rule (idle : motive (d, s))
    (heard : ∀ a a', d.activations[i]? = some a → a.hear? = some a' →
      motive (d.onActivation i fun _ => a', s)) :
    motive (d.perform s now (.hear i)) := by
  simp only [perform]
  cases ha : d.activations[i]? with
  | none => exact idle
  | some a =>
    cases hh : a.hear? with
    | none => simpa [hh] using idle
    | some a' => simpa [hh] using heard a a' ha hh

/-- The next update of an activation reaches the driver. -/
@[elab_as_elim] theorem save_rule (idle : motive (d, s))
    (saved : ∀ a update rest r, d.activations[i]? = some a → a.updates = update :: rest →
      r = d.saveUpdate s now a.epoch a.step update →
      motive (r.2.1.onActivation i fun a =>
        { a with updates := rest, failure := match r.1 with | .ok _ => none | .error e => some e },
        r.2.2)) :
    motive (d.perform s now (.save i)) := by
  simp only [perform]
  cases ha : d.activations[i]? with
  | none => exact idle
  | some a =>
    simp only
    split
    · exact saved a _ _ _ ha ‹_› rfl
    · exact idle

/-- The decision of an activation reaches the driver. -/
@[elab_as_elim] theorem tell_rule (idle : motive (d, s))
    (told : ∀ a decision, d.activations[i]? = some a → a.decision? = some decision →
      motive ((d.onActivation i .tell).decide s now a.epoch a.step decision)) :
    motive (d.perform s now (.decide i)) := by
  simp only [perform]
  cases ha : d.activations[i]? with
  | none => exact idle
  | some a =>
    cases hd : a.decision? with
    | none => simpa [hd] using idle
    | some decision => simpa [hd] using told a decision ha hd

end Moves

end Driver

namespace Activation

theorem work?_stamp {a a' : Activation} {now : Nat} {polls polls' : PollCounts}
    {trace : List TraceEntry} (h : a.work? now polls = some (a', polls', trace)) :
    a'.epoch = a.epoch ∧ a'.aborted = a.aborted := by
  unfold work? at h
  split at h
  · cases h
  · obtain ⟨w, -, hw⟩ := Option.map_eq_some_iff.1 h
    cases hw
    exact ⟨rfl, rfl⟩

theorem hear?_stamp {a a' : Activation} (h : a.hear? = some a') :
    a'.epoch = a.epoch ∧ a'.aborted = a.aborted := by
  unfold hear? at h
  split at h
  · cases h
    exact ⟨rfl, rfl⟩
  · cases h

theorem work?_listener {a a' : Activation} {now : Nat} {polls polls' : PollCounts}
    {trace : List TraceEntry} (h : a.work? now polls = some (a', polls', trace)) :
    a'.listener = a.listener := by
  unfold work? at h
  split at h
  · cases h
  · obtain ⟨w, -, hw⟩ := Option.map_eq_some_iff.1 h
    cases hw
    rfl

theorem hear?_listener {a a' : Activation} (h : a.hear? = some a') :
    ∃ event, a'.listener = (a.listener.hear event).1 := by
  unfold hear? at h
  split at h
  · cases h
    exact ⟨_, rfl⟩
  · cases h

theorem tell_listener (a : Activation) : a.tell.listener = a.listener := by
  unfold tell
  split <;> rfl

theorem tell_stamp (a : Activation) : a.tell.epoch = a.epoch ∧ a.tell.aborted = a.aborted := by
  unfold tell
  split <;> exact ⟨rfl, rfl⟩

end Activation

end Workflow
