import Workflow.Proofs.Flow.DriveLoops
import Workflow.Proofs.Flow.Routing

/-!
# Workflow.Proofs.Flow.Stranding — when a running flow has nothing that moves it

A running flow is moved by a request that goes on, or by the activation that it waits for.  There
are two ways to lose both.  A step may answer with no edge and launch nothing; then the flow waits
for its operator.  And a decision retires its activation before it takes out the lease; if the lock
service refuses the lease, the decision is lost with it.  Nothing else strands a flow as long as no
save fails (`stranded_iff`), and no other decision about the current epoch is lost.
-/

namespace Workflow

namespace Driver

/-! ### What moves a flow, and how that is lost -/

/-- If the flow runs, then a request goes on or an activation is active. -/
def Moving (d : Driver) : Prop :=
  d.record.state = .running → (∃ i, d.Alive i) ∨ d.active ≠ none

/-- The event concludes a step of the current epoch, and its answer is a bare wait. -/
def Concludes (x : Driver × Services) (launch : Option StepLaunch) : Event → Prop
  | .move now (.proceed i) => x.1.isRunning ∧ ∃ e, x.1.requests[i]? = some (.executing e) ∧
    e.due ≤ now ∧ e.epoch = x.1.epoch ∧ (e.answer x.2.ids.tasks).1.Waits launch
  | _ => False

/-- A step answers with no edge and launches nothing. -/
def Waits (x : Driver × Services) (e : Event) : Prop := Concludes x none e

/-- A step launches tasks. -/
def Launches (x : Driver × Services) (e : Event) : Prop := ∃ l, Concludes x (some l) e

/-- The driver has no lease, and the lock service refuses one. -/
def Refused (d : Driver) (s : Services) : Prop :=
  d.lease = none ∧ ∃ err s', s.acquire d.flow = (.error err, s')

/-- A decision about an activation of the current epoch gets no lease. -/
def Refuses (x : Driver × Services) (e : Event) : Prop :=
  (∃ i, Decides x.1 i e) ∧ Refused x.1 x.2

/-- A call enters the flow. -/
def Enters (x : Driver × Services) : Event → Prop
  | .move now .start => (x.1.start x.2 now).1 = .ok ()
  | .move now .resume => (x.1.resume x.2 now).1 = .ok ()
  | _ => False

/-- A call enters the flow, or the outcome of a step is applied. -/
def Drives (x : Driver × Services) (e : Event) : Prop := Enters x e ∨ Applies x.1 e

theorem Concludes.applies {x : Driver × Services} {launch : Option StepLaunch} {e : Event}
    (h : Concludes x launch e) : Applies x.1 e := by
  cases e with
  | move now move =>
    cases move with
    | proceed i =>
      obtain ⟨running, e, executing, due, current, -⟩ := h
      exact ⟨running, e, executing, due, current⟩
    | _ => exact absurd h id
  | _ => exact absurd h id

theorem Moving.of_not_running {d : Driver} (h : d.record.state ≠ .running) : d.Moving :=
  fun running => absurd running h

theorem Moving.of_alive {d : Driver} {i : Nat} (h : d.Alive i) : d.Moving := fun _ => .inl ⟨i, h⟩

theorem Moving.congr {d d' : Driver} (h : d.Moving)
    (state : d'.record.state = .running → d.record.state = .running)
    (requests : d'.requests = d.requests) (epoch : d'.epoch = d.epoch)
    (active : d'.active = d.active) : d'.Moving := by
  intro running
  rcases h (state running) with ⟨i, hi⟩ | waits
  · exact .inl ⟨i, hi.congr requests epoch⟩
  · exact .inr (active ▸ waits)

theorem Moving.addRequest {d : Driver} (h : d.Moving) (r : Request) : (d.addRequest r).Moving := by
  intro running
  rcases h running with ⟨i, hi⟩ | waits
  · exact .inl ⟨i, alive_addRequest.2 (.inl hi)⟩
  · exact .inr waits

/-! ### Saves that do not fail -/

theorem persist_saving (d : Driver) (s : Services) (now : Nat) :
    (d.persist s now).2.2.saving = s.saving.call.2 :=
  congrArg View.saving (persist_view d s now)

theorem carryOn_saving (d : Driver) (s : Services) (now : Nat) :
    (d.carryOn s now).2.2.saving = s.saving.call.2 :=
  congrArg View.saving (carryOn_view d s now)

/-- An event that saves something and does not fail to do so finds a store that works. -/
theorem works_of_saved {x : Driver × Services} {e : Event} (saved : ¬ FailsToSave x e)
    (own : e.IsOwn) (counted : (happen x e).2.saving = x.2.saving.call.2) :
    x.2.saving.call.1 = false := by
  cases fails : x.2.saving.call.1 with
  | false => rfl
  | true =>
    refine absurd ⟨own, ?_, fails⟩ saved
    rw [counted]
    exact Nat.succ_ne_self x.2.saving.calls

section Idle

variable {d : Driver} (idle : d.active = none) (s : Services) (now : Nat)
include idle

theorem conclude_idle {e : Execution}
    (unlaunched : d.epoch = e.epoch → d.record.state = .running →
      ∀ l, ¬ (e.answer s.ids.tasks).1.Waits (some l)) :
    (d.conclude s now e).2.1.active = none := by
  refine conclude_rule (motive := fun r => r.2.1.active = none) d s now e
    ?dropped ?carried ?waits ?launches
  case dropped => exact fun _ _ _ => idle
  case carried =>
    intro decision s' _ running _ _
    have routed := applyDecision_routed (.ofVirtualMs now) e.step decision running
    exact ((carryOn_active ..).trans routed.active).trans idle
  case waits =>
    rintro log s' d' _ _ _ _ rfl
    rw [releaseLease_driver, logStep_eq]
    exact idle
  case launches =>
    intro _ l _ _ current running _ waits _
    exact absurd waits (unlaunched current running l)

theorem decide_idle (epoch : Nat) (step : String) (decision : Decision) :
    (d.decide s now epoch step decision).1.active = none := by
  refine decide_rule (motive := fun r => r.1.active = none) d s now epoch step decision
    (fun _ => idle) (fun _ _ _ _ _ _ => retired_active d) ?_
  rintro lease s' d' _ running _ rfl
  have running' : { d.retired with lease := some lease }.record.state = .running :=
    (congrArg Record.state (retired_record d)).trans running
  have routed := applyDecision_routed (.ofVirtualMs now) step decision running'
  exact ((carryOn_active ..).trans routed.active).trans (retired_active d)

theorem saveUpdate_idle (epoch : Nat) (step : String) (update : StepUpdate) :
    (d.saveUpdate s now epoch step update).2.1.active = none :=
  saveUpdate_rule (motive := fun r => r.2.1.active = none) d s now epoch step update
    (fun _ => idle) fun _ _ _ _ => idle

theorem perform_idle (move : Move) (unlaunched : ¬ Launches (d, s) (.move now move)) :
    (d.perform s now move).1.active = none := by
  cases move with
  | start =>
    exact start_rule (motive := fun r => (requesting r).1.active = none) d s now
      (fun _ => idle) (fun _ _ _ _ _ => idle) fun _ _ _ _ => idle
  | resume =>
    exact resume_rule (motive := fun r => (requesting r).1.active = none) d s now
      (fun _ => idle) (fun _ _ _ _ => idle) (fun _ _ _ _ _ => idle) fun _ _ _ _ _ _ _ _ => idle
  | pause =>
    refine pause_rule (motive := fun r => (answering r).1.active = none) d s now
      (fun _ => idle) (fun _ _ => idle) fun _ => ?_
    simp [answering, addRequest]
  | moveTo step =>
    exact moveTo_rule (motive := fun r => (answering r).1.active = none) d s now step
      (fun _ => idle) fun _ _ => idle
  | proceed i =>
    simp only [perform, proceed]
    split
    · exact idle
    · rename_i e executing
      split
      · -- the step has answered, but launches nothing
        rename_i due
        refine conclude_idle idle s now fun current running l waits => unlaunched ⟨l, ?_⟩
        exact ⟨by simp [isRunning, running], e, executing, due, current.symm, waits⟩
      · exact idle
    · exact idle
  | work i => exact work_rule d s now i idle fun _ _ _ _ _ _ => idle
  | hear i => exact hear_rule d s now i idle fun _ _ _ _ => idle
  | save i =>
    refine save_rule d s now i idle ?_
    rintro a update rest r _ _ rfl
    exact saveUpdate_idle idle s now ..
  | decide i =>
    exact tell_rule d s now i idle fun a decision _ _ =>
      decide_idle (d := d.onActivation i .tell) idle s now ..
  | expire =>
    simp only [perform]
    split
    · refine expire_rule d s now (fun _ => idle) ?_
      rintro d' _ rfl
      simp
    · exact idle

omit now in
/-- Only a launch makes an activation active. -/
theorem happen_idle (e : Event) (unlaunched : ¬ Launches (d, s) e) :
    (happen (d, s) e).1.active = none := by
  cases e with
  | move now move => exact perform_idle idle s now move unlaunched
  | update now i update =>
    simp only [happen]
    split
    · exact saveUpdate_idle idle s now ..
    · exact idle
  | decision now i decision =>
    simp only [happen]
    split
    · exact decide_idle idle s now ..
    · exact idle
  | outside change => exact idle

end Idle

/-! ### What keeps a flow moving -/

section Moves

variable {d : Driver} (s : Services) (now : Nat)

/-- A request that carries on with a store that works goes on as long as the flow runs. -/
theorem carryOn_moving {d₁ d₂ : Driver} {i : Nat} (works : s.saving.call.1 = false)
    (rest : d₂ = { (d₁.carryOn s now).2.1 with requests := d₂.requests })
    (placed : d₂.requests[i]? = some (d₁.carryOn s now).1) : d₂.Moving := by
  have state : d₂.record.state = d₁.record.state := by
    rw [rest]
    exact carryOn_state ..
  revert placed
  refine carryOn_rule d₁ s now ?failed ?going ?settled
  case failed =>
    intro e failed
    rw [persist_ok_iff.2 works] at failed
    cases failed
  case going =>
    exact fun _ _ placed => .of_alive (i := i) ⟨_, placed, trivial⟩
  case settled =>
    exact fun _ stopped _ => .of_not_running (state ▸ stopped)

/-- A call that has entered the flow goes on. -/
theorem enters_moving {e : Event} (enters : Enters (d, s) e) : (happen (d, s) e).1.Moving := by
  have called : ∀ r : Except FlowError Unit × Driver × Services, r.1 = .ok () →
      (requesting r).1.Moving := by
    rintro ⟨outcome, d', s'⟩ ok
    refine .of_alive (i := d'.requests.length) (alive_addRequest.2 (.inr ⟨rfl, ?_⟩))
    rw [show outcome = .ok () from ok]
    trivial
  cases e with
  | move now move =>
    cases move with
    | start => exact called _ enters
    | resume => exact called _ enters
    | _ => exact absurd enters id
  | _ => exact absurd enters id

/-- The outcome of a step that is applied keeps a running flow moving, unless the step waits. -/
theorem conclude_moving {i : Nat} {e : Execution} (executing : d.requests[i]? = some (.executing e))
    (current : d.epoch = e.epoch) (running : d.record.state = .running)
    (works : (d.conclude s now e).2.2.saving = s.saving.call.2 → s.saving.call.1 = false)
    (waits : ¬ (e.answer s.ids.tasks).1.Waits none) :
    ((d.conclude s now e).2.1.setRequest i (d.conclude s now e).1).Moving := by
  have hlt := (List.getElem?_eq_some_iff.1 executing).1
  revert works
  refine conclude_rule (motive := fun r => (r.2.2.saving = s.saving.call.2 →
    s.saving.call.1 = false) → (r.2.1.setRequest i r.1).Moving) d s now e
    ?dropped ?carried ?waits ?launches
  case dropped =>
    intro _ stale
    exact absurd stale (by simp [current, running])
  case carried =>
    intro decision s' _ _ hs _ works
    have routed := applyDecision_routed (.ofVirtualMs now) e.step decision running
    have same : s'.saving = s.saving := by rw [hs]
    refine carryOn_moving (i := i) s' now ?_ rfl ?_
    · rw [same]
      exact works (by rw [carryOn_saving, same])
    · simp [setRequest, routed.requests, hlt]
  case waits => exact fun _ _ _ _ _ _ h _ _ => absurd h waits
  case launches =>
    rintro log l s' d' _ _ _ _ rfl _
    rw [releaseLease_driver]
    exact fun _ => .inr (by simp [setRequest])

/-- A decision that takes effect keeps a running flow moving. -/
theorem decide_moving {epoch : Nat} {step : String} {decision : Decision}
    (current : d.epoch = epoch) (running : d.record.state = .running)
    (leased : ¬ Refused d s)
    (works : (d.decide s now epoch step decision).2.saving = s.saving.call.2 →
      s.saving.call.1 = false) : (d.decide s now epoch step decision).1.Moving := by
  revert works
  refine decide_rule (motive := fun r => (r.2.saving = s.saving.call.2 →
    s.saving.call.1 = false) → r.1.Moving) d s now epoch step decision ?stale ?unleased ?decided
  case stale =>
    intro stale
    exact absurd stale (by simp [current, running])
  case unleased =>
    intro err s' _ _ free got
    rw [retired_lease] at free
    rw [retired_flow] at got
    exact absurd ⟨free, err, s', got⟩ leased
  case decided =>
    rintro lease s' d' _ _ hl rfl works
    have same : s'.saving = s.saving := congrArg Prod.snd hl.storeSide
    refine carryOn_moving (i := _) s' now ?_ rfl (List.getElem?_concat_length ..)
    rw [same]
    exact works (by rw [carryOn_saving, same])

omit now in
/-- **What is applied keeps a flow moving**, unless a step waits or a lease is refused. -/
theorem applies_moving {e : Event} (saved : ¬ FailsToSave (d, s) e) (applies : Applies d e)
    (waits : ¬ Waits (d, s) e) (refuses : ¬ Refuses (d, s) e) : (happen (d, s) e).1.Moving := by
  have leased : (∃ i, Decides d i e) → ¬ Refused d s := fun decides no => refuses ⟨decides, no⟩
  cases e with
  | move now move =>
    have works := works_of_saved saved (by simp [Event.IsOwn])
    cases move with
    | proceed i =>
      obtain ⟨running, e, executing, due, current⟩ := applies
      have hrun : d.record.state = .running := by simpa [isRunning] using running
      have waits' : ¬ (e.answer s.ids.tasks).1.Waits none :=
        fun h => waits ⟨running, e, executing, due, current, h⟩
      simp only [happen, perform, proceed, executing, due, if_true] at works ⊢
      exact conclude_moving s now executing current.symm hrun works waits'
    | decide i =>
      obtain ⟨j, decides⟩ := applies
      have leased := leased ⟨j, decides⟩
      obtain ⟨rfl, running, a, decision, ha, hd, current⟩ := decides
      have hrun : d.record.state = .running := by simpa [isRunning] using running
      simp only [happen, perform, ha, hd] at works ⊢
      exact decide_moving (d := d.onActivation i .tell) s now current.symm hrun leased works
    | _ => exact absurd applies.choose_spec id
  | decision now i decision =>
    have works := works_of_saved saved (by simp [Event.IsOwn])
    obtain ⟨j, decides⟩ := applies
    have leased := leased ⟨j, decides⟩
    obtain ⟨rfl, running, a, ha, current⟩ := decides
    have hrun : d.record.state = .running := by simpa [isRunning] using running
    simp only [happen, ha] at works ⊢
    exact decide_moving s now current.symm hrun leased works
  | _ => exact absurd applies.choose_spec id

theorem setRequest_moving (h : d.Moving) {i : Nat} {r r' : Request} (hi : d.requests[i]? = some r)
    (goes : d.record.state = .running → r.GoesOn d.epoch → r'.GoesOn d.epoch ∨ d.active ≠ none) :
    (d.setRequest i r').Moving := by
  have hlt := (List.getElem?_eq_some_iff.1 hi).1
  intro running
  rcases h running with ⟨j, hj⟩ | waits
  · by_cases same : j = i
    · subst same
      obtain ⟨q, hq, hgoes⟩ := hj
      obtain rfl : r = q := Option.some.inj (hi.symm.trans hq)
      rcases goes running hgoes with going | waits
      · exact .inl ⟨j, (alive_setRequest hlt).2 (.inr ⟨rfl, going⟩)⟩
      · exact .inr waits
    · exact .inl ⟨j, (alive_setRequest hlt).2 (.inl ⟨same, hj⟩)⟩
  · exact .inr waits

/-- A call whose save does not fail has entered the flow. -/
theorem persist_entered {d₁ : Driver} {s' : Services} (side : storeSide s' = storeSide s)
    (works : (requesting (d₁.persist s' now)).2.saving = s.saving.call.2 →
      s.saving.call.1 = false) : (d₁.persist s' now).1 = .ok () := by
  have same : s'.saving = s.saving := congrArg Prod.snd side
  refine persist_ok_iff.2 ?_
  rw [same]
  refine works ?_
  rw [← same]
  exact persist_saving d₁ s' now

variable (moving : d.Moving)
include moving

theorem start_moving (refused : (d.start s now).1 ≠ .ok ())
    (works : (requesting (d.start s now)).2.saving = s.saving.call.2 → s.saving.call.1 = false) :
    (requesting (d.start s now)).1.Moving := by
  revert refused works
  refine start_rule (motive := fun r => r.1 ≠ .ok () → ((requesting r).2.saving = s.saving.call.2 →
    s.saving.call.1 = false) → (requesting r).1.Moving) d s now ?refused ?unleased ?entered
  case refused => exact fun _ _ _ => moving.addRequest _
  case unleased => exact fun _ _ _ _ _ _ _ => moving.addRequest _
  case entered =>
    intro lease s' _ leased refused works
    exact absurd (persist_entered s now leased.storeSide works) refused

theorem resume_moving (refused : (d.resume s now).1 ≠ .ok ())
    (works : (requesting (d.resume s now)).2.saving = s.saving.call.2 → s.saving.call.1 = false) :
    (requesting (d.resume s now)).1.Moving := by
  revert refused works
  refine resume_rule (motive := fun r => r.1 ≠ .ok () → ((requesting r).2.saving =
    s.saving.call.2 → s.saving.call.1 = false) → (requesting r).1.Moving) d s now
    ?busy ?refused ?unleased ?entered
  case busy => exact fun _ _ _ => moving.addRequest _
  case refused => exact fun _ _ _ _ _ _ => moving.addRequest _
  case unleased => exact fun _ _ _ _ _ _ _ => moving.addRequest _
  case entered =>
    intro stored lease s' _ _ _ _ got refused works
    have side := (acquire_storeSide got).trans (find_storeSide ..)
    exact absurd (persist_entered s now side works) refused

theorem pause_moving : (answering (d.pause s now)).1.Moving := by
  refine pause_rule (motive := fun r => (answering r).1.Moving) d s now ?_ ?_ ?_
  · exact fun _ => moving.addRequest _
  · exact fun _ _ => moving.addRequest _
  · exact fun _ => .of_not_running (by simp [answering, addRequest])

theorem moveTo_moving (step : String) : (answering (d.moveTo s now step)).1.Moving := by
  refine moveTo_rule (motive := fun r => (answering r).1.Moving) d s now step ?_ ?_
  · exact fun _ => moving.addRequest _
  · exact fun _ stopped => .of_not_running stopped

theorem saveUpdate_moving (epoch : Nat) (step : String) (update : StepUpdate) :
    (d.saveUpdate s now epoch step update).2.1.Moving := by
  refine saveUpdate_rule (motive := fun r => r.2.1.Moving) d s now epoch step update ?_ ?_
  · exact fun _ => moving
  · exact fun r _ state _ => moving.congr (fun running => state ▸ running) rfl rfl rfl

theorem look_moving (onStep : d.OnStep) {i : Nat} (ready : d.requests[i]? = some .ready) :
    (d.setRequest i (d.look s now).1).Moving := by
  refine setRequest_moving moving ready ?_
  refine look_rule (motive := fun r => d.record.state = .running → Request.ready.GoesOn d.epoch →
    r.1.GoesOn d.epoch ∨ d.active ≠ none) d s now ?idle ?lost ?executes
  case idle =>
    intro idle running _
    rcases idle with stopped | waits
    · exact absurd running stopped
    · exact .inr (Option.isSome_iff_ne_none.1 waits)
  case lost => exact fun running _ lost => absurd lost (onStep running)
  case executes => exact fun e _ _ _ _ current _ _ _ => .inl current

/-- An answer that comes too late is dropped. -/
theorem stale_moving {i : Nat} {e : Execution} (executing : d.requests[i]? = some (.executing e))
    (stale : d.record.state = .running → d.epoch ≠ e.epoch) :
    ((d.conclude s now e).2.1.setRequest i (d.conclude s now e).1).Moving := by
  refine conclude_rule (motive := fun r => (r.2.1.setRequest i r.1).Moving) d s now e
    ?dropped ?carried ?waits ?launches
  case dropped =>
    exact fun _ _ _ => setRequest_moving moving executing
      fun running goes => absurd goes (stale running).symm
  case carried => exact fun _ _ current running _ _ => absurd current (stale running)
  case waits => exact fun _ _ _ current running _ _ _ => absurd current (stale running)
  case launches => exact fun _ _ _ _ current running _ _ _ => absurd current (stale running)

theorem staleDecision_moving {epoch : Nat} (stale : d.record.state = .running → d.epoch ≠ epoch)
    (step : String) (decision : Decision) : (d.decide s now epoch step decision).1.Moving := by
  have dropped : d.epoch ≠ epoch ∨ d.record.state ≠ .running := by
    by_cases running : d.record.state = .running
    · exact .inl (stale running)
    · exact .inr running
  rw [decide_stale dropped]
  exact moving

theorem perform_moving (onStep : d.OnStep) (move : Move)
    (saved : ¬ FailsToSave (d, s) (.move now move))
    (stays : ¬ Drives (d, s) (.move now move)) : (d.perform s now move).1.Moving := by
  have works := works_of_saved saved (by simp [Event.IsOwn])
  cases move with
  | start => exact start_moving s now moving (fun ok => stays (.inl ok)) works
  | resume => exact resume_moving s now moving (fun ok => stays (.inl ok)) works
  | pause => exact pause_moving s now moving
  | moveTo step => exact moveTo_moving s now moving step
  | proceed i =>
    simp only [perform, proceed]
    split
    · exact look_moving s now moving onStep ‹_›
    · rename_i e executing
      split
      · -- an answer that does not drive the flow is stale
        rename_i due
        refine stale_moving s now moving executing fun running current => stays (.inr ?_)
        exact ⟨by simp [isRunning, running], e, executing, due, current.symm⟩
      · exact moving
    · exact moving
  | work i => exact work_rule d s now i moving fun _ _ _ _ _ _ => moving.congr id rfl rfl rfl
  | hear i => exact hear_rule d s now i moving fun _ _ _ _ => moving.congr id rfl rfl rfl
  | save i =>
    refine save_rule d s now i moving ?_
    rintro a update rest r _ _ rfl
    exact (saveUpdate_moving s now moving a.epoch a.step update).congr id rfl rfl rfl
  | decide i =>
    refine tell_rule d s now i moving fun a decision ha hd => ?_
    have told : (d.onActivation i .tell).Moving := moving.congr id rfl rfl rfl
    -- and so is such a decision
    refine staleDecision_moving s now told (fun running current => stays (.inr ?_)) _ _
    have running : d.record.state = .running := running
    exact ⟨i, rfl, by simp [isRunning, running], a, decision, ha, hd, current.symm⟩
  | expire =>
    simp only [perform]
    split
    · refine expire_rule d s now (fun _ => moving.congr id rfl rfl rfl) ?_
      rintro d' _ rfl
      rw [releaseLease_driver]
      -- a flow that has expired does not run
      refine .of_not_running ?_
      rw [persist_driver, stopped_record]
      simp
    · exact moving

omit now in
/-- An event that neither enters the flow nor applies an outcome leaves it moving. -/
theorem happen_moving (onStep : d.OnStep) {e : Event} (saved : ¬ FailsToSave (d, s) e)
    (stays : ¬ Drives (d, s) e) : (happen (d, s) e).1.Moving := by
  cases e with
  | move now move => exact perform_moving s now moving onStep move saved stays
  | update now i update =>
    simp only [happen]
    split
    · exact saveUpdate_moving s now moving _ _ update
    · exact moving
  | decision now i decision =>
    simp only [happen]
    split
    · rename_i a ha
      refine staleDecision_moving s now moving (fun running current => stays (.inr ?_)) _ _
      exact ⟨i, rfl, by simp [isRunning, running], a, ha, current.symm⟩
    · exact moving
  | outside change => exact moving

end Moves

/-! ### Decisions about the current epoch -/

/-- The decision was applied to the driver's record, and that was saved. -/
def Settled (d : Driver) (step : String) (decision : Decision) (d' : Driver) : Prop :=
  ∃ (now : Nat) (d₁ : Driver), d₁.definition = d.definition ∧ d₁.record = d.record ∧
    d'.record = (d₁.applyDecision (.ofVirtualMs now) step decision).record.touch (.ofVirtualMs now)

/-- The decision is lost: the flow runs on with nothing active, and nothing of the decision is
noted. -/
structure Lost (d d' : Driver) : Prop where
  record : d'.record = d.record
  requests : d'.requests = d.requests
  active : d'.active = none

theorem carryOn_record (d : Driver) (s : Services) (now : Nat) :
    (d.carryOn s now).2.1.record = d.record.touch (.ofVirtualMs now) :=
  congrArg View.record (carryOn_view d s now)

theorem decide_settled {d : Driver} {s : Services} {now epoch : Nat} {step : String}
    {decision : Decision} (current : d.epoch = epoch) (running : d.record.state = .running) :
    (Refused d s → Lost d (d.decide s now epoch step decision).1) ∧
    (¬ Refused d s → Settled d step decision (d.decide s now epoch step decision).1) := by
  refine decide_rule (motive := fun r => (Refused d s → Lost d r.1) ∧
    (¬ Refused d s → Settled d step decision r.1)) d s now epoch step decision
    ?stale ?unleased ?decided
  case stale =>
    intro stale
    exact absurd stale (by simp [current, running])
  case unleased =>
    intro err s' _ _ free got
    rw [retired_lease] at free
    rw [retired_flow] at got
    exact ⟨fun _ => ⟨retired_record d, retired_requests d, retired_active d⟩,
      fun leased => absurd ⟨free, err, s', got⟩ leased⟩
  case decided =>
    rintro lease s' d' _ _ leased rfl
    refine ⟨fun ⟨free, err, s₁, got⟩ => ?_, fun _ => ⟨now, _, ?_, ?_, carryOn_record ..⟩⟩
    · cases leased with
      | had had =>
        rw [retired_lease, free] at had
        cases had
      | given _ given =>
        rw [retired_flow, got] at given
        cases given
    · exact retired_definition d
    · exact retired_record d

theorem conclude_settled {d : Driver} {s : Services} (now : Nat) {e : Execution}
    {decision : Decision} (current : d.epoch = e.epoch) (running : d.record.state = .running)
    (decides : (e.answer s.ids.tasks).1.decision? = some decision) :
    Settled d e.step decision (d.conclude s now e).2.1 := by
  refine conclude_rule (motive := fun r => Settled d e.step decision r.2.1) d s now e
    ?dropped ?carried ?waits ?launches
  case dropped =>
    intro _ stale
    exact absurd stale (by simp [current, running])
  case carried =>
    intro decision' s' _ _ _ decides'
    obtain rfl : decision = decision' := Option.some.inj (decides.symm.trans decides')
    exact ⟨now, d, rfl, rfl, carryOn_record ..⟩
  case waits => exact fun _ _ _ _ _ _ h _ => absurd (decides.symm.trans h.1) (by simp)
  case launches => exact fun _ _ _ _ _ _ _ h _ => absurd (decides.symm.trans h.1) (by simp)

/-- **A decision about the current epoch of a running flow is lost if it gets no lease**, and
applied otherwise. -/
theorem brought_settled {x : Driver × Services} {e : Event} {epoch : Nat} {step : String}
    {decision : Decision} (brought : Brings x e epoch step decision) (current : x.1.epoch = epoch)
    (running : x.1.record.state = .running) :
    (Refuses x e → Lost x.1 (happen x e).1) ∧
    (¬ Refuses x e → Settled x.1 step decision (happen x e).1) := by
  have hrun : x.1.isRunning := by simp [isRunning, running]
  cases brought with
  | @answer now i e decision executing due decides =>
    have settled := conclude_settled now current running decides
    refine ⟨fun h => absurd h.1.choose_spec id, fun _ => ?_⟩
    simp only [happen, perform, proceed, executing, due, if_true]
    exact settled
  | @told now i a decision activation decides =>
    have settled := @decide_settled (x.1.onActivation i .tell) x.2 now a.epoch a.step decision
      current running
    have here : (∃ j, Decides x.1 j (.move now (.decide i))) :=
      ⟨i, rfl, hrun, a, decision, activation, decides, current.symm⟩
    simp only [happen, perform, activation, decides]
    exact ⟨fun h => ⟨(settled.1 h.2).record, (settled.1 h.2).requests, (settled.1 h.2).active⟩,
      fun leased => settled.2 fun no => leased ⟨here, no⟩⟩
  | @blue now i a decision activation =>
    have settled := @decide_settled x.1 x.2 now a.epoch a.step decision current running
    have here : (∃ j, Decides x.1 j (.decision now i decision)) :=
      ⟨i, rfl, hrun, a, activation, current.symm⟩
    simp only [happen, activation]
    exact ⟨fun h => settled.1 h.2, fun leased => settled.2 fun no => leased ⟨here, no⟩⟩

/-! ### Runs -/

/-- No event of a run is of this kind. -/
def Never (P : Driver × Services → Event → Prop) (x : Driver × Services) : List Event → Prop
  | [] => True
  | e :: es => ¬ P x e ∧ Never P (happen x e) es

/-- The latest event that drove the flow was of this kind. -/
def Latest (P : Driver × Services → Event → Prop) (x : Driver × Services) (es : List Event) :
    Prop :=
  ∃ fs e gs, es = fs ++ e :: gs ∧ P (run x fs) e ∧ Never Drives (run x (fs ++ [e])) gs

section Runs

variable {P : Driver × Services → Event → Prop} {x : Driver × Services} {es : List Event}

theorem never_concat {e : Event} : Never P x (es ++ [e]) ↔ Never P x es ∧ ¬ P (run x es) e := by
  induction es generalizing x with
  | nil => simp [Never]
  | cons e' es ih => simp [Never, ih, and_assoc]

theorem allSaved_iff : AllSaved x es ↔ Never FailsToSave x es := by
  induction es generalizing x with
  | nil => exact Iff.rfl
  | cons e es ih => exact and_congr_right' ih

theorem latest_concat {e : Event} :
    Latest P x (es ++ [e]) ↔ P (run x es) e ∨ Latest P x es ∧ ¬ Drives (run x es) e := by
  refine ⟨fun ⟨fs, e', gs, heq, hp, never⟩ => ?_, fun h => ?_⟩
  · rcases List.eq_nil_or_concat gs with rfl | ⟨gs, e'', rfl⟩
    · obtain ⟨rfl, rfl⟩ : es = fs ∧ e = e' := by simpa using List.append_inj' heq rfl
      exact .inl hp
    · rw [List.concat_eq_append] at heq never
      obtain ⟨rfl, rfl⟩ : es = fs ++ e' :: gs ∧ e = e'' := by
        simpa using List.append_inj' (heq.trans (List.append_assoc fs (e' :: gs) [e'']).symm) rfl
      obtain ⟨never, stays⟩ := never_concat.1 never
      rw [← run_append, List.append_assoc, List.singleton_append] at stays
      exact .inr ⟨⟨fs, e', gs, rfl, hp, never⟩, stays⟩
  · rcases h with hp | ⟨⟨fs, e', gs, rfl, hp, never⟩, stays⟩
    · exact ⟨es, e, [], rfl, hp, trivial⟩
    · refine ⟨fs, e', gs ++ [e], by simp, hp, never_concat.2 ⟨never, ?_⟩⟩
      rwa [← run_append, List.append_assoc, List.singleton_append]

end Runs

/-- A running flow without anything that moves it waits at its step, or has lost a decision. -/
structure Explained (x : Driver × Services) (es : List Event) : Prop where
  moving : (run x es).1.Moving ∨ Latest Waits x es ∨ Latest Refuses x es
  idle : Latest Waits x es ∨ Latest Refuses x es → (run x es).1.active = none

theorem Waits.idle {x : Driver × Services} (sound : x.1.Sound) {e : Event} (h : Waits x e) :
    (happen x e).1.active = none := by
  have unlaunched : ¬ Launches x e ∧ x.1.active = none := by
    cases e with
    | move now move =>
      cases move with
      | proceed i =>
        obtain ⟨-, e, executing, -, current, waits⟩ := h
        refine ⟨?_, (sound.executing e (List.mem_of_getElem? executing)).2 current⟩
        rintro ⟨l, -, e', executing', -, -, launches⟩
        obtain rfl : e = e' := by simpa using executing.symm.trans executing'
        exact absurd (waits.2.symm.trans launches.2) (by simp)
      | _ => exact absurd h id
    | _ => exact absurd h id
  exact happen_idle unlaunched.2 x.2 e unlaunched.1

theorem Launches.drives {x : Driver × Services} {e : Event} (h : Launches x e) : Drives x e :=
  .inr h.choose_spec.applies

/-- One more event. -/
theorem Explained.concat {x : Driver × Services} {es : List Event} (h : Explained x es)
    (sound : (run x es).1.Sound) (onStep : (run x es).1.OnStep) {e : Event}
    (saved : ¬ FailsToSave (run x es) e) : Explained x (es ++ [e]) := by
  refine ⟨?_, ?_⟩
  · -- why it moves, if nothing waits and no decision was refused
    rw [latest_concat, latest_concat, run_concat]
    by_cases waits : Waits (run x es) e
    · exact .inr (.inl (.inl waits))
    by_cases refuses : Refuses (run x es) e
    · exact .inr (.inr (.inl refuses))
    by_cases drives : Drives (run x es) e
    · rcases drives with enters | applies
      · exact .inl (enters_moving _ enters)
      · exact .inl (applies_moving _ saved applies waits refuses)
    · rcases h.moving with moving | hwaits | hrefuses
      · exact .inl (happen_moving _ moving onStep saved drives)
      · exact .inr (.inl (.inr ⟨hwaits, drives⟩))
      · exact .inr (.inr (.inr ⟨hrefuses, drives⟩))
  · -- why it is idle, if something waits or a decision was refused
    rw [latest_concat, latest_concat, run_concat]
    have stays : ¬ Drives (run x es) e → (run x es).1.active = none →
        (happen (run x es) e).1.active = none :=
      fun drives idle => happen_idle idle _ e fun launches => drives launches.drives
    rintro ((waits | ⟨before, drives⟩) | (refuses | ⟨before, drives⟩))
    · exact waits.idle sound
    · exact stays drives (h.idle (.inl before))
    · exact (refuses.1.choose_spec.ends _).2.2
    · exact stays drives (h.idle (.inr before))

theorem run_explained {x : Driver × Services} (sound : x.1.Sound) (start : Explained x [])
    (onStep : ∀ es, (run x es).1.OnStep) (es : List Event) (saved : AllSaved x es) :
    Explained x es := by
  -- the last event comes first in the reversed run
  suffices hrev : ∀ rs : List Event, Never FailsToSave x rs.reverse → Explained x rs.reverse by
    simpa using hrev es.reverse (by simpa using allSaved_iff.1 saved)
  intro rs
  induction rs with
  | nil => exact fun _ => start
  | cons e rs ih =>
    intro saved
    rw [List.reverse_cons] at saved ⊢
    obtain ⟨before, last⟩ := never_concat.1 saved
    exact (ih before).concat (run_ahead sound rs.reverse).sound (onStep _) last

/-- **A flow is stranded by a refused lease, and by nothing else.**  A flow was created, and
anything at all has happened to its driver, except that no save has failed.

* If the flow runs and every call was answered, then an activation is active unless the latest step
  that was executed answered with no edge and launched nothing, or the latest decision got no lease.
  In both cases nothing is active.
* A decision about the current epoch is applied to the record, as an edge or as an error of its
  step, unless it is about an activation and gets no lease.  Then its activation is retired all the
  same, and nothing of it is noted. -/
theorem stranded_iff {w w' : World} {definition : Definition} {source : Nat} {d : Driver}
    (created : w.create definition source = (.ok d, w')) (es : List Event)
    (saved : AllSaved (d, w'.services) es) (x : Driver × Services)
    (hx : run (d, w'.services) es = x) :
    (x.1.record.state = .running → (∀ r ∈ x.1.requests, ∃ outcome, r = .answered outcome) →
      (x.1.active = none ↔
        Latest Waits (d, w'.services) es ∨ Latest Refuses (d, w'.services) es)) ∧
    ∀ e epoch step decision, Brings x e epoch step decision → x.1.epoch = epoch →
      x.1.record.state = .running →
      (Refuses x e → Lost x.1 (happen x e).1) ∧
      (¬ Refuses x e → Settled x.1 step decision (happen x e).1) := by
  subst hx
  have untouched := World.create_untouched created
  have onStep : ∀ fs, (run (d, w'.services) fs).1.OnStep := fun fs running => by
    have placed := (create_placed created fun _ => True).run (fun _ _ => trivial)
      (Event.stores_true fs d.flow)
    exact placed.started (by simp [view, running])
  have start : Explained (d, w'.services) [] := by
    refine ⟨.inl (.of_not_running (by simp [untouched.state])), ?_⟩
    rintro (⟨fs, e, gs, heq, -⟩ | ⟨fs, e, gs, heq, -⟩) <;> simp at heq
  have explained := run_explained untouched.sound start onStep es saved
  refine ⟨fun running answered => ⟨fun idle => ?_, explained.idle⟩,
    fun e epoch step decision brought current running => brought_settled brought current running⟩
  refine explained.moving.resolve_left fun moving => ?_
  rcases moving running with ⟨i, r, hr, goes⟩ | waits
  · obtain ⟨outcome, rfl⟩ := answered r (List.mem_of_getElem? hr)
    exact goes
  · exact waits idle

/-- The first step of `launchThenStop` launches its tasks, whose handler decides for the second one;
then the next call of the lock service fails, and the decision is told. -/
def losingDecision : List Event :=
  [.move 0 .start, .move 0 (.proceed 0), .move 0 (.proceed 0), .move 0 (.hear 0),
    .outside fun s => { s with acquiring := s.acquiring.failNext 1 }, .move 0 (.decide 0)]

theorem losingDecision_saved {d : Driver} {w' : World}
    (created : World.empty.create launchThenStop 0 = (.ok d, w')) :
    AllSaved (d, w'.services) losingDecision := by
  cases created
  refine .cons (not_failsToSave rfl) (.cons (not_failsToSave rfl) (.cons (not_failsToSave rfl) ?_))
  refine .cons (not_failsToSave rfl) (.cons (not_failsToSave rfl) ?_)
  exact .cons (not_failsToSave rfl) trivial

/-- The flow runs with nothing active, since its latest decision got no lease. -/
theorem stranded_iff_launch : ∃ d w' x,
    World.empty.create launchThenStop 0 = (.ok d, w') ∧
    AllSaved (d, w'.services) losingDecision ∧ run (d, w'.services) losingDecision = x ∧
    x.1.record.state = .running ∧ x.1.active = none ∧
    (Latest Waits (d, w'.services) losingDecision ∨
      Latest Refuses (d, w'.services) losingDecision) := by
  have created : World.empty.create launchThenStop 0 = (.ok _, _) := rfl
  have saved := losingDecision_saved created
  obtain ⟨resting, -⟩ := stranded_iff created losingDecision saved _ rfl
  have stranded := (resting rfl fun r hr => ⟨_, List.mem_singleton.1 hr⟩).1 rfl
  exact ⟨_, _, _, created, saved, rfl, rfl, rfl, stranded⟩

/-- A running flow with nothing active and every call answered, although no step has answered
without an edge and without a launch.  The edge to the second step was decided in the current epoch,
and it is lost: the flow is on its first step, and no error is noted. -/
theorem decision_lost : ∃ d w' x,
    World.empty.create launchThenStop 0 = (.ok d, w') ∧
    AllSaved (d, w'.services) losingDecision ∧ run (d, w'.services) losingDecision = x ∧
    x.1.record.state = .running ∧ (∀ r ∈ x.1.requests, ∃ outcome, r = .answered outcome) ∧
    x.1.active = none ∧ Never Waits (d, w'.services) losingDecision ∧
    x.1.record.currentStep = some "launch" ∧ x.1.record.lastError = none := by
  have created : World.empty.create launchThenStop 0 = (.ok _, _) := rfl
  refine ⟨_, _, _, created, losingDecision_saved created, rfl, rfl, ?_, rfl, ?_, rfl, rfl⟩
  · exact fun r hr => ⟨_, List.mem_singleton.1 hr⟩
  · refine ⟨id, ?_, ?_, id, id, id, trivial⟩
    · rintro ⟨-, e, executing, -⟩
      cases executing
    · rintro ⟨-, e, executing, -, -, waits⟩
      cases executing
      exact absurd waits.2 (Option.some_ne_none _)

end Driver

end Workflow
