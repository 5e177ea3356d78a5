import Workflow.Proofs.Flow.Run

/-!
# Workflow.Proofs.Flow.ActivationSafety — at most one activation is live, and stale ones are inert

Of an activation the driver only looks at the epoch in which it was launched.  `Sound` says how the
epochs of all activations, the active one and the state of the flow belong together; `Turn` says
what one event can do to them: it leaves them alone, it retires whatever is active in a new epoch,
or it launches in a new epoch while nothing is active.  Every event of a sound driver is such a
turn, and every turn keeps a driver sound.
-/

namespace Workflow

namespace Driver

/-- The epoch of every activation, and whether its crew was sent home. -/
def stamps (d : Driver) : List (Nat × Bool) := d.activations.map fun a => (a.epoch, a.aborted)

/-- How the epochs of activations belong together with what is active. -/
structure Sound (d : Driver) : Prop where
  active : ∀ i, d.active = some i →
    d.record.state = .running ∧ d.stamps[i]? = some (d.epoch, false)
  others : ∀ i epoch aborted, d.stamps[i]? = some (epoch, aborted) → d.active ≠ some i →
    epoch < d.epoch ∧ aborted = true
  executing : ∀ e, .executing e ∈ d.requests →
    e.epoch ≤ d.epoch ∧ (e.epoch = d.epoch → d.active = none)

theorem Untouched.sound {d : Driver} (h : d.Untouched) : d.Sound := by
  refine ⟨?_, ?_, ?_⟩
  · simp [h.active]
  · simp [stamps, h.activations]
  · simp [h.requests]

/-- What one event does to activations. -/
inductive Turn (d d' : Driver) : Prop
  | keeps (epoch : d'.epoch = d.epoch) (active : d'.active = d.active)
    (stamps : d'.stamps = d.stamps)
    (running : d.active ≠ none → d'.record.state = .running)
  | retires (epoch : d.epoch < d'.epoch) (active : d'.active = none)
    (stamps : d'.stamps = d.abortActive.stamps)
  | launches (idle : d.active = none) (running : d'.record.state = .running)
    (epoch : d.epoch < d'.epoch) (active : d'.active = some d.stamps.length)
    (stamps : d'.stamps = d.stamps ++ [(d'.epoch, false)])

/-- The steps that are being executed were so before, or began just now with nothing active. -/
def Continues (d d' : Driver) : Prop :=
  ∀ e, .executing e ∈ d'.requests →
    .executing e ∈ d.requests ∨ e.epoch = d'.epoch ∧ d'.active = none

theorem Continues.of_eq {d d' : Driver} (h : d'.requests = d.requests) : Continues d d' :=
  fun _ he => .inl (h ▸ he)

theorem Turn.epoch_le {d d' : Driver} (h : Turn d d') : d.epoch ≤ d'.epoch := by
  cases h with
  | keeps epoch => omega
  | retires epoch => omega
  | launches _ _ epoch => omega

/-- Sending the active crew home changes the stamp of the active activation, and no other. -/
theorem abortActive_stamps (d : Driver) (i : Nat) :
    d.abortActive.stamps[i]? =
      if d.active = some i then d.stamps[i]?.map fun t => (t.1, true) else d.stamps[i]? := by
  simp only [stamps, abortActive_activations]
  cases ha : d.active with
  | none => simp
  | some j =>
    simp only [Option.elim_some, List.getElem?_map, List.getElem?_modify, Option.some.injEq]
    by_cases hij : j = i
    · cases d.activations[i]? <;> simp [hij, Activation.abort]
    · cases d.activations[i]? <;> simp [hij]

/-- Every turn keeps a driver sound. -/
theorem Turn.sound {d d' : Driver} (turn : Turn d d') (continues : Continues d d')
    (h : d.Sound) : d'.Sound := by
  have hexecuting : ∀ e, .executing e ∈ d'.requests → e.epoch ≤ d'.epoch := by
    intro e he
    rcases continues e he with hold | ⟨hnew, -⟩
    · exact Nat.le_trans (h.executing e hold).1 turn.epoch_le
    · exact Nat.le_of_eq hnew
  cases turn with
  | keeps epoch active stamps running =>
    refine ⟨fun i hi => ?_, fun i n b hb hi => ?_, fun e he => ⟨hexecuting e he, fun hn => ?_⟩⟩
    · rw [active] at hi
      exact ⟨running (by simp [hi]), by rw [stamps, epoch]; exact (h.active i hi).2⟩
    · rw [epoch]
      exact h.others i n b (stamps ▸ hb) (active ▸ hi)
    · rcases continues e he with hold | ⟨-, hnone⟩
      · rw [active]
        exact (h.executing e hold).2 (hn.trans epoch)
      · exact hnone
  | retires epoch active stamps =>
    refine ⟨fun i hi => ?_, fun i n b hb _ => ?_, fun e he => ⟨hexecuting e he, fun _ => active⟩⟩
    · rw [active] at hi
      cases hi
    · rw [stamps, abortActive_stamps] at hb
      by_cases ha : d.active = some i
      · rw [if_pos ha, (h.active i ha).2] at hb
        cases hb
        exact ⟨epoch, rfl⟩
      · rw [if_neg ha] at hb
        have := h.others i n b hb ha
        exact ⟨by omega, this.2⟩
  | launches idle running epoch active stamps =>
    refine ⟨fun i hi => ?_, fun i n b hb hi => ?_, fun e he => ⟨hexecuting e he, fun hn => ?_⟩⟩
    · obtain rfl : d.stamps.length = i := by simpa [active] using hi
      exact ⟨running, by simp [stamps]⟩
    · have hne : d.stamps.length ≠ i := fun heq => hi (by rw [active, heq])
      have hlt : i < d.stamps.length := by
        have hlt := (List.getElem?_eq_some_iff.1 hb).1
        rw [stamps, List.length_append, List.length_singleton] at hlt
        omega
      rw [stamps, List.getElem?_append_left hlt] at hb
      have := h.others i n b hb (by simp [idle])
      exact ⟨by omega, this.2⟩
    · rcases continues e he with hold | ⟨-, hnone⟩
      · -- executed before the launch, so of an older epoch
        have := (h.executing e hold).1
        omega
      · exact hnone

/-! ### Every event is a turn -/

theorem Turn.same {d d' : Driver} (h : d.Sound) (epoch : d'.epoch = d.epoch)
    (active : d'.active = d.active) (stamps : d'.stamps = d.stamps)
    (state : d'.record.state = d.record.state) : Turn d d' := by
  refine .keeps epoch active stamps fun hne => ?_
  obtain ⟨i, hi⟩ := Option.ne_none_iff_exists'.1 hne
  rw [state]
  exact (h.active i hi).1

theorem stamps_nextEpoch_abortActive (d : Driver) :
    d.nextEpoch.abortActive.stamps = d.abortActive.stamps := by
  rw [stamps, stamps, abortActive_activations, abortActive_activations]
  rfl

theorem abortActive_of_idle {d : Driver} (h : d.active = none) : d.abortActive = d := by
  unfold abortActive
  rw [h]

theorem Sound.idle_of_not_running {d : Driver} (h : d.Sound) (hs : d.record.state ≠ .running) :
    d.active = none := by
  cases ha : d.active with
  | none => rfl
  | some i => exact absurd (h.active i ha).1 hs

/-- A changed activation of the same epoch, at home if it was before. -/
theorem stamps_onActivation {d : Driver} {i : Nat} {change : Activation → Activation}
    (h : ∀ a, d.activations[i]? = some a →
      (change a).epoch = a.epoch ∧ (change a).aborted = a.aborted) :
    (d.onActivation i change).stamps = d.stamps := by
  apply List.ext_getElem?
  intro j
  simp only [stamps, onActivation, List.getElem?_map, List.getElem?_modify]
  by_cases hij : i = j
  · subst hij
    cases ha : d.activations[i]? with
    | none => rfl
    | some a => simp [h a ha]
  · cases d.activations[j]? <;> simp [hij]

/-- What one event does to activations and to the steps that are being executed. -/
structure Evolves (d d' : Driver) : Prop where
  turn : Turn d d'
  continues : Continues d d'

/-- What a sound driver may become: it is sound, no epoch comes back, and every activation keeps the
epoch of its launch. -/
structure Ahead (d d' : Driver) : Prop where
  sound : d'.Sound
  epoch_le : d.epoch ≤ d'.epoch
  launched : ∀ (i epoch : Nat) (b : Bool), d.stamps[i]? = some (epoch, b) →
    ∃ b', d'.stamps[i]? = some (epoch, b')

theorem Turn.launched {d d' : Driver} (turn : Turn d d') {i epoch : Nat} {b : Bool}
    (h : d.stamps[i]? = some (epoch, b)) : ∃ b', d'.stamps[i]? = some (epoch, b') := by
  cases turn with
  | keeps _ _ stamps => exact ⟨b, stamps ▸ h⟩
  | retires _ _ stamps =>
    rw [stamps, abortActive_stamps, h]
    by_cases ha : d.active = some i
    · exact ⟨true, by rw [if_pos ha, Option.map_some]⟩
    · exact ⟨b, if_neg ha⟩
  | launches _ _ _ _ stamps =>
    refine ⟨b, ?_⟩
    rw [stamps, List.getElem?_append_left (List.getElem?_eq_some_iff.1 h).1, h]

theorem Evolves.ahead {d d' : Driver} (e : Evolves d d') (h : d.Sound) : Ahead d d' :=
  ⟨e.turn.sound e.continues h, e.turn.epoch_le, fun _ _ _ => e.turn.launched⟩

theorem Ahead.refl {d : Driver} (h : d.Sound) : Ahead d d :=
  ⟨h, Nat.le_refl _, fun _ _ b hb => ⟨b, hb⟩⟩

theorem Ahead.trans {d d' d'' : Driver} (h : Ahead d d') (h' : Ahead d' d'') : Ahead d d'' := by
  refine ⟨h'.sound, Nat.le_trans h.epoch_le h'.epoch_le, fun i epoch b hb => ?_⟩
  obtain ⟨b', hb'⟩ := h.launched i epoch b hb
  exact h'.launched i epoch b' hb'

theorem Turn.congr {d d' d'' : Driver} (turn : Turn d d') (epoch : d''.epoch = d'.epoch)
    (active : d''.active = d'.active) (stamps : d''.stamps = d'.stamps)
    (state : d''.record.state = d'.record.state) : Turn d d'' := by
  cases turn with
  | keeps e a st r =>
    exact .keeps (epoch.trans e) (active.trans a) (stamps.trans st) fun h => state.trans (r h)
  | retires e a st => exact .retires (epoch ▸ e) (active.trans a) (stamps.trans st)
  | launches i r e a st =>
    exact .launches i (state.trans r) (epoch ▸ e) (active.trans a) (by rw [stamps, st, epoch])

/-- One more request that executes nothing yet. -/
theorem Turn.addRequest {d d' : Driver} (turn : Turn d d') {r : Request}
    (hr : ∀ e, r ≠ .executing e) (hreq : d'.requests = d.requests) :
    Evolves d (d'.addRequest r) := by
  refine ⟨turn.congr rfl rfl rfl rfl, fun e he => ?_⟩
  rw [Driver.addRequest, hreq] at he
  rcases List.mem_append.1 he with hold | hnew
  · exact .inl hold
  · exact absurd (List.mem_singleton.1 hnew).symm (hr e)

/-- A request in a new phase; a step that it executes begins now, with nothing active. -/
theorem Turn.setRequest {d d' : Driver} (turn : Turn d d') (i : Nat) {r : Request}
    (hr : ∀ e, r = .executing e → e.epoch = d'.epoch ∧ d'.active = none)
    (hreq : d'.requests = d.requests) : Evolves d (d'.setRequest i r) := by
  refine ⟨turn.congr rfl rfl rfl rfl, fun e he => ?_⟩
  rw [Driver.setRequest, hreq] at he
  rcases List.mem_or_eq_of_mem_set he with hold | hnew
  · exact .inl hold
  · exact .inr (hr e hnew.symm)

theorem ofStart_ne_executing (outcome : Except FlowError Unit) (e : Execution) :
    Request.ofStart outcome ≠ .executing e := by
  cases outcome <;> simp [Request.ofStart]

theorem requesting_driver (r : Except FlowError Unit × Driver × Services) :
    (requesting r).1 = r.2.1.addRequest (.ofStart r.1) := rfl

theorem answering_driver (r : Except FlowError Unit × Driver × Services) :
    (answering r).1 = r.2.1.addRequest (.answered r.1) := rfl

/-- A flow that stops retires what is active, whatever becomes of its record. -/
theorem stopped_turn (d : Driver) (change : Record → Record) : Turn d (d.stopped change) := by
  refine .retires ?_ (stopped_active ..) (stamps_nextEpoch_abortActive d)
  rw [stopped_epoch]
  exact Nat.lt_succ_self d.epoch

/-- What an edge or an error makes of a flow that waits for no activation. -/
theorem Routed.turn {d d' d'' : Driver} (r : Routed d d') (idle : d.active = none)
    (epoch : d''.epoch = d'.epoch) (active : d''.active = d'.active)
    (activations : d''.activations = d'.activations) : Turn d d'' := by
  have hstamps : d''.stamps = d.stamps := by
    rw [stamps, activations, r.activations, stamps]
  rw [r.active] at active
  rcases r.going with ⟨-, hn⟩ | ⟨-, hn⟩
  · refine .retires (by omega) (active.trans idle) ?_
    rw [abortActive_of_idle idle, hstamps]
  · exact .keeps (by omega) active hstamps fun hne => absurd idle hne

theorem decide_stale {d : Driver} {s : Services} {now epoch : Nat} {step : String}
    {decision : Decision} (h : d.epoch ≠ epoch ∨ d.record.state ≠ .running) :
    d.decide s now epoch step decision = (d, s) := by
  unfold decide
  rw [if_pos (by simpa [isRunning] using h)]

/-- A decision of the current epoch retires what is active, whether or not a lease is given. -/
theorem decide_retires {d : Driver} {epoch : Nat} (hepoch : d.epoch = epoch)
    (hrun : d.record.state = .running) (s : Services) (now : Nat) (step : String)
    (decision : Decision) :
    d.epoch < (d.decide s now epoch step decision).1.epoch ∧
      (d.decide s now epoch step decision).1.active = none ∧
      (d.decide s now epoch step decision).1.stamps = d.abortActive.stamps ∧
      ∀ e, .executing e ∈ (d.decide s now epoch step decision).1.requests →
        .executing e ∈ d.requests := by
  have hlt : d.epoch < d.retired.epoch := by simp
  have hactive : d.retired.active = none := retired_active d
  have hstamps : d.retired.stamps = d.abortActive.stamps := stamps_nextEpoch_abortActive d
  have hreq : d.retired.requests = d.requests := retired_requests d
  refine decide_rule d s now epoch step decision ?stale ?unleased ?decided
  case stale => exact fun hstale => absurd hstale (by simp [hepoch, hrun])
  case unleased => exact fun _ _ _ _ _ _ => ⟨hlt, hactive, hstamps, fun e he => hreq ▸ he⟩
  case decided =>
    rintro lease s' d' _ _ _ rfl
    have hrun' : { d.retired with lease := some lease }.record.state = .running := by
      simpa using hrun
    have routed := applyDecision_routed (.ofVirtualMs now) step decision hrun'
    refine ⟨?_, ?_, ?_, fun e he => ?_⟩
    · exact Nat.lt_of_lt_of_le hlt
        (Nat.le_trans routed.epoch_le (Nat.le_of_eq (carryOn_epoch ..).symm))
    · exact (carryOn_active ..).trans (routed.active.trans hactive)
    · rw [stamps, addRequest, carryOn_activations, routed.activations]
      exact hstamps
    · rw [addRequest, carryOn_requests, routed.requests] at he
      rcases List.mem_append.1 he with hold | hnew
      · exact hreq ▸ hold
      · -- the request of the decision goes on, but executes nothing yet
        exact absurd (List.mem_singleton.1 hnew).symm (carryOn_request_ne_executing _ _ _ e)

section Sections

variable {d : Driver} (h : d.Sound) (s : Services) (now : Nat)
include h

theorem start_evolves : Evolves d (requesting (d.start s now)).1 := by
  rw [requesting_driver]
  refine start_rule d s now ?refused ?unleased ?entered
  case refused =>
    exact fun _ => (Turn.same h rfl rfl rfl rfl).addRequest (ofStart_ne_executing _) rfl
  case unleased =>
    exact fun _ _ _ _ _ => (Turn.same h rfl rfl rfl rfl).addRequest (ofStart_ne_executing _) rfl
  case entered =>
    intro lease s' _ _
    refine Turn.addRequest (.keeps ?_ ?_ ?_ fun _ => ?_) (ofStart_ne_executing _) ?_ <;> rfl

theorem resume_evolves : Evolves d (requesting (d.resume s now)).1 := by
  rw [requesting_driver]
  refine resume_rule d s now ?busy ?refused ?unleased ?entered
  case busy =>
    exact fun _ => (Turn.same h rfl rfl rfl rfl).addRequest (ofStart_ne_executing _) rfl
  case refused =>
    exact fun _ _ _ _ => (Turn.same h rfl rfl rfl rfl).addRequest (ofStart_ne_executing _) rfl
  case unleased =>
    exact fun _ _ _ _ _ => (Turn.same h rfl rfl rfl rfl).addRequest (ofStart_ne_executing _) rfl
  case entered =>
    intro stored lease s' _ ha _ _ _
    refine Turn.addRequest (.retires ?_ ?_ ?_) (ofStart_ne_executing _) rfl
    · exact Nat.lt_succ_self d.epoch
    · exact ha
    · rw [abortActive_of_idle ha]
      rfl

theorem pause_evolves : Evolves d (answering (d.pause s now)).1 := by
  rw [answering_driver]
  refine pause_rule d s now ?paused ?refused ?stopped
  case paused => exact fun _ => (Turn.same h rfl rfl rfl rfl).addRequest (by simp) rfl
  case refused => exact fun _ _ => (Turn.same h rfl rfl rfl rfl).addRequest (by simp) rfl
  case stopped =>
    intro _
    refine Turn.addRequest ((d.stopped_turn .pause).congr ?_ ?_ ?_ ?_) (by simp) ?_
    all_goals simp [stamps]

theorem moveTo_evolves (step : String) : Evolves d (answering (d.moveTo s now step)).1 := by
  rw [answering_driver]
  refine moveTo_rule d s now step ?refused ?moved
  case refused => exact fun _ => (Turn.same h rfl rfl rfl rfl).addRequest (by simp) rfl
  case moved =>
    intro _ _
    refine Turn.addRequest (.same h ?_ ?_ ?_ ?_) (by simp) ?_ <;> rfl

theorem look_evolves (i : Nat) : Evolves d (d.setRequest i (d.look s now).1) := by
  have same : Turn d d := .same h rfl rfl rfl rfl
  refine look_rule d s now ?idle ?lost ?executes
  case idle => exact fun _ => same.setRequest i (by simp) rfl
  case lost => exact fun _ _ _ => same.setRequest i (by simp) rfl
  case executes =>
    intro e s' _ ha _ he _
    refine same.setRequest i (fun e' heq => ?_) rfl
    cases heq
    exact ⟨he, ha⟩

theorem conclude_evolves {e : Execution} (he : .executing e ∈ d.requests) (i : Nat) :
    Evolves d ((d.conclude s now e).2.1.setRequest i (d.conclude s now e).1) := by
  have same : Turn d d := .same h rfl rfl rfl rfl
  -- within the epoch of its execution nothing was launched
  have idle : d.epoch = e.epoch → d.active = none := fun hn => (h.executing e he).2 hn.symm
  refine conclude_rule d s now e ?dropped ?carried ?waits ?launches
  case dropped => exact fun _ _ _ => same.setRequest i (by simp) rfl
  case carried =>
    intro decision s' hn hrun _ _
    have routed := applyDecision_routed (.ofVirtualMs now) e.step decision hrun
    refine Turn.setRequest (routed.turn (idle hn) (carryOn_epoch ..) (carryOn_active ..)
      (carryOn_activations ..)) i ?_ ((carryOn_requests ..).trans routed.requests)
    exact fun e' heq => absurd heq (carryOn_request_ne_executing _ _ _ e')
  case waits =>
    rintro log s' d' hn hrun _ _ rfl
    rw [logStep_eq, releaseLease_driver]
    refine Turn.setRequest (.keeps ?_ ?_ ?_ fun hne => absurd (idle hn) hne) i (by simp) ?_ <;> rfl
  case launches =>
    rintro log l s' d' hn hrun _ _ rfl
    rw [releaseLease_driver]
    refine Turn.setRequest (.launches (idle hn) ?_ ?_ ?_ ?_) i (by simp) ?_
    · simpa using hrun
    · simp [logStep_eq, onRecord]
    · simp [logStep_eq, onRecord, stamps]
    · simp [logStep_eq, onRecord, stamps, Activation.start]
    · simp [logStep_eq, onRecord]

theorem saveUpdate_evolves (epoch : Nat) (step : String) (update : StepUpdate) :
    Evolves d (d.saveUpdate s now epoch step update).2.1 := by
  refine saveUpdate_rule d s now epoch step update ?stale ?saved
  case stale => exact fun _ => ⟨.same h rfl rfl rfl rfl, .of_eq rfl⟩
  case saved => exact fun r _ hr _ => ⟨.same h rfl rfl rfl hr, .of_eq rfl⟩

theorem decide_evolves (epoch : Nat) (step : String) (decision : Decision) :
    Evolves d (d.decide s now epoch step decision).1 := by
  by_cases hstale : d.epoch ≠ epoch ∨ d.record.state ≠ .running
  · rw [decide_stale hstale]
    exact ⟨.same h rfl rfl rfl rfl, .of_eq rfl⟩
  · obtain ⟨he, hrun⟩ : d.epoch = epoch ∧ d.record.state = .running := by
      simpa [not_or] using hstale
    obtain ⟨hepoch, hactive, hstamps, hreq⟩ := decide_retires he hrun s now step decision
    exact ⟨.retires hepoch hactive hstamps, fun e he => .inl (hreq e he)⟩

theorem expire_evolves : Evolves d (d.expire s now).1 := by
  refine expire_rule d s now ?idle ?expired
  case idle => exact fun _ => ⟨.same h rfl rfl rfl rfl, .of_eq rfl⟩
  case expired =>
    rintro d' _ rfl
    rw [releaseLease_driver]
    refine ⟨.retires ?_ ?_ ?_, .of_eq ?_⟩
    all_goals simp [stopped, onRecord, nextEpoch, stamps]

theorem proceed_ahead (i : Nat) : Ahead d (d.proceed s now i).1 := by
  unfold proceed
  split
  · exact (look_evolves h s now i).ahead h
  · rename_i e he
    split
    · exact (conclude_evolves h s now (List.mem_of_getElem? he) i).ahead h
    · exact .refl h
  · exact .refl h

omit s now in
theorem onActivation_ahead {i : Nat} {change : Activation → Activation}
    (hc : ∀ a, d.activations[i]? = some a →
      (change a).epoch = a.epoch ∧ (change a).aborted = a.aborted) :
    Ahead d (d.onActivation i change) :=
  Evolves.ahead ⟨.same h rfl rfl (stamps_onActivation hc) rfl, .of_eq rfl⟩ h

theorem perform_ahead (move : Move) : Ahead d (d.perform s now move).1 := by
  cases move with
  | start => exact (start_evolves h s now).ahead h
  | resume => exact (resume_evolves h s now).ahead h
  | pause => exact (pause_evolves h s now).ahead h
  | moveTo step => exact (moveTo_evolves h s now step).ahead h
  | proceed i => exact proceed_ahead h s now i
  | work i =>
    refine work_rule d s now i (.refl h) fun a a' polls trace ha hw => ?_
    refine onActivation_ahead h fun b hb => ?_
    obtain rfl : a = b := Option.some.inj (ha.symm.trans hb)
    exact Activation.work?_stamp hw
  | hear i =>
    refine hear_rule d s now i (.refl h) fun a a' ha hh => ?_
    refine onActivation_ahead h fun b hb => ?_
    obtain rfl : a = b := Option.some.inj (ha.symm.trans hb)
    exact Activation.hear?_stamp hh
  | save i =>
    refine save_rule d s now i (.refl h) fun a update rest r _ _ hr => ?_
    have saved := (saveUpdate_evolves h s now a.epoch a.step update).ahead h
    rw [← hr] at saved
    exact saved.trans (onActivation_ahead saved.sound fun _ _ => ⟨rfl, rfl⟩)
  | decide i =>
    refine tell_rule d s now i (.refl h) fun a decision _ _ => ?_
    have told : Ahead d (d.onActivation i .tell) :=
      onActivation_ahead h fun b _ => b.tell_stamp
    exact told.trans ((decide_evolves told.sound s now a.epoch a.step decision).ahead told.sound)
  | expire =>
    simp only [perform]
    split
    · exact (expire_evolves h s now).ahead h
    · exact .refl h

omit now in
/-- **Every event keeps a driver sound**, and no epoch comes back. -/
theorem happen_ahead (e : Event) : Ahead d (happen (d, s) e).1 := by
  cases e with
  | move now move => exact perform_ahead h s now move
  | update now i update =>
    simp only [happen]
    split
    · exact (saveUpdate_evolves h s now ..).ahead h
    · exact .refl h
  | decision now i decision =>
    simp only [happen]
    split
    · exact (decide_evolves h s now ..).ahead h
    · exact .refl h
  | outside change => exact .refl h

end Sections

theorem run_ahead {x : Driver × Services} (h : x.1.Sound) (es : List Event) :
    Ahead x.1 (run x es).1 := by
  induction es generalizing x with
  | nil => exact .refl h
  | cons e es ih =>
    have first := happen_ahead h x.2 e
    exact first.trans (ih first.sound)

/-! ### What retires an activation, and what it can do from then on -/

/-- The activation was launched, and the flow does not wait for it any more. -/
def Retired (d : Driver) (i : Nat) : Prop := i < d.activations.length ∧ d.active ≠ some i

/-- The event is a decision about an activation of the current epoch of a running flow, so that it
gets past the guard. -/
def Decides (d : Driver) (i : Nat) : Event → Prop
  | .move _ (.decide j) => j = i ∧ d.isRunning ∧
    ∃ a decision, d.activations[i]? = some a ∧ a.decision? = some decision ∧ a.epoch = d.epoch
  | .decision _ j _ => j = i ∧ d.isRunning ∧ ∃ a, d.activations[i]? = some a ∧ a.epoch = d.epoch
  | _ => False

/-- The event is a decision about an activation, a pause, or the deadline. -/
def Retires (d : Driver) (i : Nat) : Event → Prop
  | .move _ .pause => True
  | .move now .expire => d.watchdog.any (· ≤ now)
  | e => Decides d i e

theorem saveUpdate_stale {d : Driver} {s : Services} {now epoch : Nat} {step : String}
    {update : StepUpdate} (h : d.epoch ≠ epoch) :
    d.saveUpdate s now epoch step update = (.ok (), d, s) := by
  unfold saveUpdate
  rw [if_pos h]

theorem stamps_eq_some {d : Driver} {i : Nat} {a : Activation} (h : d.activations[i]? = some a) :
    d.stamps[i]? = some (a.epoch, a.aborted) := by
  rw [stamps, List.getElem?_map, h, Option.map_some]

/-- A decision that gets past the guard begins a new epoch with nothing active. -/
theorem Decides.ends {d : Driver} {i : Nat} {e : Event} (h : Decides d i e) (s : Services) :
    (∃ a, d.activations[i]? = some a ∧ a.epoch = d.epoch) ∧
      d.epoch < (happen (d, s) e).1.epoch ∧ (happen (d, s) e).1.active = none := by
  cases e with
  | move now move =>
    cases move with
    | decide j =>
      obtain ⟨rfl, hrun, a, decision, ha, hd, he⟩ := h
      refine ⟨⟨a, ha, he⟩, ?_⟩
      have hr : (d.onActivation j .tell).record.state = .running := by
        simpa [isRunning, onActivation] using hrun
      obtain ⟨hlt, hactive, -, -⟩ := decide_retires (d := d.onActivation j .tell) he.symm hr s now
        a.step decision
      simp only [happen, perform, ha, hd]
      exact ⟨hlt, hactive⟩
    | _ => exact absurd h id
  | decision now j decision =>
    obtain ⟨rfl, hrun, a, ha, he⟩ := h
    refine ⟨⟨a, ha, he⟩, ?_⟩
    obtain ⟨hlt, hactive, -, -⟩ :=
      decide_retires he.symm (by simpa [isRunning] using hrun) s now a.step decision
    simp only [happen, ha]
    exact ⟨hlt, hactive⟩
  | update now j update => exact absurd h id
  | outside change => exact absurd h id

theorem pause_retires {d : Driver} (hrun : d.record.state = .running) (s : Services) (now : Nat) :
    (d.pause s now).2.1.active = none := by
  refine pause_rule d s now ?paused ?refused ?stopped
  case paused => exact fun h => absurd (hrun.symm.trans h) (by simp)
  case refused => exact fun h _ => absurd hrun h
  case stopped => exact fun _ => by simp

theorem expire_retires {d : Driver} (hrun : d.record.state = .running) (s : Services)
    (now : Nat) : (d.expire s now).1.active = none := by
  refine expire_rule d s now ?idle ?expired
  case idle => exact fun h => absurd hrun h
  case expired =>
    rintro d' _ rfl
    simp

/-- What retires an activation leaves none active. -/
theorem Retires.active_eq_none {d : Driver} {i : Nat} {e : Event} (h : Retires d i e)
    (hrun : d.record.state = .running) (s : Services) : (happen (d, s) e).1.active = none := by
  cases e with
  | move now move =>
    cases move with
    | pause => exact pause_retires hrun s now
    | expire =>
      have hdue : d.watchdog.any (· ≤ now) = true := h
      simp only [happen, perform]
      rw [if_pos hdue]
      exact expire_retires hrun s now
    | decide j => exact (Decides.ends (e := .move now (.decide j)) h s).2.2
    | _ => exact absurd h id
  | decision now j decision => exact (Decides.ends (e := .decision now j decision) h s).2.2
  | update now j update => exact absurd h id
  | outside change => exact absurd h id

/-- A retired activation is of an older epoch, and stays retired. -/
theorem Retired.later {d d' : Driver} {i : Nat} (h : Retired d i) (hs : d.Sound)
    (later : Ahead d d') {a : Activation} (ha : d.activations[i]? = some a) :
    a.epoch < d'.epoch ∧ Retired d' i := by
  obtain ⟨hlt, -⟩ := hs.others i _ _ (stamps_eq_some ha) h.2
  obtain ⟨b, hb⟩ := later.launched i _ _ (stamps_eq_some ha)
  have hlt' : a.epoch < d'.epoch := Nat.lt_of_lt_of_le hlt later.epoch_le
  refine ⟨hlt', ?_, fun hactive => ?_⟩
  · have := (List.getElem?_eq_some_iff.1 hb).1
    rwa [stamps, List.length_map] at this
  · have heq := (later.sound.active i hactive).2.symm.trans hb
    have : d'.epoch = a.epoch := congrArg Prod.fst (Option.some.inj heq)
    omega

/-- **Activation safety.**  In whatever state a run leaves a driver that was created:

* if an activation is active, the flow runs, the activation is of the current epoch, and the crew of
  every other one was sent home;
* of the decisions about an activation at most one gets past the guard;
* a decision that does, a pause and the deadline retire the activation that is active;
* from then on no update and no decision that carries its epoch changes anything. -/
theorem activation_safety {w w' : World} {definition : Definition} {source : Nat} {d : Driver}
    (created : w.create definition source = (.ok d, w')) (es : List Event)
    (x : Driver × Services) (hx : run (d, w'.services) es = x) :
    (∀ i, x.1.active = some i → x.1.isRunning ∧
      (∃ a, x.1.activations[i]? = some a ∧ a.epoch = x.1.epoch) ∧
      ∀ j a, j ≠ i → x.1.activations[j]? = some a → a.aborted) ∧
    (∀ i e fs e', Decides x.1 i e → ¬ Decides (run x (e :: fs)).1 i e') ∧
    (∀ i e, x.1.active = some i → Retires x.1 i e → Retired (happen x e).1 i) ∧
    (∀ i a fs, Retired x.1 i → x.1.activations[i]? = some a → Retired (run x fs).1 i ∧
      ∀ now step update decision,
        (run x fs).1.saveUpdate (run x fs).2 now a.epoch step update = (.ok (), run x fs) ∧
        (run x fs).1.decide (run x fs).2 now a.epoch step decision = run x fs) := by
  have hs : x.1.Sound := hx ▸ (run_ahead (World.create_untouched created).sound es).sound
  refine ⟨fun i hi => ?_, fun i e fs e' he he' => ?_, fun i e hi he => ?_,
    fun i a fs hret ha => ?_⟩
  · obtain ⟨hrun, hstamp⟩ := hs.active i hi
    refine ⟨by simp [isRunning, hrun], ?_, fun j b hj hb => ?_⟩
    · rw [stamps, List.getElem?_map] at hstamp
      obtain ⟨a, ha, heq⟩ := Option.map_eq_some_iff.1 hstamp
      exact ⟨a, ha, congrArg Prod.fst heq⟩
    · refine (hs.others j _ _ (stamps_eq_some hb) fun hactive => hj ?_).2
      rw [hi] at hactive
      exact (Option.some.inj hactive).symm
  · -- the first decision began a new epoch, which is that of no launched activation
    obtain ⟨⟨a, ha, hepoch⟩, hlt, -⟩ := he.ends x.2
    obtain ⟨⟨a', ha', hepoch'⟩, -, -⟩ := he'.ends (run x (e :: fs)).2
    have first := happen_ahead hs x.2 e
    have rest := run_ahead first.sound fs
    obtain ⟨b, hb⟩ := (first.trans rest).launched i _ _ (stamps_eq_some ha)
    have heq := (stamps_eq_some ha').symm.trans hb
    have : a'.epoch = a.epoch := congrArg Prod.fst (Option.some.inj heq)
    have : x.1.epoch < (run x (e :: fs)).1.epoch := Nat.lt_of_lt_of_le hlt rest.epoch_le
    omega
  · have first := happen_ahead hs x.2 e
    obtain ⟨hrun, hstamp⟩ := hs.active i hi
    obtain ⟨b, hb⟩ := first.launched i _ _ hstamp
    have hlt := (List.getElem?_eq_some_iff.1 hb).1
    rw [stamps, List.length_map] at hlt
    refine ⟨hlt, ?_⟩
    rw [he.active_eq_none hrun x.2]
    exact Option.some_ne_none i |>.symm
  · obtain ⟨hlt, hstays⟩ := hret.later hs (run_ahead hs fs) ha
    refine ⟨hstays, fun now step update decision => ?_⟩
    exact ⟨saveUpdate_stale (Nat.ne_of_gt hlt), decide_stale (.inl (Nat.ne_of_gt hlt))⟩

/-- A step that launches no task, so that the flow waits for a decision about none. -/
def launchesNone : Nat → StepContext → StepWork := fun _ _ =>
  .atOnce (.ofLaunch (.empty default) .empty)

/-- A flow that is paused while an activation is active. -/
theorem activation_safety_solo : ∃ d w' x a,
    World.empty.create (.solo launchesNone) 0 = (.ok d, w') ∧
    run (d, w'.services) [.move 0 .start, .move 0 (.proceed 0), .move 0 (.proceed 0)] = x ∧
    x.1.active = some 0 ∧ x.1.isRunning ∧
    (happen x (.move 0 .pause)).1.activations[0]? = some a ∧
    ∀ fs now step decision, (run x (.move 0 .pause :: fs)).1.decide
      (run x (.move 0 .pause :: fs)).2 now a.epoch step decision =
        run x (.move 0 .pause :: fs) := by
  have created : World.empty.create (.solo launchesNone) 0 = (.ok _, _) := rfl
  have launched := activation_safety created
    [.move 0 .start, .move 0 (.proceed 0), .move 0 (.proceed 0)] _ rfl
  have paused := activation_safety created
    [.move 0 .start, .move 0 (.proceed 0), .move 0 (.proceed 0), .move 0 .pause] _ rfl
  refine ⟨_, _, _, _, created, rfl, rfl, (launched.1 0 rfl).1, rfl, fun fs now step decision => ?_⟩
  have retired := launched.2.2.1 0 (.move 0 .pause) rfl trivial
  exact ((paused.2.2.2 0 _ fs retired rfl).2 now step (.log none []) decision).2

end Driver

end Workflow
