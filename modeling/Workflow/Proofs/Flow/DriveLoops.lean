import Workflow.Proofs.Flow.Leases

/-!
# Workflow.Proofs.Flow.DriveLoops — when one loop at a time runs the steps of a flow

A driver gives up its lock before a request looks at the record for the first time, and again
between two steps.  Whatever is done to the flow then, the request goes on with it.  So one loop at
a time runs steps exactly as long as nobody resumes the flow while a request is about to look, and
as long as that is so, a step's outcome is applied to what the step was executed for
(`one_loop_iff`).  `two_loops` is a flow for which it is not so.
-/

namespace Workflow

namespace Driver

/-- At most one request goes on. -/
def OneLoop (d : Driver) : Prop := ∀ i j, d.Alive i → d.Alive j → i = j

/-- The event resumes a flow while a request is about to look at its record. -/
def Overtakes (x : Driver × Services) : Event → Prop
  | .move now .resume => (x.1.resume x.2 now).1 = .ok () ∧ ∃ i : Nat, x.1.requests[i]? = some .ready
  | _ => False

/-- What is known of requests as long as nobody overtakes one. -/
structure Looping (d : Driver) : Prop where
  one : d.OneLoop
  waits : d.active ≠ none → ∀ i, ¬ d.Alive i
  created : d.record.state = .created → ∀ i, ¬ d.Alive i

/-- No other request goes on than before. -/
theorem Looping.keeps {d d' : Driver} (h : d.Looping) (alive : ∀ i, d'.Alive i → d.Alive i)
    (waits : d'.active ≠ none → d.active ≠ none ∨ ∀ i, ¬ d'.Alive i)
    (created : d'.record.state = .created → d.record.state = .created) : d'.Looping := by
  refine ⟨fun i j hi hj => h.one i j (alive i hi) (alive j hj), fun ha i hi => ?_,
    fun hc i hi => h.created (created hc) i (alive i hi)⟩
  rcases waits ha with hold | hnone
  · exact h.waits hold i (alive i hi)
  · exact hnone i hi

theorem Looping.kept {d d' : Driver} (h : d.Looping) (requests : d'.requests = d.requests)
    (epoch : d'.epoch = d.epoch) (active : d'.active = d.active)
    (created : d'.record.state = .created → d.record.state = .created) : d'.Looping :=
  h.keeps (fun _ hi => hi.congr requests.symm epoch.symm) (fun ha => .inl (active ▸ ha)) created

/-- A single request goes on, and the flow does not wait. -/
theorem Looping.single {d : Driver} (i : Nat) (alive : ∀ j, d.Alive j → j = i)
    (idle : d.active = none) (entered : d.record.state ≠ .created) : d.Looping :=
  ⟨fun j k hj hk => (alive j hj).trans (alive k hk).symm, fun ha => absurd idle ha,
    fun hc => absurd hc entered⟩

/-- With the same requests, no other one goes on in a later epoch. -/
theorem Sound.alive_of_requests {d d' : Driver} (h : d.Sound) (requests : d'.requests = d.requests)
    (epoch : d.epoch ≤ d'.epoch) {i : Nat} (hi : d'.Alive i) : d.Alive i := by
  obtain ⟨r, hr, hgoes⟩ := hi
  rw [requests] at hr
  refine ⟨r, hr, ?_⟩
  cases r with
  | ready => trivial
  | answered outcome => exact hgoes
  | executing e =>
    -- a step of a later epoch would not be executed yet
    have hold := (h.executing e (List.mem_of_getElem? hr)).1
    have hnew : e.epoch = d'.epoch := hgoes
    show e.epoch = d.epoch
    omega

/-- In a new epoch only what is about to look goes on. -/
theorem Sound.ready_of_epoch_lt {d d' : Driver} (h : d.Sound) (requests : d'.requests = d.requests)
    (epoch : d.epoch < d'.epoch) {i : Nat} (hi : d'.Alive i) : d.requests[i]? = some .ready := by
  obtain ⟨r, hr, hgoes⟩ := hi
  rw [requests] at hr
  cases r with
  | ready => exact hr
  | answered outcome => exact absurd hgoes id
  | executing e =>
    have hold := (h.executing e (List.mem_of_getElem? hr)).1
    have hnew : e.epoch = d'.epoch := hgoes
    omega

section Sections

variable {d : Driver} (h : d.Sound) (hd : d.Looping) (s : Services) (now : Nat)

include hd in
/-- A call that is over at once. -/
theorem Looping.answered (outcome : Except FlowError Unit) :
    (d.addRequest (.answered outcome)).Looping := by
  refine hd.keeps (fun i hi => ?_) (fun ha => .inl ha) id
  exact (alive_addRequest.1 hi).resolve_right fun hlast => hlast.2

include h hd in
/-- A flow stops, in a new epoch and with nothing active. -/
theorem Looping.stopped {d' : Driver} (requests : d'.requests = d.requests)
    (epoch : d.epoch ≤ d'.epoch) (idle : d'.active = none) (entered : d'.record.state ≠ .created) :
    d'.Looping :=
  hd.keeps (fun _ => h.alive_of_requests requests epoch) (fun ha => absurd idle ha)
    fun hc => absurd hc entered

/-- A call that has entered the first step: it is the one that goes on, or it has failed. -/
theorem entered_looping {d₁ : Driver} (running : d₁.record.state = .running)
    (idle : d₁.active = none)
    (free : (d₁.persist s now).1 = .ok () → ∀ i, ¬ d₁.Alive i)
    (failed : d₁.Looping) : (requesting (d₁.persist s now)).1.Looping := by
  rw [requesting_driver]
  cases hp : (d₁.persist s now).1 with
  | error e =>
    have saved : (d₁.persist s now).2.1.Looping := failed.kept rfl rfl rfl id
    exact saved.answered (.error e)
  | ok u =>
    refine .single d₁.requests.length (fun j hj => ?_) idle ?_
    · rcases alive_addRequest.1 hj with hold | hlast
      · exact absurd hold (free hp j)
      · exact hlast.1
    · exact fun hc => absurd (running.symm.trans hc) (by simp)

include h hd

theorem start_looping : (requesting (d.start s now)).1.Looping := by
  refine start_rule (motive := fun r => (requesting r).1.Looping) d s now ?_ ?_ ?_
  · exact fun _ => hd.answered _
  · exact fun _ _ _ _ _ => hd.answered _
  · intro lease s' hc _
    have idle : d.active = none := h.idle_of_not_running (by simp [hc])
    refine entered_looping s' now rfl idle (fun _ => hd.created hc) ?_
    exact hd.stopped h rfl (Nat.le_refl _) idle (by simp [armWatchdog, onRecord])

theorem resume_looping
    (free : (d.resume s now).1 = .ok () → ∀ i : Nat, d.requests[i]? ≠ some .ready) :
    (requesting (d.resume s now)).1.Looping := by
  revert free
  refine resume_rule (motive := fun r =>
    (r.1 = .ok () → ∀ i : Nat, d.requests[i]? ≠ some .ready) → (requesting r).1.Looping)
    d s now ?_ ?_ ?_ ?_
  · exact fun _ _ => hd.answered _
  · exact fun _ _ _ _ _ => hd.answered _
  · exact fun _ _ _ _ _ _ => hd.answered _
  · intro stored lease s' _ idle _ _ _ free
    refine entered_looping s' now rfl idle (fun hp i hi => free hp i ?_) ?_
    · refine h.ready_of_epoch_lt ?_ ?_ hi
      · rfl
      · exact Nat.lt_succ_self _
    · exact hd.stopped h rfl (Nat.le_succ _) idle (by simp [armWatchdog, resumedRecord])

theorem pause_looping : (answering (d.pause s now)).1.Looping := by
  refine pause_rule (motive := fun r => (answering r).1.Looping) d s now ?_ ?_ ?_
  · exact fun _ => hd.answered _
  · exact fun _ _ => hd.answered _
  · intro _
    rw [answering_driver]
    refine Looping.answered (hd.stopped h ?_ ?_ ?_ ?_) _
    all_goals simp

omit h in
theorem moveTo_looping (step : String) : (answering (d.moveTo s now step)).1.Looping := by
  refine moveTo_rule (motive := fun r => (answering r).1.Looping) d s now step ?_ ?_
  · exact fun _ => hd.answered _
  · intro _ _
    have moved : ((d.onRecord (·.advanceTo step)).persist s now).2.1.Looping :=
      hd.kept rfl rfl rfl id
    exact moved.answered _

omit h in
/-- A request that goes on is in a new phase. -/
theorem Looping.setRequest {i : Nat} (hi : d.Alive i) (r : Request) :
    (d.setRequest i r).Looping := by
  have hlt : i < d.requests.length := by
    obtain ⟨r, hr, -⟩ := hi
    exact (List.getElem?_eq_some_iff.1 hr).1
  refine hd.keeps (fun j hj => ?_) (fun ha => .inl ha) id
  rcases (alive_setRequest hlt).1 hj with ⟨-, hold⟩ | ⟨rfl, -⟩
  · exact hold
  · exact hi

theorem conclude_looping {e : Execution} {i : Nat} (hi : d.requests[i]? = some (.executing e)) :
    ((d.conclude s now e).2.1.setRequest i (d.conclude s now e).1).Looping := by
  have hlt := (List.getElem?_eq_some_iff.1 hi).1
  -- within the epoch of its execution the request goes on, and nothing is active
  have alive : d.epoch = e.epoch → d.Alive i := fun he => ⟨_, hi, he.symm⟩
  have idle : d.epoch = e.epoch → d.active = none := fun he =>
    (h.executing e (List.mem_of_getElem? hi)).2 he.symm
  refine conclude_rule (motive := fun r => (r.2.1.setRequest i r.1).Looping) d s now e
    ?dropped ?carried ?waits ?launches
  case dropped =>
    intro _ _ _
    refine hd.keeps (fun j hj => ?_) (fun ha => .inl ha) id
    exact ((alive_setRequest hlt).1 hj).elim (fun hold => hold.2) fun hnew => absurd hnew.2 id
  case carried =>
    intro decision s' he hrun _ _
    have routed := applyDecision_routed (.ofVirtualMs now) e.step decision hrun
    have requests := (carryOn_requests (d.applyDecision (.ofVirtualMs now) e.step decision) s'
      now).trans routed.requests
    refine .single i (fun j hj => ?_) ?_ ?_
    · rcases (alive_setRequest (by rw [requests]; exact hlt)).1 hj with ⟨-, hold⟩ | ⟨rfl, -⟩
      · refine hd.one j i (h.alive_of_requests requests ?_ hold) (alive he)
        rw [carryOn_epoch]
        exact routed.epoch_le
      · rfl
    · exact ((carryOn_active ..).trans routed.active).trans (idle he)
    · exact fun hc => routed.entered ((carryOn_state _ s' now).symm.trans hc)
  case waits =>
    rintro log s' d' he hrun _ _ rfl
    rw [logStep_eq, releaseLease_driver]
    have kept : Looping { ((d.onRecord fun r =>
        if d.keepsLog e.step then r.appendLog e.step none log (.ofVirtualMs now)
        else r).persist s' now).2.1 with lease := none } :=
      hd.kept rfl rfl rfl fun hc => by
        simp only [persist_driver, onRecord, Record.touch_state] at hc
        split at hc <;> simpa using hc
    exact kept.setRequest (alive he) _
  case launches =>
    rintro log l s' d' he hrun _ _ hd'
    have requests : d'.requests = d.requests := by rw [hd']; simp [logStep_eq, onRecord]
    have epoch : d.epoch < d'.epoch := by rw [hd']; simp [logStep_eq, onRecord]
    rw [releaseLease_driver]
    -- in the new epoch nothing goes on: a request about to look would be a second one
    have nothing : ∀ j, ¬ ({ (d'.persist s' now).2.1 with lease := none }.setRequest i
        (.answered (d'.persist s' now).1)).Alive j := by
      intro j hj
      rcases (alive_setRequest (requests ▸ hlt : i < d'.requests.length)).1 hj with
        ⟨hne, hold⟩ | ⟨-, hnew⟩
      · have ready : d.requests[j]? = some .ready := h.ready_of_epoch_lt requests epoch hold
        exact hne (hd.one j i ⟨_, ready, trivial⟩ (alive he))
      · exact hnew
    refine hd.keeps (fun j hj => absurd hj (nothing j)) (fun _ => .inr nothing) fun hc => ?_
    rw [hd'] at hc
    simp [setRequest, hrun] at hc

omit h in
theorem look_looping {i : Nat} (hi : d.requests[i]? = some .ready) :
    (d.setRequest i (d.look s now).1).Looping :=
  hd.setRequest ⟨_, hi, trivial⟩ _

omit h in
theorem saveUpdate_looping (epoch : Nat) (step : String) (update : StepUpdate) :
    (d.saveUpdate s now epoch step update).2.1.Looping := by
  refine saveUpdate_rule (motive := fun r => r.2.1.Looping) d s now epoch step update ?_ ?_
  · exact fun _ => hd
  · exact fun r _ hr _ => hd.kept rfl rfl rfl fun hc => hr.symm.trans hc

theorem decide_looping {i : Nat} {a : Activation} (ha : d.activations[i]? = some a)
    (step : String) (decision : Decision) : (d.decide s now a.epoch step decision).1.Looping := by
  refine decide_rule (motive := fun r => r.1.Looping) d s now a.epoch step decision
    ?stale ?unleased ?decided
  case stale => exact fun _ => hd
  case unleased =>
    intro _ _ _ hrun _ _
    refine hd.stopped h ?_ ?_ ?_ ?_ <;> simp [hrun]
  case decided =>
    rintro lease s' d' he hrun _ rfl
    -- the flow waits for the activation, so no request goes on
    have waits : d.active ≠ none := by
      intro hnone
      have := (h.others i a.epoch a.aborted (stamps_eq_some ha) (by simp [hnone])).1
      omega
    have hrun' : { d.retired with lease := some lease }.record.state = .running := by
      simpa using hrun
    have routed := applyDecision_routed (.ofVirtualMs now) step decision hrun'
    have requests := (carryOn_requests ({ d.retired with lease := some lease }.applyDecision
      (.ofVirtualMs now) step decision) s' now).trans
        (routed.requests.trans (retired_requests d))
    refine .single d.requests.length (fun j hj => ?_) ?_ ?_
    · rcases alive_addRequest.1 hj with hold | ⟨hlast, -⟩
      · refine absurd (h.alive_of_requests requests ?_ hold) (hd.waits waits j)
        rw [carryOn_epoch]
        exact Nat.le_trans (by simp) routed.epoch_le
      · rw [hlast, requests]
    · exact ((carryOn_active ..).trans routed.active).trans (retired_active d)
    · exact fun hc => routed.entered ((carryOn_state _ s' now).symm.trans hc)

theorem expire_looping : (d.expire s now).1.Looping := by
  refine expire_rule (motive := fun r => r.1.Looping) d s now ?idle ?expired
  case idle => exact fun _ => hd.kept rfl rfl rfl id
  case expired =>
    rintro d' _ rfl
    rw [releaseLease_driver]
    refine hd.stopped h ?_ ?_ ?_ ?_ <;> simp

theorem proceed_looping (i : Nat) : (d.proceed s now i).1.Looping := by
  unfold proceed
  split
  · rename_i hi
    exact look_looping hd s now hi
  · rename_i e hi
    split
    · exact conclude_looping h hd s now hi
    · exact hd
  · exact hd

omit h in
/-- What happens to crews and listeners is nothing to requests. -/
theorem Looping.onActivation (i : Nat) (change : Activation → Activation) :
    (d.onActivation i change).Looping :=
  hd.kept rfl rfl rfl id

theorem perform_looping (move : Move) (free : ¬ Overtakes (d, s) (.move now move)) :
    (d.perform s now move).1.Looping := by
  cases move with
  | start => exact start_looping h hd s now
  | resume => exact resume_looping h hd s now fun hok i hi => free ⟨hok, i, hi⟩
  | pause => exact pause_looping h hd s now
  | moveTo step => exact moveTo_looping hd s now step
  | proceed i => exact proceed_looping h hd s now i
  | work i => exact work_rule d s now i hd fun _ _ _ _ _ _ => hd.onActivation i _
  | hear i => exact hear_rule d s now i hd fun _ _ _ _ => hd.onActivation i _
  | save i =>
    refine save_rule d s now i hd fun a update rest r _ _ hr => ?_
    subst hr
    exact (saveUpdate_looping hd s now a.epoch a.step update).onActivation i _
  | decide i =>
    refine tell_rule d s now i hd fun a decision ha _ => ?_
    have told : (d.onActivation i .tell).Sound :=
      (onActivation_ahead h fun b _ => b.tell_stamp).sound
    have ha' : (d.onActivation i .tell).activations[i]? = some a.tell := by
      simp [Driver.onActivation, ha]
    rw [← a.tell_stamp.1]
    exact decide_looping told (hd.onActivation i .tell) s now ha' a.step decision
  | expire =>
    simp only [perform]
    split
    · exact expire_looping h hd s now
    · exact hd

omit now in
theorem happen_looping (e : Event) (free : ¬ Overtakes (d, s) e) :
    (happen (d, s) e).1.Looping := by
  cases e with
  | move now move => exact perform_looping h hd s now move free
  | update now i update =>
    simp only [happen]
    split
    · exact saveUpdate_looping hd s now ..
    · exact hd
  | decision now i decision =>
    simp only [happen]
    split
    · rename_i a ha
      exact decide_looping h hd s now ha a.step decision
    · exact hd
  | outside change => exact hd

end Sections

theorem Untouched.looping {d : Driver} (h : d.Untouched) : d.Looping := by
  have none_ : ∀ i, ¬ d.Alive i := by
    rintro i ⟨r, hr, -⟩
    rw [h.requests] at hr
    simp at hr
  exact ⟨fun i _ hi => absurd hi (none_ i), fun _ => none_, fun _ => none_⟩

/-- In this run nobody resumes the flow while a request is about to look. -/
def Unhurried (x : Driver × Services) (es : List Event) : Prop :=
  ∀ fs e gs, es = fs ++ e :: gs → ¬ Overtakes (run x fs) e

theorem Unhurried.tail {x : Driver × Services} {e : Event} {es : List Event}
    (h : Unhurried x (e :: es)) : Unhurried (happen x e) es :=
  fun fs e' gs heq => h (e :: fs) e' gs (by rw [heq]; rfl)

theorem run_looping {x : Driver × Services} (h : x.1.Sound) (hd : x.1.Looping) (es : List Event)
    (free : Unhurried x es) : (run x es).1.Looping := by
  induction es generalizing x with
  | nil => exact hd
  | cons e es ih =>
    have first := happen_looping h hd x.2 e (free [] e es rfl)
    exact ih (happen_ahead h x.2 e).sound first free.tail

theorem Unhurried.of_prefix {x : Driver × Services} {es fs : List Event} (h : Unhurried x es)
    (hp : fs <+: es) : Unhurried x fs := by
  obtain ⟨rest, rfl⟩ := hp
  exact fun gs e hs heq => h gs e (hs ++ rest) (by rw [heq]; simp)

/-- A flow that is resumed while a request is about to look has two requests that go on. -/
theorem Overtakes.not_oneLoop {x : Driver × Services} {e : Event} (h : Overtakes x e) :
    ¬ (happen x e).1.OneLoop := by
  obtain ⟨d, s⟩ := x
  cases e with
  | move now move =>
    cases move with
    | resume =>
      obtain ⟨hok, i, hi⟩ := h
      have hlt := (List.getElem?_eq_some_iff.1 hi).1
      intro one
      simp only [happen, perform, requesting_driver] at one
      have requests : (d.resume s now).2.1.requests = d.requests := by
        exact resume_rule (motive := fun r => r.2.1.requests = d.requests) d s now
          (fun _ => rfl) (fun _ _ _ _ => rfl) (fun _ _ _ _ _ => rfl) fun _ _ _ _ _ _ _ _ => rfl
      have waiting : ((d.resume s now).2.1.addRequest (.ofStart (d.resume s now).1)).Alive i :=
        alive_addRequest.2 (.inl ⟨.ready, by rw [requests]; exact hi, trivial⟩)
      have resumed : ((d.resume s now).2.1.addRequest (.ofStart (d.resume s now).1)).Alive
          d.requests.length :=
        alive_addRequest.2 (.inr ⟨by rw [requests], by rw [hok]; trivial⟩)
      exact Nat.ne_of_lt hlt (one _ _ waiting resumed)
    | _ => exact absurd h id
  | update now i update => exact absurd h id
  | decision now i decision => exact absurd h id
  | outside change => exact absurd h id

/-! ### Outcomes -/

/-- The event applies the outcome of a step to the record: that of a request that has executed it,
or a decision about its tasks. -/
def Applies (d : Driver) : Event → Prop
  | .move now (.proceed i) => d.isRunning ∧
    ∃ e, d.requests[i]? = some (.executing e) ∧ e.due ≤ now ∧ e.epoch = d.epoch
  | e => ∃ i, Decides d i e

/-- Throughout a run a request executes a step. -/
def Executes (x : Driver × Services) (i : Nat) (e : Execution) (es : List Event) : Prop :=
  ∀ fs, fs <+: es → (run x fs).1.requests[i]? = some (.executing e)

theorem Executes.tail {x : Driver × Services} {i : Nat} {e : Execution} {e' : Event}
    {es : List Event} (h : Executes x i e (e' :: es)) : Executes (happen x e') i e es :=
  fun fs hp => h (e' :: fs) ((List.prefix_cons_inj e').2 hp)

/-- The flow stays in its state and on its step. -/
structure Steady (d d' : Driver) : Prop where
  state : d'.record.state = d.record.state
  step : d'.record.currentStep = d.record.currentStep

theorem Steady.refl (d : Driver) : Steady d d := ⟨rfl, rfl⟩

section Steady

variable {d : Driver} (hrun : d.record.state = .running) (s : Services) (now : Nat)

theorem saveUpdate_steady (epoch : Nat) (step : String) (update : StepUpdate) :
    Steady d (d.saveUpdate s now epoch step update).2.1 :=
  saveUpdate_rule (motive := fun r => Steady d r.2.1) d s now epoch step update (fun _ => .refl d)
    fun _ _ hr hstep => ⟨hr, hstep⟩

include hrun

theorem proceed_steady (i : Nat) (outcome : ¬ Applies d (.move now (.proceed i))) :
    Steady d (d.proceed s now i).1 := by
  unfold proceed
  split
  · exact ⟨rfl, rfl⟩
  · rename_i e hi
    split
    · rename_i hdue
      have applied : d.epoch = e.epoch → False := fun he =>
        outcome ⟨by simp [isRunning, hrun], e, hi, hdue, he.symm⟩
      refine conclude_rule (motive := fun r => Steady d (r.2.1.setRequest i r.1)) d s now e
        ?_ ?_ ?_ ?_
      · exact fun _ _ _ => ⟨rfl, rfl⟩
      · exact fun _ _ he _ _ _ => (applied he).elim
      · exact fun _ _ _ he _ _ _ _ => (applied he).elim
      · exact fun _ _ _ _ he _ _ _ _ => (applied he).elim
    · exact .refl d
  · exact .refl d

/-- Within an epoch only an outcome takes a running flow to another state or step. -/
theorem perform_steady (move : Move) (outcome : ¬ Applies d (.move now move)) :
    (d.perform s now move).1.epoch = d.epoch → Steady d (d.perform s now move).1 := by
  cases move with
  | start =>
    refine start_rule (motive := fun r => (requesting r).1.epoch = d.epoch →
      Steady d (requesting r).1) d s now ?_ ?_ ?_
    · exact fun _ _ => ⟨rfl, rfl⟩
    · exact fun _ _ hc => absurd (hrun.symm.trans hc) (by simp)
    · exact fun _ _ hc => absurd (hrun.symm.trans hc) (by simp)
  | resume =>
    refine resume_rule (motive := fun r => (requesting r).1.epoch = d.epoch →
      Steady d (requesting r).1) d s now ?_ ?_ ?_ ?_
    · exact fun _ _ => ⟨rfl, rfl⟩
    · exact fun _ _ _ _ _ => ⟨rfl, rfl⟩
    · exact fun _ _ _ _ _ _ => ⟨rfl, rfl⟩
    · -- a resumed flow has a new epoch
      exact fun _ _ _ _ _ _ _ _ epoch => absurd epoch (Nat.succ_ne_self d.epoch)
  | pause =>
    refine pause_rule (motive := fun r => (answering r).1.epoch = d.epoch →
      Steady d (answering r).1) d s now ?_ ?_ ?_
    · exact fun _ _ => ⟨rfl, rfl⟩
    · exact fun _ _ _ => ⟨rfl, rfl⟩
    · intro _ epoch
      simp [answering, addRequest] at epoch
  | moveTo step =>
    refine moveTo_rule (motive := fun r => (answering r).1.epoch = d.epoch →
      Steady d (answering r).1) d s now step ?_ ?_
    · exact fun _ _ => ⟨rfl, rfl⟩
    · exact fun _ hstop => absurd hrun hstop
  | proceed i => exact fun _ => proceed_steady hrun s now i outcome
  | work i => exact fun _ => work_rule d s now i (.refl d) fun _ _ _ _ _ _ => ⟨rfl, rfl⟩
  | hear i => exact fun _ => hear_rule d s now i (.refl d) fun _ _ _ _ => ⟨rfl, rfl⟩
  | save i =>
    refine fun _ => save_rule d s now i (.refl d) fun a update rest r _ _ hr => ?_
    subst hr
    obtain ⟨hstate, hstep⟩ := saveUpdate_steady (d := d) s now a.epoch a.step update
    exact ⟨hstate, hstep⟩
  | decide i =>
    refine fun _ => tell_rule d s now i (.refl d) fun a decision ha hd => ?_
    -- only a decision about the epoch that goes on is applied
    have stale : (d.onActivation i .tell).epoch ≠ a.epoch := fun he =>
      outcome ⟨i, rfl, by simp [isRunning, hrun], a, decision, ha, hd, he.symm⟩
    rw [decide_stale (.inl stale)]
    exact ⟨rfl, rfl⟩
  | expire =>
    simp only [perform]
    split
    · refine expire_rule (motive := fun r => r.1.epoch = d.epoch → Steady d r.1) d s now ?_ ?_
      · exact fun hstop => absurd hrun hstop
      · rintro d' _ rfl epoch
        simp at epoch
    · exact fun _ => .refl d

omit now in
theorem happen_steady (e : Event) (outcome : ¬ Applies d e)
    (epoch : (happen (d, s) e).1.epoch = d.epoch) : Steady d (happen (d, s) e).1 := by
  cases e with
  | move now move => exact perform_steady hrun s now move outcome epoch
  | update now i update =>
    simp only [happen]
    split
    · exact saveUpdate_steady s now ..
    · exact .refl d
  | decision now i decision =>
    simp only [happen]
    split
    · rename_i a ha
      have stale : d.epoch ≠ a.epoch := fun he =>
        outcome ⟨i, rfl, by simp [isRunning, hrun], a, ha, he.symm⟩
      rw [decide_stale (.inl stale)]
      exact .refl d
    · exact .refl d
  | outside change => exact .refl d

end Steady

/-- Once its outcome is applied a request executes the step no more. -/
theorem conclude_request_ne_executing (d : Driver) (s : Services) (now : Nat) (e e' : Execution) :
    (d.conclude s now e).1 ≠ .executing e' := by
  refine conclude_rule (motive := fun r => r.1 ≠ .executing e') d s now e ?_ ?_ ?_ ?_
  · exact fun _ _ _ => by simp
  · exact fun _ _ _ _ _ _ => carryOn_request_ne_executing _ _ _ e'
  · exact fun _ _ _ _ _ _ _ _ => by simp
  · exact fun _ _ _ _ _ _ _ _ _ => by simp

/-- While a request executes a step of the current epoch nothing is applied, if no other one goes
on. -/
theorem OneLoop.not_applies {d : Driver} {s : Services} (one : d.OneLoop) {i : Nat} {e : Execution}
    {e' : Event} (hi : d.requests[i]? = some (.executing e)) (current : d.epoch = e.epoch)
    (hi' : (happen (d, s) e').1.requests[i]? = some (.executing e))
    (epoch : (happen (d, s) e').1.epoch ≤ d.epoch) : ¬ Applies d e' := by
  intro applied
  have decided : ∀ j, ¬ Decides d j e' := by
    intro j hd
    have := (hd.ends s).2.1
    omega
  cases e' with
  | move now move =>
    cases move with
    | proceed j =>
      obtain ⟨-, e₂, hj, hdue, he₂⟩ := applied
      obtain rfl : i = j := one i j ⟨_, hi, current.symm⟩ ⟨_, hj, he₂⟩
      obtain rfl : e = e₂ := by simpa using hi.symm.trans hj
      simp only [happen, perform, proceed, hj, hdue, if_true, setRequest, List.getElem?_set] at hi'
      split at hi'
      · exact conclude_request_ne_executing d s now e e (Option.some.inj hi')
      · cases hi'
    | _ => exact applied.elim decided
  | _ => exact applied.elim decided

/-- As long as a request executes a step of the epoch in which the execution ends, the flow stays on
the step and nothing is applied. -/
theorem Executes.unchanged {x : Driver × Services} (h : x.1.Sound) (hd : x.1.Looping) {i : Nat}
    {e : Execution} {es : List Event} (free : Unhurried x es) (executes : Executes x i e es)
    (hrun : x.1.record.state = .running) (current : x.1.epoch = e.epoch)
    (hstep : x.1.record.currentStep = some e.step) (last : (run x es).1.epoch = e.epoch) :
    (run x es).1.record.currentStep = some e.step ∧
      ∀ fs e' gs, es = fs ++ e' :: gs → ¬ Applies (run x fs).1 e' := by
  induction es generalizing x with
  | nil => exact ⟨hstep, fun fs e' gs heq => by simp at heq⟩
  | cons e' es ih =>
    have ahead : Ahead x.1 (happen x e').1 := happen_ahead h x.2 e'
    have rest : Ahead (happen x e').1 (run (happen x e') es).1 := run_ahead ahead.sound es
    have hnow : (happen x e').1.epoch = e.epoch := by
      have := ahead.epoch_le
      have := rest.epoch_le
      rw [run_cons] at last
      omega
    have hi : x.1.requests[i]? = some (.executing e) := executes [] List.nil_prefix
    have outcome : ¬ Applies x.1 e' :=
      hd.one.not_applies hi current (executes.tail [] List.nil_prefix) (s := x.2) (by
        rw [current]
        exact Nat.le_of_eq hnow)
    have steady := happen_steady hrun x.2 e' outcome (hnow.trans current.symm)
    obtain ⟨hlast, hnone⟩ := ih ahead.sound
      (happen_looping h hd x.2 e' (free [] e' es rfl)) free.tail executes.tail
      (steady.state.trans hrun) hnow (steady.step.trans hstep) last
    refine ⟨hlast, fun fs e₂ gs heq => ?_⟩
    cases fs with
    | nil =>
      obtain rfl : e' = e₂ := (List.cons.inj heq).1
      exact outcome
    | cons e₁ fs =>
      rw [List.cons_append] at heq
      obtain ⟨rfl, hrest⟩ := List.cons.inj heq
      exact hnone fs e₂ gs hrest

/-- A request that looks executes the current step, in the current epoch. -/
theorem look_executing {d : Driver} {s : Services} {now : Nat} {e : Execution}
    (h : (d.look s now).1 = .executing e) : d.record.state = .running ∧
      d.record.currentStep = some e.step ∧ e.epoch = d.epoch := by
  revert h
  refine look_rule (motive := fun r => r.1 = .executing e → _) d s now ?_ ?_ ?_
  · exact fun _ h => by simp at h
  · exact fun _ _ _ h => by simp at h
  · intro e' s' hrun _ hstep he _ h
    cases h
    exact ⟨hrun, hstep, he⟩

/-- **One loop at a time runs the steps of a flow** exactly as long as nobody resumes the flow while
a request is about to look at its record.  As long as that is so, let a request look and execute a
step until its outcome would be applied, in the epoch in which it looked: then the flow is still on
the step, and no other outcome was applied since the request looked. -/
theorem one_loop_iff {w w' : World} {definition : Definition} {source : Nat} {d : Driver}
    (created : w.create definition source = (.ok d, w')) (es : List Event) :
    (Unhurried (d, w'.services) es ↔ ∀ fs, fs <+: es → (run (d, w'.services) fs).1.OneLoop) ∧
    (Unhurried (d, w'.services) es → ∀ fs now i gs e x,
      es = fs ++ .move now (.proceed i) :: gs →
      happen (run (d, w'.services) fs) (.move now (.proceed i)) = x →
      (run (d, w'.services) fs).1.requests[i]? = some .ready → Executes x i e gs →
      (run x gs).1.epoch = e.epoch →
      (run x gs).1.record.currentStep = some e.step ∧
        ∀ hs e' hs', gs = hs ++ e' :: hs' → ¬ Applies (run x hs).1 e') := by
  have untouched := World.create_untouched created
  have sound := untouched.sound
  refine ⟨⟨fun free fs hp => ?_, fun one fs e gs heq hover => ?_⟩,
    fun free fs now i gs e x heq hx hready executes last => ?_⟩
  · exact (run_looping sound untouched.looping fs (free.of_prefix hp)).one
  · -- an entry that overtakes a loop makes a second one
    refine hover.not_oneLoop ?_
    rw [← run_concat]
    exact one _ ⟨gs, by rw [heq]; simp⟩
  · generalize hy : run (d, w'.services) fs = y at *
    have later : y.1.Sound := hy ▸ (run_ahead (x := (d, w'.services)) sound fs).sound
    have before : y.1.Looping :=
      hy ▸ run_looping (x := (d, w'.services)) sound untouched.looping fs
        (free.of_prefix ⟨_, heq.symm⟩)
    have rest : Unhurried y (.move now (.proceed i) :: gs) := by
      intro gs' e' hs hgs
      rw [← hy, ← run_append]
      exact free (fs ++ gs') e' hs (by rw [heq, hgs, List.append_assoc])
    have hlt := (List.getElem?_eq_some_iff.1 hready).1
    -- the request has just looked for the step that it executes
    have looked : (y.1.look y.2 now).1 = .executing e := by
      have hi : x.1.requests[i]? = _ := executes [] List.nil_prefix
      simp only [← hx, happen, perform, proceed, hready, setRequest] at hi
      rw [List.getElem?_set_self hlt] at hi
      exact Option.some.inj hi
    obtain ⟨hrun, hstep, he⟩ := look_executing looked
    have hx₁ : x.1 = y.1.setRequest i (.executing e) := by
      simp only [← hx, happen, perform, proceed, hready, looked]
    subst hx
    refine executes.unchanged (happen_ahead later y.2 _).sound
      (happen_looping later before y.2 _ (rest [] _ gs rfl)) rest.tail ?_ ?_ ?_ last
    · rw [hx₁]
      exact hrun
    · rw [hx₁]
      exact he.symm
    · rw [hx₁]
      exact hstep

/-- A flow of two steps: the first leads to the second, which completes the flow. -/
def twoSteps : Definition where
  flowType := "two steps"
  properties := default
  steps := [⟨.named "first", .fixed (.runTo "second"), .empty, default⟩,
    ⟨.named "second", .fixed (.park .completed .success none), .empty, default⟩]
  firstStep := "first"
  nodup := by decide
  firstStep_mem := by decide
  targets_mem := by decide

/-- The flow is paused and resumed before the first call looks.  Two loops execute the first step,
and when the one has led the flow to the second step, the outcome of the other is about to be
applied. -/
theorem two_loops : ∃ d w' x e,
    World.empty.create twoSteps 0 = (.ok d, w') ∧
    run (d, w'.services) [.move 0 .start, .move 0 .pause, .move 0 .resume, .move 0 (.proceed 0),
      .move 0 (.proceed 2), .move 0 (.proceed 0)] = x ∧
    x.1.requests[2]? = some (.executing e) ∧ Applies x.1 (.move 0 (.proceed 2)) ∧
    x.1.record.currentStep ≠ some e.step := by
  refine ⟨_, _, _, _, rfl, rfl, rfl, ⟨rfl, _, rfl, by decide, rfl⟩, ?_⟩
  exact fun h => absurd (Option.some.inj h) (by decide)

end Driver

end Workflow
