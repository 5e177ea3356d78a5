import Workflow.Proofs.Flow.ActivationSafety

/-!
# Workflow.Proofs.Flow.Leases — when a driver gives its lease back, and when it cannot

While nobody else touches the lock of a flow, the lock service has a lease for the flow exactly as
long as the driver has one (`Registered`), and the driver has one only as long as a request runs
steps with it (`Accounted`).  The one exception is a call that ends with a failed save: it may leave
the lease behind (`Strands`), and then nobody has it given back.  A lease that is left behind by a
flow that does not run stays there for good.
-/

namespace Workflow

/-! ### A lock service that works -/

/-- No call fails. -/
def Outage.Works (o : Outage) : Prop := o.coming = 0 ∧ ∀ n, o.planned n = false

theorem Outage.Works.call {o : Outage} (h : o.Works) : o.call.1 = false ∧ o.call.2.Works := by
  refine ⟨?_, ?_, h.2⟩
  · simp [Outage.call, h.1, h.2]
  · simp [Outage.call, h.1]

namespace Services

/-- Neither taking out a lease nor giving it back fails. -/
structure LocksWork (s : Services) : Prop where
  acquiring : s.acquiring.Works
  releasing : s.releasing.Works

/-- What the lock service depends on. -/
def lockSide (s : Services) : Locks × Outage × Outage := (s.locks, s.acquiring, s.releasing)

@[simp] theorem save_lockSide (s : Services) (r : Record) : (s.save r).2.lockSide = s.lockSide := by
  unfold save
  simp only
  split <;> rfl

@[simp] theorem find_lockSide (s : Services) (flow : FlowId) :
    (s.find flow).2.lockSide = s.lockSide := by
  unfold find lookUp
  simp only
  split <;> rfl

/-- A lock service that works gives a lease of a flow that has none. -/
theorem LocksWork.acquire {s : Services} (h : s.LocksWork) {flow : FlowId}
    (free : s.locks.held.get? flow = none) : ∃ lease s', s.acquire flow = (.ok lease, s') ∧
      s'.LocksWork ∧ lease.flow = flow ∧ s'.locks.held.get? flow = some lease.id := by
  have hfree : s.locks.isHeld flow = false := by simp [Locks.isHeld, Table.contains, free]
  have hcall := h.acquiring.call
  unfold Services.acquire
  rcases hc : s.acquiring.call with ⟨fails, acquiring⟩
  rw [hc] at hcall
  obtain ⟨rfl, hworks⟩ := hcall
  simp only [Bool.false_eq_true, if_false, Locks.acquire, hfree]
  exact ⟨_, _, rfl, ⟨hworks, h.releasing⟩, rfl, Table.get?_put_self ..⟩

/-- A lock service that works takes the current lease of a flow back. -/
theorem LocksWork.release {s : Services} (h : s.LocksWork) {lease : Lease}
    (held : s.locks.held.get? lease.flow = some lease.id) : (s.release lease).2.LocksWork ∧
      (s.release lease).2.locks.held.get? lease.flow = none := by
  have hcall := h.releasing.call
  unfold Services.release
  rcases hc : s.releasing.call with ⟨fails, releasing⟩
  rw [hc] at hcall
  obtain ⟨rfl, hworks⟩ := hcall
  simp only [Bool.false_eq_true, if_false, Locks.release, if_pos held]
  exact ⟨⟨h.acquiring, hworks⟩, Table.get?_erase_self ..⟩

end Services

namespace Driver

/-- The lock service works, and has a lease of the flow exactly if the driver has it. -/
structure Registered (x : Driver × Services) : Prop where
  works : x.2.LocksWork
  own : ∀ lease, x.1.lease = some lease → lease.flow = x.1.flow
  held : x.2.locks.held.get? x.1.flow = x.1.lease.map Lease.id

theorem Registered.congr {x x' : Driver × Services} (h : Registered x)
    (lease : x'.1.lease = x.1.lease) (flow : x'.1.flow = x.1.flow)
    (side : x'.2.lockSide = x.2.lockSide) : Registered x' := by
  obtain ⟨hlocks, hacquiring, hreleasing⟩ : x'.2.locks = x.2.locks ∧
      x'.2.acquiring = x.2.acquiring ∧ x'.2.releasing = x.2.releasing := by
    simpa [Services.lockSide] using side
  refine ⟨⟨hacquiring ▸ h.works.acquiring, hreleasing ▸ h.works.releasing⟩, ?_, ?_⟩
  · rw [lease, flow]
    exact h.own
  · rw [lease, flow, hlocks]
    exact h.held

section Registered

variable {d : Driver} {s s' : Services} (h : Registered (d, s))
include h

theorem Registered.free (hl : d.lease = none) : s.locks.held.get? d.flow = none := by
  have held := h.held
  simpa [hl] using held

theorem Registered.acquired (hl : d.lease = none) : ∃ lease s', s.acquire d.flow = (.ok lease, s') ∧
    Registered ({ d with lease := some lease }, s') := by
  obtain ⟨lease, s', hgot, hworks, hflow, hheld⟩ := h.works.acquire (h.free hl)
  refine ⟨lease, s', hgot, hworks, fun l hl => ?_, hheld⟩
  cases hl
  exact hflow

/-- A lease is never refused. -/
theorem Registered.not_refused {e : LockError} (hl : d.lease = none)
    (he : s.acquire d.flow = (.error e, s')) : False := by
  obtain ⟨lease, s₁, hgot, -⟩ := h.acquired hl
  rw [hgot] at he
  cases he

theorem Registered.leased {lease : Lease} (hl : Leased d s lease s') :
    Registered ({ d with lease := some lease }, s') := by
  cases hl with
  | had hl => exact h.congr hl.symm rfl rfl
  | given hl got =>
    obtain ⟨lease', s₁, hgot, hreg⟩ := h.acquired hl
    rw [got] at hgot
    cases hgot
    exact hreg

theorem Registered.released : Registered (d.releaseLease s) := by
  unfold releaseLease
  cases hl : d.lease with
  | none => exact h
  | some lease =>
    have hflow := h.own lease hl
    have hheld : s.locks.held.get? lease.flow = some lease.id := by
      have held := h.held
      rw [hl, ← hflow] at held
      exact held
    obtain ⟨hworks, hfree⟩ := h.works.release hheld
    exact ⟨hworks, fun l hl => (Option.some_ne_none l hl.symm).elim, hflow ▸ hfree⟩

theorem Registered.persisted (now : Nat) : Registered (d.persist s now).2 :=
  h.congr rfl rfl (Services.save_lockSide ..)

theorem Registered.settled : Registered (d.settle s) := by
  have unarmed : Registered ({ d with watchdog := none }, s) := h.congr rfl rfl rfl
  exact unarmed.released

theorem Registered.carriedOn (now : Nat) : Registered (d.carryOn s now).2 := by
  refine carryOn_rule d s now ?failed ?going ?settled
  case failed => exact fun _ _ => h.persisted now
  case going => exact fun _ _ => h.persisted now
  case settled => exact fun _ _ => (h.persisted now).settled

end Registered

/-! ### Who has the lease -/

/-- A driver with a lease runs, waits for no activation, and has a request that goes on with it. -/
def Accounted (d : Driver) : Prop :=
  d.lease ≠ none → d.record.state = .running ∧ d.active = none ∧ ∃ i, d.Alive i

/-- A running flow is on some step. -/
def OnStep (d : Driver) : Prop := d.record.state = .running → d.record.currentStep ≠ none

/-- A call ends with a failed save, and the driver still has its lease. -/
def Strands (d d' : Driver) : Prop :=
  d'.lease ≠ none ∧ ∃ (i : Nat) (e : StoreError),
    d'.requests[i]? = some (.answered (.error (.store e))) ∧
    d.requests[i]? ≠ some (.answered (.error (.store e)))

theorem Accounted.of_none {d : Driver} (h : d.lease = none) : d.Accounted :=
  fun hne => absurd h hne

theorem Accounted.idle {d : Driver} (h : d.Accounted)
    (hs : d.record.state ≠ .running ∨ d.active ≠ none) : d.lease = none := by
  cases hl : d.lease with
  | none => rfl
  | some lease =>
    obtain ⟨hrun, hactive, -⟩ := h (by simp [hl])
    rcases hs with hs | hs
    · exact absurd hrun hs
    · exact absurd hactive hs

theorem Accounted.answered {d : Driver} (h : d.Accounted) (outcome : Except FlowError Unit) :
    (d.addRequest (.answered outcome)).Accounted := by
  intro hl
  obtain ⟨hrun, hactive, i, hi⟩ := h hl
  exact ⟨hrun, hactive, i, alive_addRequest.2 (.inl hi)⟩

theorem persist_error {d : Driver} {s : Services} {now : Nat} {e : FlowError}
    (h : (d.persist s now).1 = .error e) : ∃ e', e = .store e' := by
  unfold persist at h
  simp only at h
  cases hs : (s.save (d.onRecord (·.touch (.ofVirtualMs now))).record).1 with
  | ok u =>
    rw [hs] at h
    cases h
  | error e' =>
    rw [hs] at h
    cases h
    exact ⟨e', rfl⟩

/-- A request that was open carries on: it goes on with the lease, leaves it behind after a failed
save, or has given it back. -/
theorem carryOn_accounted {d d₁ d₂ : Driver} {s : Services} {now i : Nat} (idle : d₁.active = none)
    (opened : ∀ outcome, d.requests[i]? ≠ some (.answered outcome))
    (rest : d₂ = { (d₁.carryOn s now).2.1 with requests := d₂.requests })
    (placed : d₂.requests[i]? = some (d₁.carryOn s now).1) : d₂.Accounted ∨ Strands d d₂ := by
  have hlease : d₂.lease = (d₁.carryOn s now).2.1.lease := by rw [rest]
  have hactive : d₂.active = (d₁.carryOn s now).2.1.active := by rw [rest]
  have hstate : d₂.record.state = (d₁.carryOn s now).2.1.record.state := by rw [rest]
  rw [carryOn_active] at hactive
  rw [carryOn_state] at hstate
  revert hlease placed
  refine carryOn_rule d₁ s now ?failed ?going ?settled
  case failed =>
    intro e he placed _
    obtain ⟨e', rfl⟩ := persist_error he
    by_cases hl : d₂.lease = none
    · exact .inl (.of_none hl)
    · exact .inr ⟨hl, i, e', placed, opened _⟩
  case going =>
    exact fun _ hrun placed _ => .inl fun _ =>
      ⟨hstate.trans hrun, hactive.trans idle, i, .ready, placed, trivial⟩
  case settled =>
    intro _ _ _ hlease
    exact .inl (.of_none (by simpa using hlease))

/-- What one event does to the lease. -/
structure Lends (x x' : Driver × Services) : Prop where
  flow : x'.1.flow = x.1.flow
  onStep : x'.1.OnStep
  registered : Registered x → Registered x'
  accounted : x.1.Accounted → x'.1.Accounted ∨ Strands x.1 x'.1

section Sections

variable {d : Driver} (h : d.Sound) (hs : d.OnStep) (s : Services) (now : Nat)

section Blocks

variable {s}
include hs

/-- A call that is over at once. -/
theorem OnStep.answered {s' : Services} (side : s'.lockSide = s.lockSide)
    (outcome : Except FlowError Unit) :
    Lends (d, s) (d.addRequest (.answered outcome), s') :=
  ⟨rfl, hs, fun hreg => hreg.congr rfl rfl side, fun ha => .inl (ha.answered outcome)⟩

/-- Nothing happens to requests, to the lease or to the state. -/
theorem OnStep.kept {d' : Driver} {s' : Services}
    (rest : d' = { d with
      record := d'.record, activations := d'.activations, watchdog := d'.watchdog })
    (state : d'.record.state = d.record.state)
    (step : d'.record.currentStep = d.record.currentStep) (side : s'.lockSide = s.lockSide) :
    Lends (d, s) (d', s') := by
  have hlease : d'.lease = d.lease := by rw [rest]
  have hflow : d'.flow = d.flow := by rw [rest]
  have hactive : d'.active = d.active := by rw [rest]
  have hrequests : d'.requests = d.requests := by rw [rest]
  have hepoch : d'.epoch = d.epoch := by rw [rest]
  refine ⟨hflow, fun hrun => ?_, fun hreg => hreg.congr hlease hflow side, fun ha => .inl ?_⟩
  · show d'.record.currentStep ≠ none
    rw [step]
    exact hs (state ▸ hrun)
  · intro hl
    obtain ⟨hrun, hidle, i, hi⟩ := ha (hlease ▸ hl)
    exact ⟨state.trans hrun, hactive.trans hidle, i, hi.congr hrequests hepoch⟩

end Blocks

/-- A call that has entered the first step with a lease: it goes on, or its save fails. -/
theorem entered_lends {d₁ : Driver} {s₁ : Services} (flow : d₁.flow = d.flow)
    (requests : d₁.requests = d.requests) (running : d₁.record.state = .running)
    (step : d₁.record.currentStep ≠ none) (idle : d₁.active = none) (hl : d₁.lease ≠ none)
    (registered : Registered (d, s) → Registered (d₁, s₁)) :
    Lends (d, s) (requesting (d₁.persist s₁ now)) := by
  refine ⟨flow, fun _ => step, fun hreg => ?_, fun _ => ?_⟩
  · exact ((registered hreg).persisted now).congr rfl rfl rfl
  · have hlast : (requesting (d₁.persist s₁ now)).1.requests[d.requests.length]? =
        some (.ofStart (d₁.persist s₁ now).1) := by
      rw [requesting_driver, addRequest, persist_driver]
      simp [requests]
    cases hp : (d₁.persist s₁ now).1 with
    | ok u =>
      rw [hp] at hlast
      exact .inl fun _ => ⟨running, idle, d.requests.length, .ready, hlast, trivial⟩
    | error e =>
      obtain ⟨e', rfl⟩ := persist_error hp
      rw [hp] at hlast
      exact .inr ⟨hl, d.requests.length, e', hlast, by simp⟩

include h hs

theorem start_lends : Lends (d, s) (requesting (d.start s now)) := by
  refine start_rule d s now ?refused ?unleased ?entered
  case refused => exact fun _ => hs.answered rfl _
  case unleased =>
    intro e s' _ hl he
    refine ⟨rfl, hs, fun hreg => (hreg.not_refused hl he).elim, fun ha => .inl (ha.answered _)⟩
  case entered =>
    intro lease s' hc hl
    refine entered_lends s now rfl rfl rfl (Option.some_ne_none _) ?_ (Option.some_ne_none _) ?_
    · exact h.idle_of_not_running (by simp [hc])
    · exact fun hreg => (hreg.leased hl).congr rfl rfl rfl

omit h in
theorem resume_lends : Lends (d, s) (requesting (d.resume s now)) := by
  refine resume_rule d s now ?busy ?refused ?unleased ?entered
  case busy => exact fun _ => hs.answered rfl _
  case refused => exact fun e _ _ _ => hs.answered (Services.find_lockSide ..) _
  case unleased =>
    intro e s' hl _ he
    refine ⟨rfl, hs, fun hreg => ?_, fun ha => .inl (ha.answered _)⟩
    have found : Registered (d, (s.find d.flow).2) :=
      hreg.congr rfl rfl (Services.find_lockSide ..)
    exact (found.not_refused hl he).elim
  case entered =>
    intro stored lease s' hl ha _ _ got
    refine entered_lends s now rfl rfl rfl (Option.some_ne_none _) ha (Option.some_ne_none _) ?_
    intro hreg
    have found : Registered (d, (s.find d.flow).2) :=
      hreg.congr rfl rfl (Services.find_lockSide ..)
    exact (found.leased (.given hl got)).congr rfl rfl rfl

omit h in
theorem pause_lends : Lends (d, s) (answering (d.pause s now)) := by
  refine pause_rule d s now ?paused ?refused ?stopped
  case paused => exact fun _ => hs.answered rfl _
  case refused => exact fun _ _ => hs.answered rfl _
  case stopped =>
    intro _
    have hstate : (answering (((d.stopped .pause).persist s now).1,
        ((d.stopped .pause).persist s now).2.1.settle
          ((d.stopped .pause).persist s now).2.2)).1.record.state = .paused := by
      simp [answering, addRequest]
    refine ⟨?_, fun hrun => ?_, fun hreg => ?_, fun _ => .inl (.of_none ?_)⟩
    · simp [answering, addRequest]
    · rw [hstate] at hrun
      cases hrun
    · have stopped : Registered (d.stopped .pause, s) :=
        hreg.congr (stopped_lease ..) (stopped_flow ..) rfl
      exact (stopped.persisted now).settled.congr rfl rfl rfl
    · simp [answering, addRequest]

omit h in
theorem moveTo_lends (step : String) : Lends (d, s) (answering (d.moveTo s now step)) := by
  refine moveTo_rule d s now step ?refused ?moved
  case refused => exact fun _ => hs.answered rfl _
  case moved =>
    intro _ hstop
    refine ⟨rfl, fun _ => Option.some_ne_none _, fun hreg => ?_, fun ha => .inl (.of_none ?_)⟩
    · have moved : Registered (d.onRecord (·.advanceTo step), s) := hreg.congr rfl rfl rfl
      exact (moved.persisted now).congr rfl rfl rfl
    · exact ha.idle (.inl hstop)

omit h in
theorem look_lends {i : Nat} (hi : d.requests[i]? = some .ready) :
    Lends (d, s) (d.setRequest i (d.look s now).1, (d.look s now).2) := by
  refine look_rule d s now ?idle ?lost ?executes
  case idle =>
    intro hidle
    refine ⟨rfl, hs, fun hreg => hreg.congr rfl rfl rfl, fun ha => .inl (.of_none ?_)⟩
    exact ha.idle (hidle.imp_right Option.isSome_iff_ne_none.1)
  case lost => exact fun hrun _ hc => absurd hc (hs hrun)
  case executes =>
    intro e s' hrun hactive _ he hs'
    refine ⟨rfl, hs, fun hreg => hreg.congr rfl rfl (by rw [hs']; rfl), fun _ => .inl fun _ => ?_⟩
    refine ⟨hrun, hactive, i, ?_⟩
    exact (alive_setRequest (List.getElem?_eq_some_iff.1 hi).1).2 (.inr ⟨rfl, he⟩)

theorem conclude_lends {e : Execution} {i : Nat} (hi : d.requests[i]? = some (.executing e)) :
    Lends (d, s) ((d.conclude s now e).2.1.setRequest i (d.conclude s now e).1,
      (d.conclude s now e).2.2) := by
  have hlt := (List.getElem?_eq_some_iff.1 hi).1
  have side : ∀ s' : Services, s' = { s with ids := s'.ids } → s'.lockSide = s.lockSide :=
    fun s' hs' => by rw [hs']; rfl
  -- whether it launches tasks or not, a flow that waits has given its lease back
  have waiting : ∀ (d' : Driver) (s' : Services), d'.flow = d.flow → d'.lease = d.lease →
      d'.OnStep → s'.lockSide = s.lockSide → Lends (d, s)
        (((d'.persist s' now).2.1.releaseLease (d'.persist s' now).2.2).1.setRequest i
            (.answered (d'.persist s' now).1),
          ((d'.persist s' now).2.1.releaseLease (d'.persist s' now).2.2).2) := by
    intro d' s' hflow hlease hstep hside
    refine ⟨?_, fun hrun => ?_, fun hreg => ?_, fun _ => .inl (.of_none ?_)⟩
    · simpa [setRequest] using hflow
    · simp only [setRequest, releaseLease_driver, persist_driver] at hrun ⊢
      exact hstep hrun
    · have waits : Registered (d', s') := hreg.congr hlease hflow hside
      exact (waits.persisted now).released.congr rfl rfl rfl
    · simp [setRequest]
  refine conclude_rule d s now e ?dropped ?carried ?waits ?launches
  case dropped =>
    intro s' hstale hs'
    refine ⟨rfl, hs, fun hreg => hreg.congr rfl rfl (side s' hs'), fun ha => .inl fun hl => ?_⟩
    obtain ⟨hrun, hactive, j, hj⟩ := ha hl
    refine ⟨hrun, hactive, j, (alive_setRequest hlt).2 (.inl ⟨fun heq => ?_, hj⟩)⟩
    -- the request that is answered was stale, so it is not the one that goes on
    subst heq
    obtain ⟨r, hr, hgoes⟩ := hj
    obtain rfl : .executing e = r := Option.some.inj (hi.symm.trans hr)
    rcases hstale with hstale | hstale
    · exact hstale hgoes.symm
    · exact hstale hrun
  case carried =>
    intro decision s' he hrun hs' _
    have routed := applyDecision_routed (.ofVirtualMs now) e.step decision hrun
    refine ⟨?_, fun _ => ?_, fun hreg => ?_, fun _ => ?_⟩
    · simp [setRequest, routed.flow]
    · simpa [setRequest] using routed.step (hs hrun)
    · have applied : Registered (d.applyDecision (.ofVirtualMs now) e.step decision, s') :=
        hreg.congr routed.lease routed.flow (side s' hs')
      exact (applied.carriedOn now).congr rfl rfl rfl
    · refine carryOn_accounted (i := i) (routed.active.trans ?_) (by simp [hi]) rfl ?_
      · exact (h.executing e (List.mem_of_getElem? hi)).2 he.symm
      · rw [setRequest, carryOn_requests, routed.requests]
        exact List.getElem?_set_self hlt
  case waits =>
    rintro log s' d' _ hrun hs' _ rfl
    refine waiting _ s' ?_ ?_ ?_ (side s' hs')
    · rw [logStep_eq, onRecord]
    · rw [logStep_eq, onRecord]
    · exact fun _ => by simpa using hs hrun
  case launches =>
    rintro log l s' d' _ hrun hs' _ rfl
    refine waiting _ s' ?_ ?_ ?_ (side s' hs')
    · rw [launch_flow, logStep_eq, onRecord]
    · rw [launch_lease, logStep_eq, onRecord]
    · exact fun _ => by simpa using hs hrun

omit h in
theorem saveUpdate_lends (epoch : Nat) (step : String) (update : StepUpdate) :
    Lends (d, s) (d.saveUpdate s now epoch step update).2 := by
  refine saveUpdate_rule d s now epoch step update ?stale ?saved
  case stale => exact fun _ => hs.kept rfl rfl rfl rfl
  case saved => exact fun r _ hr hstep => hs.kept rfl hr hstep (Services.save_lockSide ..)

omit h in
theorem decide_lends (epoch : Nat) (step : String) (decision : Decision) :
    Lends (d, s) (d.decide s now epoch step decision) := by
  have hretired : Registered (d, s) → Registered (d.retired, s) := fun hreg =>
    hreg.congr (retired_lease d) (retired_flow d) rfl
  have hstep : d.retired.OnStep := by simpa [OnStep] using hs
  refine decide_rule d s now epoch step decision ?stale ?unleased ?decided
  case stale => exact fun _ => hs.kept rfl rfl rfl rfl
  case unleased =>
    -- a lease that is free is not refused
    intro e s' _ _ hl he
    refine ⟨retired_flow d, hstep, fun hreg => ?_, fun _ => .inl (.of_none hl)⟩
    exact ((hretired hreg).not_refused hl he).elim
  case decided =>
    rintro lease s' d' _ hrun hl rfl
    have hrun' : { d.retired with lease := some lease }.record.state = .running := by
      simpa using hrun
    have routed := applyDecision_routed (.ofVirtualMs now) step decision hrun'
    refine ⟨?_, fun _ => ?_, fun hreg => ?_, fun _ => ?_⟩
    · simpa [addRequest] using routed.flow
    · simpa [addRequest] using routed.step (hstep hrun')
    · have leased := (hretired hreg).leased hl
      have applied : Registered ({ d.retired with lease := some lease }.applyDecision
          (.ofVirtualMs now) step decision, s') := leased.congr routed.lease routed.flow rfl
      exact (applied.carriedOn now).congr rfl rfl rfl
    · refine carryOn_accounted (i := d.requests.length) (routed.active.trans (retired_active d))
        (by simp) rfl ?_
      rw [addRequest, carryOn_requests, routed.requests]
      simp

omit h in
theorem expire_lends : Lends (d, s) (d.expire s now) := by
  refine expire_rule d s now ?idle ?expired
  case idle => exact fun _ => hs.kept rfl rfl rfl rfl
  case expired =>
    rintro d' hrun hd'
    have hstate : d'.record.state = .completed := by rw [hd']; simp
    refine ⟨?_, fun hrun => ?_, fun hreg => ?_, fun _ => .inl (.of_none ?_)⟩
    · rw [releaseLease_driver, hd']
      simp
    · simp [hstate] at hrun
    · have stopped : Registered (d', s) := by
        refine hreg.congr ?_ ?_ rfl <;> rw [hd'] <;> simp
      exact (stopped.persisted now).released
    · rw [releaseLease_driver]

theorem proceed_lends (i : Nat) : Lends (d, s) (d.proceed s now i) := by
  unfold proceed
  split
  · rename_i hi
    exact look_lends hs s now hi
  · rename_i e hi
    split
    · exact conclude_lends h hs s now hi
    · exact hs.kept rfl rfl rfl rfl
  · exact hs.kept rfl rfl rfl rfl

omit h hs in
/-- What happens to crews and listeners is nothing to the lease. -/
theorem Lends.onActivation {x x' : Driver × Services} (l : Lends x x') (i : Nat)
    (change : Activation → Activation) : Lends x (x'.1.onActivation i change, x'.2) :=
  ⟨l.flow, l.onStep, fun hreg => (l.registered hreg).congr rfl rfl rfl, l.accounted⟩

theorem perform_lends (move : Move) : Lends (d, s) (d.perform s now move) := by
  have same : Lends (d, s) (d, s) := hs.kept rfl rfl rfl rfl
  cases move with
  | start => exact start_lends h hs s now
  | resume => exact resume_lends hs s now
  | pause => exact pause_lends hs s now
  | moveTo step => exact moveTo_lends hs s now step
  | proceed i => exact proceed_lends h hs s now i
  | work i => exact work_rule d s now i same fun _ _ _ _ _ _ => hs.kept rfl rfl rfl rfl
  | hear i => exact hear_rule d s now i same fun _ _ _ _ => hs.kept rfl rfl rfl rfl
  | save i =>
    refine save_rule d s now i same fun a update rest r _ _ hr => ?_
    subst hr
    exact (saveUpdate_lends hs s now a.epoch a.step update).onActivation i _
  | decide i =>
    refine tell_rule d s now i same fun a decision _ _ => ?_
    have told : (d.onActivation i .tell).OnStep := hs
    have l := decide_lends told s now a.epoch a.step decision
    exact ⟨l.flow, l.onStep, fun hreg => l.registered (hreg.congr rfl rfl rfl), l.accounted⟩
  | expire =>
    simp only [perform]
    split
    · exact expire_lends hs s now
    · exact same

end Sections

/-- Nobody else touches the lock of a flow, or keeps the lock service from working. -/
def Event.SparesLock (flow : FlowId) : Event → Prop
  | .outside change => ∀ s, (s.LocksWork → (change s).LocksWork) ∧
    (change s).locks.held.get? flow = s.locks.held.get? flow
  | _ => True

theorem happen_lends {x : Driver × Services} (h : x.1.Sound) (hs : x.1.OnStep) {e : Event}
    (spares : e.SparesLock x.1.flow) : Lends x (happen x e) := by
  have same : Lends x x := hs.kept rfl rfl rfl rfl
  cases e with
  | move now move => exact perform_lends h hs x.2 now move
  | update now i update =>
    simp only [happen]
    split
    · exact saveUpdate_lends hs x.2 now ..
    · exact same
  | decision now i decision =>
    simp only [happen]
    split
    · exact decide_lends hs x.2 now ..
    · exact same
  | outside change =>
    refine ⟨rfl, hs, fun hreg => ?_, fun ha => .inl ha⟩
    exact ⟨(spares x.2).1 hreg.works, hreg.own, (spares x.2).2.trans hreg.held⟩

/-! ### Runs -/

/-- A run leaves the lease behind: a call ended with a failed save while the driver had a lease, and
the driver has had one ever since. -/
def LeavesLease (x : Driver × Services) (es : List Event) : Prop :=
  ∃ fs e gs, es = fs ++ e :: gs ∧ Strands (run x fs).1 (run x (fs ++ [e])).1 ∧
    ∀ hs, hs <+: gs → (run x (fs ++ e :: hs)).1.lease ≠ none

theorem LeavesLease.lease_ne_none {x : Driver × Services} {es : List Event}
    (h : LeavesLease x es) : (run x es).1.lease ≠ none := by
  obtain ⟨fs, e, gs, rfl, -, hkept⟩ := h
  exact hkept gs (List.prefix_refl gs)

theorem LeavesLease.concat {x : Driver × Services} {es : List Event} (h : LeavesLease x es)
    {e : Event} (hl : (run x (es ++ [e])).1.lease ≠ none) : LeavesLease x (es ++ [e]) := by
  obtain ⟨fs, e', gs, rfl, hstrands, hkept⟩ := h
  refine ⟨fs, e', gs ++ [e], by simp, hstrands, fun hs hprefix => ?_⟩
  rcases List.prefix_concat_iff.1 hprefix with rfl | hprefix
  · simpa using hl
  · exact hkept hs hprefix

theorem Strands.leavesLease {x : Driver × Services} {es : List Event} {e : Event}
    (h : Strands (run x es).1 (run x (es ++ [e])).1) : LeavesLease x (es ++ [e]) := by
  refine ⟨es, e, [], rfl, h, fun hs hprefix => ?_⟩
  rw [List.prefix_nil.1 hprefix]
  exact h.1

/-- What is known of the lease after a run that nobody else disturbed. -/
structure Lent (x : Driver × Services) (es : List Event) : Prop where
  flow : (run x es).1.flow = x.1.flow
  onStep : (run x es).1.OnStep
  registered : Registered (run x es)
  accounted : (run x es).1.Accounted ∨ LeavesLease x es

/-- One more event: what is accounted for stays so, or is left behind. -/
theorem Lent.concat {x : Driver × Services} {es : List Event} (h : Lent x es)
    (sound : (run x es).1.Sound) {e : Event} (spares : e.SparesLock x.1.flow) :
    Lent x (es ++ [e]) := by
  have lends := happen_lends sound h.onStep (e := e) (h.flow ▸ spares)
  rw [← run_concat] at lends
  refine ⟨lends.flow.trans h.flow, lends.onStep, lends.registered h.registered, ?_⟩
  rcases h.accounted with ha | hleft
  · exact (lends.accounted ha).imp_right Strands.leavesLease
  · by_cases hl : (run x (es ++ [e])).1.lease = none
    · exact .inl (.of_none hl)
    · exact .inr (hleft.concat hl)

theorem run_lent {x : Driver × Services} (h : x.1.Sound) (start : Lent x []) (es : List Event)
    (spares : ∀ e ∈ es, e.SparesLock x.1.flow) : Lent x es := by
  -- the last event comes first in the reversed run
  suffices hrev : ∀ rs : List Event, (∀ e ∈ rs, e.SparesLock x.1.flow) → Lent x rs.reverse by
    simpa using hrev es.reverse (by simpa using spares)
  intro rs
  induction rs with
  | nil => exact fun _ => start
  | cons e rs ih =>
    intro spares
    rw [List.reverse_cons]
    exact (ih fun e' he' => spares e' (List.mem_cons_of_mem e he')).concat
      (run_ahead h rs.reverse).sound (spares e (List.mem_cons_self ..))

theorem Untouched.lent {d : Driver} (h : d.Untouched) {s : Services} (works : s.LocksWork)
    (free : s.locks.isHeld d.flow = false) : Lent (d, s) [] := by
  refine ⟨rfl, fun hrun => ?_, ⟨works, by simp [h.lease], ?_⟩, .inl (.of_none h.lease)⟩
  · exact absurd (h.state.symm.trans hrun) (by simp)
  · simpa [Locks.isHeld, Table.contains, h.lease] using free

/-- Nothing runs: the flow is not running, or every call was answered. -/
def AtRest (d : Driver) : Prop :=
  d.record.state ≠ .running ∨ ∀ r ∈ d.requests, ∃ outcome, r = .answered outcome

theorem Accounted.atRest {d : Driver} (h : d.Accounted) (rest : d.AtRest) : d.lease = none := by
  rcases rest with hstop | hanswered
  · exact h.idle (.inl hstop)
  · cases hl : d.lease with
    | none => rfl
    | some lease =>
      obtain ⟨-, -, i, r, hr, hgoes⟩ := h (by simp [hl])
      obtain ⟨outcome, rfl⟩ := hanswered r (List.mem_of_getElem? hr)
      exact absurd hgoes id

/-- A flow counts as running already as long as there is a lease or an active activation. -/
theorem resume_alreadyRunning_iff (d : Driver) (s : Services) (now : Nat) :
    (d.resume s now).1 = .error (.invalidState (.alreadyRunning d.flow)) ↔
      d.lease ≠ none ∨ d.active ≠ none := by
  refine resume_rule d s now ?busy ?refused ?unleased ?entered
  case busy => exact fun h => ⟨fun _ => by simpa [Option.isSome_iff_ne_none] using h, fun _ => rfl⟩
  case refused => exact fun e hl ha he => by simpa [hl, ha] using he
  case unleased => exact fun e s' hl ha _ => by simp [hl, ha]
  case entered =>
    intro stored lease s' hl ha _ _ _
    refine ⟨fun he => ?_, fun h => absurd h (by simp [hl, ha])⟩
    obtain ⟨e', heq⟩ := persist_error he
    cases heq

/-! ### A lease that is left for good -/

/-- Neither the lease nor the state of the flow changes. -/
structure Stuck (d d' : Driver) : Prop where
  lease : d'.lease = d.lease
  state : d'.record.state = d.record.state

theorem Stuck.refl (d : Driver) : Stuck d d := ⟨rfl, rfl⟩

section Stuck

variable {d : Driver} (hl : d.lease ≠ none) (settled : d.record.state.isSettled)

include settled in
theorem not_running_of_isSettled : d.record.state ≠ .running ∧ d.record.state ≠ .created := by
  constructor <;> exact fun h => by simp [h, FlowState.isSettled] at settled

theorem saveUpdate_stuck (s : Services) (now epoch : Nat) (step : String) (update : StepUpdate) :
    Stuck d (d.saveUpdate s now epoch step update).2.1 :=
  saveUpdate_rule d s now epoch step update (fun _ => .refl d) fun _ _ hr _ => ⟨rfl, hr⟩

include hl settled

theorem perform_stuck (s : Services) (now : Nat) (move : Move) :
    Stuck d (d.perform s now move).1 := by
  obtain ⟨hrun, hcreated⟩ := not_running_of_isSettled settled
  cases move with
  | start =>
    refine start_rule (motive := fun r => Stuck d (requesting r).1) d s now ?_ ?_ ?_
    · exact fun _ => ⟨rfl, rfl⟩
    · exact fun _ _ h => absurd h hcreated
    · exact fun _ _ h => absurd h hcreated
  | resume =>
    refine resume_rule (motive := fun r => Stuck d (requesting r).1) d s now ?_ ?_ ?_ ?_
    · exact fun _ => ⟨rfl, rfl⟩
    · exact fun _ h => absurd h hl
    · exact fun _ _ h => absurd h hl
    · exact fun _ _ _ h => absurd h hl
  | pause =>
    refine pause_rule (motive := fun r => Stuck d (answering r).1) d s now ?_ ?_ ?_
    · exact fun _ => ⟨rfl, rfl⟩
    · exact fun _ _ => ⟨rfl, rfl⟩
    · exact fun h => absurd h hrun
  | moveTo step =>
    refine moveTo_rule (motive := fun r => Stuck d (answering r).1) d s now step ?_ ?_
    · exact fun _ => ⟨rfl, rfl⟩
    · exact fun _ _ => ⟨rfl, rfl⟩
  | proceed i =>
    -- an execution of an earlier run may still come to an end
    have dropped : ∀ e, (d.conclude s now e).2.1 = d := by
      intro e
      refine conclude_rule (motive := fun r => r.2.1 = d) d s now e ?_ ?_ ?_ ?_
      · exact fun _ _ _ => rfl
      · exact fun _ _ _ h => absurd h hrun
      · exact fun _ _ _ _ h => absurd h hrun
      · exact fun _ _ _ _ _ h => absurd h hrun
    simp only [perform, proceed]
    split
    · exact ⟨rfl, rfl⟩
    · split
      · simp only [dropped]
        exact ⟨rfl, rfl⟩
      · exact .refl d
    · exact .refl d
  | work i => exact work_rule d s now i (.refl d) fun _ _ _ _ _ _ => ⟨rfl, rfl⟩
  | hear i => exact hear_rule d s now i (.refl d) fun _ _ _ _ => ⟨rfl, rfl⟩
  | save i =>
    refine save_rule d s now i (.refl d) fun a update rest r _ _ hr => ?_
    subst hr
    obtain ⟨hlease, hstate⟩ := saveUpdate_stuck s now a.epoch a.step update
    exact ⟨hlease, hstate⟩
  | decide i =>
    refine tell_rule d s now i (.refl d) fun a decision _ _ => ?_
    -- a decision is dropped unless the flow runs
    have told : (d.onActivation i .tell).record.state ≠ .running := hrun
    rw [decide_stale (.inr told)]
    exact ⟨rfl, rfl⟩
  | expire =>
    simp only [perform]
    split
    · exact expire_rule d s now (fun _ => ⟨rfl, rfl⟩) fun _ h => absurd h hrun
    · exact .refl d

theorem happen_stuck (s : Services) (e : Event) : Stuck d (happen (d, s) e).1 := by
  obtain ⟨hrun, -⟩ := not_running_of_isSettled settled
  cases e with
  | move now move => exact perform_stuck hl settled s now move
  | update now i update =>
    simp only [happen]
    split
    · exact saveUpdate_stuck s now ..
    · exact .refl d
  | decision now i decision =>
    simp only [happen]
    split
    · rw [decide_stale (.inr hrun)]
      exact .refl d
    · exact .refl d
  | outside change => exact .refl d

end Stuck

/-- A flow that has settled keeps a lease that was left behind. -/
theorem run_stuck {x : Driver × Services} (hl : x.1.lease ≠ none)
    (settled : x.1.record.state.isSettled) (es : List Event) :
    (run x es).1.lease = x.1.lease := by
  induction es generalizing x with
  | nil => rfl
  | cons e es ih =>
    obtain ⟨hlease, hstate⟩ := happen_stuck hl settled x.2 e
    rw [run_cons, ih (hlease ▸ hl) (hstate ▸ settled), hlease]

/-- **When nothing runs, a lease is there exactly if it was left behind.**  The lock service works
and nobody else touches the flow's lock; what is stored and which saves fail is arbitrary.  Then the
driver has given its lease back, and so the lock service has none of the flow, unless a call ended
with a failed save while the driver had a lease, and it has had one ever since.  Just then a resume
is told that the flow is running although it waits for no activation, and if the flow is paused or
completed, it will be told so for good. -/
theorem lease_iff_left {w w' : World} {definition : Definition} {source : Nat} {d : Driver}
    (created : w.create definition source = (.ok d, w')) (works : w'.services.LocksWork)
    (free : w'.services.locks.isHeld d.flow = false) (es : List Event)
    (spares : ∀ e ∈ es, e.SparesLock d.flow) (x : Driver × Services)
    (hx : run (d, w'.services) es = x) (rest : x.1.AtRest) :
    (x.1.lease = none ∧ x.2.locks.isHeld x.1.flow = false ↔ ¬ LeavesLease (d, w'.services) es) ∧
    (∀ now, (x.1.resume x.2 now).1 = .error (.invalidState (.alreadyRunning x.1.flow)) ↔
      x.1.active ≠ none ∨ LeavesLease (d, w'.services) es) ∧
    (LeavesLease (d, w'.services) es → x.1.record.state.isSettled → ∀ fs now,
      ((run x fs).1.resume (run x fs).2 now).1 =
        .error (.invalidState (.alreadyRunning (run x fs).1.flow))) := by
  subst hx
  have untouched := World.create_untouched created
  have lent := run_lent untouched.sound (untouched.lent works free) es spares
  -- a lease that is accounted for is given back once the driver is at rest
  have hleft : (run (d, w'.services) es).1.lease ≠ none ↔ LeavesLease (d, w'.services) es := by
    refine ⟨fun hl => ?_, LeavesLease.lease_ne_none⟩
    rcases lent.accounted with ha | hleft
    · exact absurd (ha.atRest rest) hl
    · exact hleft
  refine ⟨?_, fun now => ?_, fun h settled fs now => ?_⟩
  · rw [← hleft]
    refine ⟨fun hl hne => hne hl.1, fun hl => ?_⟩
    have hl : (run (d, w'.services) es).1.lease = none := by simpa using hl
    refine ⟨hl, ?_⟩
    simp [Locks.isHeld, Table.contains, lent.registered.held, hl]
  · rw [resume_alreadyRunning_iff, hleft, or_comm]
  · rw [resume_alreadyRunning_iff, run_stuck h.lease_ne_none settled]
    exact .inl h.lease_ne_none

/-- A step that completes the flow. -/
def completesFlow : Nat → StepContext → StepWork := fun _ _ =>
  .atOnce (.plain (.ok (.park .completed .success none)))

/-- A flow that is created and started, and whose completion cannot be saved. -/
theorem lease_iff_left_unsaved : ∃ d w' x,
    (World.ofPlan (· = 3)).create (.solo completesFlow) 0 = (.ok d, w') ∧
    run (d, w'.services) [.move 0 .start, .move 0 (.proceed 0), .move 0 (.proceed 0)] = x ∧
    x.1.AtRest ∧ x.1.record.state = .completed ∧
    LeavesLease (d, w'.services) [.move 0 .start, .move 0 (.proceed 0), .move 0 (.proceed 0)] ∧
    ∀ fs now, ((run x fs).1.resume (run x fs).2 now).1 =
      .error (.invalidState (.alreadyRunning (run x fs).1.flow)) := by
  have created : (World.ofPlan (· = 3)).create (.solo completesFlow) 0 = (.ok _, _) := rfl
  obtain ⟨-, hrunning, hforever⟩ := lease_iff_left created
    ⟨⟨rfl, fun _ => rfl⟩, ⟨rfl, fun _ => rfl⟩⟩ rfl
    [.move 0 .start, .move 0 (.proceed 0), .move 0 (.proceed 0)] (by simp [Event.SparesLock]) _ rfl
    (.inl (by decide))
  have hleft := ((hrunning 0).1 rfl).resolve_left fun h => h rfl
  exact ⟨_, _, _, created, rfl, .inl (by decide), rfl, hleft, hforever hleft rfl⟩

/-- Every call was answered and the flow is completed, and yet the lock service has a lease of it.
-/
theorem lease_left_by_completed_flow : ∃ d w' x,
    (World.ofPlan (· = 3)).create (.solo completesFlow) 0 = (.ok d, w') ∧ w'.services.LocksWork ∧
    run (d, w'.services) [.move 0 .start, .move 0 (.proceed 0), .move 0 (.proceed 0)] = x ∧
    (∀ r ∈ x.1.requests, ∃ outcome, r = .answered outcome) ∧ x.1.record.state = .completed ∧
    x.1.lease ≠ none ∧ x.2.locks.isHeld x.1.flow ∧
    (x.1.resume x.2 0).1 = .error (.invalidState (.alreadyRunning x.1.flow)) := by
  refine ⟨_, _, _, rfl, ⟨⟨rfl, fun _ => rfl⟩, ⟨rfl, fun _ => rfl⟩⟩, rfl, ?_, rfl, ?_, rfl, rfl⟩
  · intro r hr
    exact ⟨_, List.mem_singleton.1 hr⟩
  · exact Option.some_ne_none _

end Driver

end Workflow
