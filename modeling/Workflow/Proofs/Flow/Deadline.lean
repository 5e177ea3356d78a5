import Workflow.Proofs.Flow.Attempts

/-!
# Workflow.Proofs.Flow.Deadline — the watchdog of a running flow

A watchdog is a task of its own: it sleeps until its time has come and then takes the driver's lock.
The driver keeps a handle to the latest one, by which it can cancel it as long as it does not have
the lock.  `Watched` is a driver together with every watchdog that was neither cancelled nor has
fired.  A running flow has exactly one, that of its current attempt (`Vigilant`), so one that was
armed earlier never ends a later attempt (`deadline`).
-/

namespace Workflow

namespace Driver

/-! ### The driver's own deadline -/

/-- What an event that begins no attempt does to the deadline: it is left, or it is taken off a flow
that does not run. -/
inductive Guarded (d d' : Driver) : Prop
  | left (watchdog : d'.watchdog = d.watchdog)
    (running : d'.record.state = .running → d.record.state = .running)
  | dropped (watchdog : d'.watchdog = none) (stopped : d'.record.state ≠ .running)

theorem Guarded.refl (d : Driver) : Guarded d d := .left rfl id

theorem Guarded.congr {d d' d'' : Driver} (h : Guarded d d') (watchdog : d''.watchdog = d'.watchdog)
    (state : d''.record.state = d'.record.state) : Guarded d d'' := by
  cases h with
  | left same running => exact .left (watchdog.trans same) (state ▸ running)
  | dropped none stopped => exact .dropped (watchdog.trans none) (state ▸ stopped)

theorem abortActive_watchdog (d : Driver) : d.abortActive.watchdog = d.watchdog := by
  unfold abortActive
  split <;> rfl

theorem retired_watchdog (d : Driver) : d.retired.watchdog = d.watchdog :=
  abortActive_watchdog d.nextEpoch

theorem Routed.watchdog {d d' : Driver} (h : Routed d d') : d'.watchdog = d.watchdog := by
  rw [h.rest]

theorem launch_watchdog (d : Driver) (now : Nat) (step : String) (l : StepLaunch) :
    (d.launch now step l).watchdog = d.watchdog := by
  simp [launch, logStep_eq, onRecord, nextEpoch]

section Sections

variable (d : Driver) (s : Services) (now : Nat)

/-- An outcome that is carried on drops the deadline of a flow that it stops. -/
theorem carryOn_guarded {d d₁ : Driver} (watchdog : d₁.watchdog = d.watchdog)
    (running : d.record.state = .running) : Guarded d (d₁.carryOn s now).2.1 :=
  carryOn_rule (motive := fun r => Guarded d r.2.1) d₁ s now
    (fun _ _ => .left watchdog fun _ => running) (fun _ _ => .left watchdog fun _ => running)
    fun _ stopped => .dropped (by rw [settle_driver]) (by rw [settle_driver]; exact stopped)

theorem pause_guarded : Guarded d (d.pause s now).2.1 := by
  refine pause_rule (motive := fun r => Guarded d r.2.1) d s now (fun _ => .refl d)
    (fun _ _ => .refl d) fun _ => .dropped ?_ ?_
  · rw [settle_driver]
  · rw [settle_driver, persist_driver]
    simp

theorem moveTo_guarded (step : String) : Guarded d (d.moveTo s now step).2.1 :=
  moveTo_rule (motive := fun r => Guarded d r.2.1) d s now step (fun _ => .refl d)
    fun _ _ => .left rfl id

theorem conclude_guarded (e : Execution) : Guarded d (d.conclude s now e).2.1 := by
  refine conclude_rule (motive := fun r => Guarded d r.2.1) d s now e
    ?dropped ?carried ?waits ?launches
  case dropped => exact fun _ _ _ => .refl d
  case carried =>
    intro decision s' _ running _ _
    have routed := applyDecision_routed (.ofVirtualMs now) e.step decision running
    exact carryOn_guarded s' now routed.watchdog running
  case waits =>
    rintro log s' d' _ running _ _ rfl
    refine .left ?_ fun _ => running
    rw [releaseLease_driver, logStep_eq]
    rfl
  case launches =>
    rintro log l s' d' _ running _ _ rfl
    refine .left ?_ fun _ => running
    rw [releaseLease_driver, persist_driver]
    refine (launch_watchdog ..).trans ?_
    rw [logStep_eq]
    rfl

theorem proceed_guarded (i : Nat) : Guarded d (d.proceed s now i).1 := by
  unfold proceed
  split
  · exact .left rfl id
  · split
    · exact (conclude_guarded d s now _).congr rfl rfl
    · exact .refl d
  · exact .refl d

theorem saveUpdate_guarded (epoch : Nat) (step : String) (update : StepUpdate) :
    Guarded d (d.saveUpdate s now epoch step update).2.1 :=
  saveUpdate_rule (motive := fun r => Guarded d r.2.1) d s now epoch step update
    (fun _ => .refl d) fun _ _ state _ => .left rfl state.symm.trans

theorem decide_guarded (epoch : Nat) (step : String) (decision : Decision) :
    Guarded d (d.decide s now epoch step decision).1 := by
  refine decide_rule (motive := fun r => Guarded d r.1) d s now epoch step decision
    (fun _ => .refl d) ?unleased ?decided
  case unleased =>
    intro _ _ _ running _ _
    exact .left (retired_watchdog d) fun _ => running
  case decided =>
    rintro lease s' d' _ running _ rfl
    have running' : { d.retired with lease := some lease }.record.state = .running :=
      (congrArg Record.state (retired_record d)).trans running
    have routed := applyDecision_routed (.ofVirtualMs now) step decision running'
    have watchdog := routed.watchdog.trans (retired_watchdog d)
    exact (carryOn_guarded s' now watchdog running).congr rfl rfl

theorem expire_guarded : Guarded d (d.expire s now).1 := by
  refine expire_rule (motive := fun r => Guarded d r.1) d s now (fun idle => .dropped rfl idle) ?_
  rintro d' _ rfl
  refine .dropped ?_ ?_
  · rw [releaseLease_driver, persist_driver]
    exact abortActive_watchdog _
  · rw [releaseLease_driver, persist_driver]
    simp

theorem perform_guarded (move : Move) (outside : entersAt? (d, s) (.move now move) = none) :
    Guarded d (d.perform s now move).1 := by
  cases move with
  | start =>
    have away := (start_entersAt (d, s) now).2 outside
    exact .left away.watchdog fun running => by rwa [← away.record]
  | resume =>
    have away := (resume_entersAt (d, s) now).2 outside
    exact .left away.watchdog fun running => by rwa [← away.record]
  | pause => exact (pause_guarded d s now).congr rfl rfl
  | moveTo step => exact (moveTo_guarded d s now step).congr rfl rfl
  | proceed i => exact proceed_guarded d s now i
  | work i => exact work_rule d s now i (.refl d) fun _ _ _ _ _ _ => .left rfl id
  | hear i => exact hear_rule d s now i (.refl d) fun _ _ _ _ => .left rfl id
  | save i =>
    refine save_rule d s now i (.refl d) ?_
    rintro a update rest r _ _ rfl
    exact (saveUpdate_guarded d s now ..).congr rfl rfl
  | decide i =>
    refine tell_rule d s now i (.refl d) fun a decision _ _ => ?_
    have told := decide_guarded (d.onActivation i .tell) s now a.epoch a.step decision
    cases told with
    | left watchdog running => exact .left watchdog running
    | dropped watchdog stopped => exact .dropped watchdog stopped
  | expire =>
    simp only [perform]
    split
    · exact expire_guarded d s now
    · exact .refl d

end Sections

/-- **An event that begins no attempt leaves the deadline**, or takes it off a flow that does not
run. -/
theorem happen_guarded {x : Driver × Services} {e : Event} (outside : entersAt? x e = none) :
    Guarded x.1 (happen x e).1 := by
  cases e with
  | move now move => exact perform_guarded x.1 x.2 now move outside
  | update now i update =>
    simp only [happen]
    split
    · exact saveUpdate_guarded ..
    · exact .refl _
  | decision now i decision =>
    simp only [happen]
    split
    · exact decide_guarded ..
    · exact .refl _
  | outside change => exact .refl _

/-! ### Watchdogs as tasks -/

/-- A watchdog: the number of the attempt that has armed it, and when its sleep ends. -/
structure Alarm where
  attempt : Nat
  due : Nat
deriving DecidableEq

/-- A driver with its watchdogs. -/
structure Watched where
  world : Driver × Services
  /-- How many attempts have begun. -/
  attempts : Nat
  /-- When the latest attempt began. -/
  since : Nat
  /-- Every watchdog that was neither cancelled nor has fired. -/
  alarms : List Alarm
  /-- The watchdog that the driver can cancel. -/
  handle : Option Alarm

namespace Watched

/-- A driver before anything has happened to it. -/
def untouched (x : Driver × Services) : Watched := ⟨x, 0, 0, [], none⟩

/-- The watchdog that the driver has a handle to is cancelled. -/
def cancel (z : Watched) : Watched :=
  { z with alarms := z.handle.elim z.alarms z.alarms.erase, handle := none }

/-- A watchdog is armed, and the driver keeps its handle. -/
def arm (z : Watched) (due : Nat) : Watched :=
  { z with alarms := z.alarms ++ [⟨z.attempts, due⟩], handle := some ⟨z.attempts, due⟩ }

/-- Something that happens to a driver with its watchdogs. -/
inductive Occurrence where
  | happens (e : Event)
  /-- A watchdog that has slept long enough gets the driver's lock. -/
  | fires (now : Nat) (alarm : Alarm)

/-- One occurrence.  An attempt that begins cancels the watchdog before it and arms its own, and a
driver that drops its deadline cancels its watchdog.  One that fires drops the driver's handle,
whichever watchdog that is of; the driver's move `expire` is the firing of its own. -/
def step (z : Watched) : Occurrence → Watched
  | .happens e =>
    let z' := { z with world := happen z.world e }
    match entersAt? z.world e, z'.world.1.watchdog with
    | some now, some due => { z'.cancel with attempts := z.attempts + 1, since := now }.arm due
    | some now, none => { z'.cancel with attempts := z.attempts + 1, since := now }
    | none, some _ => z'
    | none, none => z'.cancel
  | .fires now alarm =>
    if alarm ∈ z.alarms ∧ alarm.due ≤ now then
      { z with
        world := z.world.1.expire z.world.2 now
        alarms := z.alarms.erase alarm
        handle := none }
    else z

/-- A run of occurrences. -/
def run (z : Watched) (os : List Occurrence) : Watched := os.foldl step z

end Watched

/-- There is at most one watchdog, that of the driver's deadline, and a running flow has that of its
current attempt. -/
structure Vigilant (n : Nat) (z : Watched) : Prop where
  seconds : z.world.1.definition.properties.timeoutSec.toNat = n
  slot : z.world.1.watchdog = z.handle.map Alarm.due
  alarms : z.alarms = z.handle.toList
  running : z.world.1.record.state = .running →
    z.handle = some ⟨z.attempts, z.since + n * 1000⟩

section Vigilant

variable {n : Nat} {z : Watched} (h : Vigilant n z)
include h

theorem Vigilant.cancel_alarms : z.cancel.alarms = [] := by
  unfold Watched.cancel
  rw [h.alarms]
  cases z.handle <;> simp

/-- A watchdog that there is, is that of the driver. -/
theorem Vigilant.handle_of_mem {alarm : Alarm} (there : alarm ∈ z.alarms) :
    z.handle = some alarm := by
  rw [h.alarms] at there
  exact Option.mem_toList.1 there

theorem Vigilant.happens (hn : n ≠ 0) (e : Event) : Vigilant n (z.step (.happens e)) := by
  have seconds : (happen z.world e).1.definition.properties.timeoutSec.toNat = n := by
    rw [happen_definition]
    exact h.seconds
  unfold Watched.step
  simp only
  cases enters : entersAt? z.world e with
  | some now =>
    have entered := entersAt?_entered enters
    have armed : (happen z.world e).1.watchdog = some (now + n * 1000) := by
      rw [entered.watchdog, armWatchdog, h.seconds]
      exact if_neg hn
    simp only [armed]
    refine ⟨seconds, armed, ?_, fun _ => rfl⟩
    have empty : (Watched.cancel { z with world := happen z.world e }).alarms = [] :=
      h.cancel_alarms
    simp only [Watched.arm, empty]
    rfl
  | none =>
    have guarded := happen_guarded enters
    cases watchdog : (happen z.world e).1.watchdog with
    | some due =>
      cases guarded with
      | left same running =>
        exact ⟨seconds, same.trans h.slot, h.alarms, fun now => h.running (running now)⟩
      | dropped none => exact absurd (none.symm.trans watchdog) (by simp)
    | none =>
      have stopped : (happen z.world e).1.record.state ≠ .running := by
        cases guarded with
        | left same running =>
          intro still
          have slot := same.trans h.slot
          rw [watchdog, h.running (running still)] at slot
          cases slot
        | dropped _ stopped => exact stopped
      exact ⟨seconds, watchdog, h.cancel_alarms, fun now => absurd now stopped⟩

/-- The watchdog that fires is that of the driver's deadline. -/
theorem Vigilant.fires_world {now : Nat} {alarm : Alarm} (there : alarm ∈ z.alarms)
    (due : alarm.due ≤ now) :
    z.world.1.expire z.world.2 now = happen z.world (.move now .expire) := by
  have slot : z.world.1.watchdog.any (· ≤ now) := by
    rw [h.slot, h.handle_of_mem there]
    simpa using due
  simp only [happen, perform]
  rw [if_pos slot]

theorem Vigilant.fires (now : Nat) (alarm : Alarm) : Vigilant n (z.step (.fires now alarm)) := by
  unfold Watched.step
  simp only
  split
  · rename_i there
    have world := h.fires_world there.1 there.2
    have gone : z.alarms.erase alarm = [] := by
      rw [h.alarms, h.handle_of_mem there.1]
      simp
    have dropped : (z.world.1.expire z.world.2 now).1.watchdog = none ∧
        (z.world.1.expire z.world.2 now).1.record.state ≠ .running := by
      refine expire_rule (motive := fun r => r.1.watchdog = none ∧ r.1.record.state ≠ .running)
        z.world.1 z.world.2 now (fun idle => ⟨rfl, idle⟩) ?_
      rintro d' _ rfl
      rw [releaseLease_driver, persist_driver]
      exact ⟨abortActive_watchdog _, by simp⟩
    refine ⟨?_, dropped.1, gone, fun running => absurd running dropped.2⟩
    rw [world, happen_definition]
    exact h.seconds
  · exact h

end Vigilant

theorem Vigilant.run {n : Nat} (hn : n ≠ 0) {z : Watched} (h : Vigilant n z)
    (os : List Watched.Occurrence) : Vigilant n (z.run os) := by
  induction os generalizing z with
  | nil => exact h
  | cons o os ih =>
    cases o with
    | happens e => exact ih (h.happens hn e)
    | fires now alarm => exact ih (h.fires now alarm)

/-- Watchdogs as tasks add nothing to what may happen to a driver. -/
theorem Vigilant.run_world {n : Nat} (hn : n ≠ 0) {z : Watched} (h : Vigilant n z)
    (os : List Watched.Occurrence) : ∃ es, (z.run os).world = Driver.run z.world es := by
  induction os generalizing z with
  | nil => exact ⟨[], rfl⟩
  | cons o os ih =>
    cases o with
    | happens e =>
      obtain ⟨es, later⟩ := ih (h.happens hn e)
      have first : (z.step (.happens e)).world = happen z.world e := by
        unfold Watched.step
        simp only
        split <;> rfl
      exact ⟨e :: es, later.trans (by rw [first]; rfl)⟩
    | fires now alarm =>
      obtain ⟨es, later⟩ := ih (h.fires now alarm)
      by_cases there : alarm ∈ z.alarms ∧ alarm.due ≤ now
      · have first : (z.step (.fires now alarm)).world = happen z.world (.move now .expire) := by
          rw [← h.fires_world there.1 there.2]
          unfold Watched.step
          simp only
          rw [if_pos there]
        exact ⟨_ :: es, later.trans (by rw [first]; rfl)⟩
      · have first : z.step (.fires now alarm) = z := by
          unfold Watched.step
          simp only
          rw [if_neg there]
        exact ⟨es, later.trans (by rw [first])⟩

/-! ### What a watchdog does when it fires -/

/-- A flow whose deadline has passed: it is completed as timed out, nothing that was launched or is
being executed can be applied any more, and the lease is given back. -/
structure TimedOut (n : Nat) (x x' : Driver × Services) : Prop where
  state : x'.1.record.state = .completed ∧ x'.1.published = .completed
  result : x'.1.record.result = .timeout
  lastError : x'.1.record.lastError = some ⟨x.1.record.currentStep.getD "",
    "flow timed out after " ++ toString n ++ " s", none⟩
  active : x'.1.active = none
  aborted : ∀ a ∈ x'.1.activations, a.aborted ∧ a.epoch < x'.1.epoch
  executing : ∀ e, .executing e ∈ x'.1.requests → e.epoch < x'.1.epoch
  lease : x'.1.lease = none
  released : ∀ lease, x.1.lease = some lease → x.2.releasing.call.1 = false →
    x'.2.locks.held.get? lease.flow ≠ some lease.id

theorem release_held {s : Services} {lease : Lease} (works : s.releasing.call.1 = false) :
    (s.release lease).2.locks.held.get? lease.flow ≠ some lease.id := by
  unfold Services.release
  simp only [works, Bool.false_eq_true, if_false, Locks.release]
  split
  · simp
  · assumption

theorem releaseLease_of_some {d : Driver} {s : Services} {lease : Lease}
    (h : d.lease = some lease) : (d.releaseLease s).2 = (s.release lease).2 := by
  unfold releaseLease
  rw [h]

/-- The record of a flow whose deadline has passed. -/
def expiredRecord (d : Driver) : Record :=
  (d.record.recordError (d.record.currentStep.getD "") d.deadlineMessage none).complete .timeout

theorem expire_driver {d : Driver} {s : Services} (now : Nat)
    (running : d.record.state = .running) :
    (d.expire s now).1 = { { d with watchdog := none }.stopped fun _ => d.expiredRecord with
      record := d.expiredRecord.touch (.ofVirtualMs now)
      published := .completed
      lease := none } := by
  refine expire_rule (motive := fun r => r.1 = _) d s now (fun idle => absurd running idle) ?_
  rintro d' _ rfl
  rw [releaseLease_driver, persist_driver]
  simp only [stopped, onRecord, abortActive_record]
  rfl

/-- **A deadline that passes on a running flow ends it in one section.** -/
theorem expire_timedOut {d : Driver} {s : Services} (now : Nat) (sound : d.Sound)
    (running : d.record.state = .running) :
    TimedOut d.definition.properties.timeoutSec.toNat (d, s) (d.expire s now) := by
  have after := expire_driver (s := s) now running
  have ahead := (expire_evolves sound s now).ahead sound
  have active : (d.expire s now).1.active = none := by
    rw [after]
    exact stopped_active { d with watchdog := none } fun _ => d.expiredRecord
  have epoch : (d.expire s now).1.epoch = d.epoch + 1 := by
    rw [after]
    exact stopped_epoch { d with watchdog := none } fun _ => d.expiredRecord
  refine ⟨?_, ?_, ?_, active, fun a ha => ?_, fun e he => ?_, ?_, fun lease had works => ?_⟩
  · rw [after]
    exact ⟨rfl, rfl⟩
  · rw [after]
    rfl
  · rw [after]
    rfl
  · -- nothing is active, so every activation is one of the others
    obtain ⟨i, hi⟩ := List.getElem?_of_mem ha
    obtain ⟨older, aborted⟩ := ahead.sound.others i _ _ (stamps_eq_some hi) (by simp [active])
    exact ⟨aborted, older⟩
  · have requests : (d.expire s now).1.requests = d.requests := by
      rw [after]
      exact stopped_requests { d with watchdog := none } fun _ => d.expiredRecord
    have before := (sound.executing e (requests ▸ he)).1
    omega
  · rw [after]
  · refine expire_rule (motive := fun r => r.2.locks.held.get? lease.flow ≠ some lease.id) d s now
      (fun idle => absurd running idle) ?_
    rintro d' _ rfl
    have gone : ∀ d' : Driver, d'.lease = some lease → ((d'.persist s now).2.1.releaseLease
        (d'.persist s now).2.2).2.locks.held.get? lease.flow ≠ some lease.id := by
      intro d' holds
      have still : (d'.persist s now).2.2.lockSide = s.lockSide := Services.save_lockSide ..
      have same : (d'.persist s now).2.2.releasing = s.releasing := congrArg (·.2.2) still
      have holds' : (d'.persist s now).2.1.lease = some lease := holds
      rw [releaseLease_of_some holds']
      exact release_held (same ▸ works)
    exact gone _ ((stopped_lease ..).trans had)

/-- **Flow deadline.**  A flow of a definition with a deadline of `n` seconds was created, and
anything at all has happened to its driver and its watchdogs; whichever calls of the store and of
the lock service have failed.

* If the flow runs, then there is exactly one watchdog: that of the latest attempt, which is due `n`
  seconds after the attempt began.
* A watchdog that fires on a running flow ends it in this one section.
* A watchdog that fires and changes the record is that of the latest attempt, and its time has come.
-/
theorem deadline {w w' : World} {definition : Definition} {source : Nat} {d : Driver}
    (created : w.create definition source = (.ok d, w')) {n : Nat}
    (seconds : definition.properties.timeoutSec.toNat = n) (limited : n ≠ 0)
    (os : List Watched.Occurrence) (z : Watched)
    (hz : (Watched.untouched (d, w'.services)).run os = z) :
    (z.world.1.record.state = .running → z.alarms = [⟨z.attempts, z.since + n * 1000⟩]) ∧
    (∀ now alarm, alarm ∈ z.alarms → alarm.due ≤ now → z.world.1.record.state = .running →
      TimedOut n z.world (z.step (.fires now alarm)).world ∧
        (z.step (.fires now alarm)).alarms = []) ∧
    (∀ now alarm, (z.step (.fires now alarm)).world.1.record ≠ z.world.1.record →
      alarm = ⟨z.attempts, z.since + n * 1000⟩ ∧ z.since + n * 1000 ≤ now) := by
  subst hz
  have untouched := World.create_untouched created
  have same : d.definition = definition := by
    obtain ⟨flow, rfl⟩ := World.create_driver created
    rfl
  have start : Vigilant n (Watched.untouched (d, w'.services)) := by
    refine ⟨?_, untouched.watchdog, rfl, fun running => ?_⟩
    · rw [← seconds, ← same]
      rfl
    · have state : d.record.state = .running := running
      simp [untouched.state] at state
  have vigilant := start.run limited os
  obtain ⟨es, world⟩ := start.run_world limited os
  generalize (Watched.untouched (d, w'.services)).run os = z at vigilant world ⊢
  have sound : z.world.1.Sound := by
    rw [world]
    exact (run_ahead untouched.sound es).sound
  have alone : z.world.1.record.state = .running →
      z.alarms = [⟨z.attempts, z.since + n * 1000⟩] := fun running => by
    rw [vigilant.alarms, vigilant.running running]
    rfl
  refine ⟨alone, fun now alarm there due running => ?_, fun now alarm changed => ?_⟩
  · have fired : z.step (.fires now alarm) = { z with
        world := z.world.1.expire z.world.2 now
        alarms := z.alarms.erase alarm
        handle := none } := if_pos ⟨there, due⟩
    rw [fired]
    refine ⟨vigilant.seconds ▸ expire_timedOut now sound running, ?_⟩
    rw [alone running] at there ⊢
    simp [List.mem_singleton.1 there]
  · by_cases there : alarm ∈ z.alarms ∧ alarm.due ≤ now
    · have fired : (z.step (.fires now alarm)).world = z.world.1.expire z.world.2 now := by
        rw [Watched.step, if_pos there]
      rw [fired] at changed
      -- on a flow that does not run only the handle is dropped
      have running : z.world.1.record.state = .running := Classical.byContradiction fun idle =>
        changed (expire_rule (motive := fun r => r.1.record = z.world.1.record) z.world.1 z.world.2
          now (fun _ => rfl) fun _ running _ => absurd running idle)
      rw [alone running] at there
      obtain rfl := List.mem_singleton.1 there.1
      exact ⟨rfl, there.2⟩
    · rw [Watched.step, if_neg there] at changed
      exact absurd rfl changed

/-- A flow of one step that takes its time, with a deadline of one second. -/
def slowFlow : Definition :=
  { Definition.solo fun _ _ => ⟨5000, (.plain (.ok (.park .completed .success none)), ·)⟩ with
    properties := { (default : FlowProperties) with timeoutSec := 1 } }

/-- The flow is paused and resumed; its watchdog is that of the resume, and ends it. -/
theorem deadline_slow : ∃ d w' z,
    World.empty.create slowFlow 0 = (.ok d, w') ∧
    (Watched.untouched (d, w'.services)).run [.happens (.move 0 .start),
      .happens (.move 400 .pause), .happens (.move 700 .resume)] = z ∧
    z.alarms = [⟨2, 1700⟩] ∧ TimedOut 1 z.world (z.step (.fires 1700 ⟨2, 1700⟩)).world := by
  have created : World.empty.create slowFlow 0 = (.ok _, _) := rfl
  obtain ⟨alone, ends, -⟩ := deadline created (n := 1) rfl (by decide)
    [.happens (.move 0 .start), .happens (.move 400 .pause), .happens (.move 700 .resume)] _ rfl
  exact ⟨_, _, _, created, rfl, alone rfl,
    (ends 1700 ⟨2, 1700⟩ (by rw [alone rfl]; exact List.mem_singleton.2 rfl) (by decide) rfl).1⟩

end Driver

end Workflow
