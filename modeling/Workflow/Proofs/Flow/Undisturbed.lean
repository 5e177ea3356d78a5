import Workflow.Proofs.Flow.Deadline

/-!
# Workflow.Proofs.Flow.Undisturbed — a flow that nobody disturbs

A flow has no deadline, nobody but its driver touches it, and neither the store nor the lock service
fails.  Then the store has the record in memory, the lock service has a lease just if the driver has
one, and the driver is sound, after every move (`Undisturbed.perform`).  So every save succeeds and
every lease is given, and a section is left with one way to end.
-/

namespace Workflow

namespace Driver

/-- Where there is no deadline, none is ever set. -/
theorem perform_unarmed {d : Driver} (timeless : d.definition.properties.timeoutSec = 0)
    (unarmed : d.watchdog = none) (s : Services) (now : Nat) (m : Move) :
    (d.perform s now m).1.watchdog = none := by
  have guarded (outside : entersAt? (d, s) (.move now m) = none) :
      (d.perform s now m).1.watchdog = none := by
    cases perform_guarded d s now m outside with
    | left watchdog => exact watchdog.trans unarmed
    | dropped watchdog => exact watchdog
  cases m with
  | start =>
    refine start_rule (motive := fun r => (requesting r).1.watchdog = none) d s now
      (fun _ => unarmed) (fun _ _ _ _ _ => unarmed) fun _ _ _ _ => ?_
    simp [requesting, addRequest, armWatchdog, onRecord, timeless]
  | resume =>
    refine resume_rule (motive := fun r => (requesting r).1.watchdog = none) d s now
      (fun _ => unarmed) (fun _ _ _ _ => unarmed) (fun _ _ _ _ _ => unarmed)
      fun _ _ _ _ _ _ _ _ => ?_
    simp [requesting, addRequest, armWatchdog, nextEpoch, timeless]
  | _ => exact guarded rfl

/-- A flow without a deadline that nobody disturbs, with a driver of this definition. -/
structure Undisturbed (flow : FlowId) (definition : Definition) (x : Driver × Services) : Prop where
  drives : x.1.definition = definition
  sound : x.1.Sound
  onStep : x.1.OnStep
  registered : Registered x
  mirrored : Mirrored flow definition.flowType (view x)
  saving : x.2.saving.Works
  timeless : definition.properties.timeoutSec = 0
  unarmed : x.1.watchdog = none

variable {flow : FlowId} {definition : Definition} {x : Driver × Services}

namespace Undisturbed

variable (h : Undisturbed flow definition x)
include h

theorem known : x.1.published = x.1.record.state := h.mirrored.coherent.known

theorem stored : x.2.store.find? flow = some x.1.record := h.mirrored.stored

/-- **No move disturbs the flow.** -/
theorem perform (now : Nat) (m : Move) : Undisturbed flow definition (x.1.perform x.2 now m) := by
  have lends := perform_lends h.sound h.onStep x.2 now m
  have mirrored : Mirrored flow definition.flowType (view (x.1.perform x.2 now m)) :=
    h.mirrored.happen (e := .move now m) trivial (not_failsToSave h.saving.call.1)
  refine ⟨(perform_definition ..).trans h.drives, (perform_ahead h.sound x.2 now m).sound,
    lends.onStep, lends.registered h.registered, mirrored, ?_, h.timeless,
    perform_unarmed (h.drives ▸ h.timeless) h.unarmed x.2 now m⟩
  have own : (Event.move now m).IsOwn := fun _ => nofun
  have writes := happen_writes (e := .move now m) h.known own
  have saving : (view x).saving.Works := h.saving
  change (view (happen x (.move now m))).saving.Works
  generalize view (happen x (.move now m)) = v at writes
  cases writes with
  | leaves => exact saving
  | saves => exact saving.call.2

end Undisturbed

/-- A flow that was just created is not disturbed, if the services work and are new to it. -/
theorem create_undisturbed {w w' : World} {source : Nat} {d : Driver}
    (timeless : definition.properties.timeoutSec = 0)
    (created : w.create definition source = (.ok d, w')) (works : w'.services.LocksWork)
    (free : w'.services.locks.isHeld d.flow = false) (saving : w'.services.saving.Works) :
    Undisturbed d.flow definition (d, w'.services) := by
  have untouched := World.create_untouched created
  have lent := untouched.lent works free
  obtain ⟨flow, made⟩ := World.create_driver created
  exact ⟨made ▸ rfl, untouched.sound, lent.onStep, lent.registered, create_mirrored created, saving,
    timeless, untouched.watchdog⟩

end Driver

end Workflow
