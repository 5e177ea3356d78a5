import Workflow.Proofs.Flow.Writes

/-!
# Workflow.Proofs.Flow.Calls — sections as the calls that they make

While a driver is in the midst of a section it asks the store and the lock service for one thing
after the other, and other drivers may ask in between.  `Calls` is such a sequence: what is asked
next, and how it goes on with the answer.  `Driver.calls` gives the sequence of every event, and
`Driver.calls_run` says that, made without a pause, these calls are what the driver does.
-/

namespace Workflow

/-- A computation that asks the services for one thing after the other. -/
inductive Calls (α : Type) where
  | done (a : α)
  | save (r : Record) (next : Except StoreError Unit → Calls α)
  | find (flow : FlowId) (next : Except StoreError (Option Record) → Calls α)
  | acquire (flow : FlowId) (next : Except LockError Lease → Calls α)
  | release (lease : Lease) (next : Except LockError Unit → Calls α)
  /-- Something that concerns neither the store nor the lock service. -/
  | aside (change : Services → Services) (next : Services → Calls α)

namespace Calls

variable {α β : Type}

/-- What is left after the next call, and the services after it. -/
def step : Calls α → Services → Calls α × Services
  | done a, s => (done a, s)
  | save r next, s => (next (s.save r).1, (s.save r).2)
  | find flow next, s => (next (s.find flow).1, (s.find flow).2)
  | acquire flow next, s => (next (s.acquire flow).1, (s.acquire flow).2)
  | release lease next, s => (next (s.release lease).1, (s.release lease).2)
  | aside change next, s => (next s, change s)

/-- All calls, one directly after the other. -/
def run : Calls α → Services → α × Services
  | done a, s => (a, s)
  | save r next, s => (next (s.save r).1).run (s.save r).2
  | find flow next, s => (next (s.find flow).1).run (s.find flow).2
  | acquire flow next, s => (next (s.acquire flow).1).run (s.acquire flow).2
  | release lease next, s => (next (s.release lease).1).run (s.release lease).2
  | aside change next, s => (next s).run (change s)

/-- One computation, and then another one with its outcome. -/
def bind (c : Calls α) (f : α → Calls β) : Calls β :=
  match c with
  | done a => f a
  | save r next => save r fun reply => (next reply).bind f
  | find flow next => find flow fun reply => (next reply).bind f
  | acquire flow next => acquire flow fun reply => (next reply).bind f
  | release lease next => release lease fun reply => (next reply).bind f
  | aside change next => aside change fun s => (next s).bind f

theorem run_bind (c : Calls α) (f : α → Calls β) (s : Services) :
    (c.bind f).run s = (f (c.run s).1).run (c.run s).2 := by
  induction c generalizing s with
  | done a => rfl
  | save r next ih => exact ih _ _
  | find flow next ih => exact ih _ _
  | acquire flow next ih => exact ih _ _
  | release lease next ih => exact ih _ _
  | aside change next ih => exact ih _ _

end Calls

namespace Driver

/-! ### The calls of each section -/

/-- An outcome with a driver, beside the services. -/
def pairing {α : Type} (x : α × Driver × Services) : (α × Driver) × Services :=
  ((x.1, x.2.1), x.2.2)

section Sections

variable (d : Driver) (now : Nat)

def persistCalls : Calls (Except FlowError Unit × Driver) :=
  let d := d.onRecord (·.touch (.ofVirtualMs now))
  .save d.record fun saved =>
    .done (saved.mapError .store, { d with published := d.record.state })

def acquireLeaseCalls : Calls (Except FlowError Unit × Driver) :=
  match d.lease with
  | some _ => .done (.ok (), d)
  | none => .acquire d.flow fun
    | .ok lease => .done (.ok (), { d with lease := some lease })
    | .error e => .done (.error (.lock e), d)

def releaseLeaseCalls : Calls Driver :=
  match d.lease with
  | some lease => .release lease fun _ => .done { d with lease := none }
  | none => .done d

def settleCalls : Calls Driver := releaseLeaseCalls { d with watchdog := none }

def startCalls : Calls (Except FlowError Unit × Driver) :=
  if d.record.state ≠ .created then
    .done (.error (.invalidState (.notCreated d.flow d.record.state)), d)
  else
    d.acquireLeaseCalls.bind fun
      | (.error e, d) => .done (.error e, d)
      | (.ok _, d) =>
        ((d.onRecord (·.start d.definition.firstStep)).armWatchdog now).persistCalls now

def resumeCalls : Calls (Except FlowError Unit × Driver) :=
  if d.lease.isSome || d.active.isSome then
    .done (.error (.invalidState (.alreadyRunning d.flow)), d)
  else
    .find d.flow fun
      | .error e => .done (.error (.store e), d)
      | .ok none => .done (.error (.noSuchFlow d.flow), d)
      | .ok (some stored) =>
        match resumeFault? d.flow stored with
        | some fault => .done (.error (.invalidState fault), d)
        | none =>
          d.acquireLeaseCalls.bind fun
            | (.error e, d) => .done (.error e, d)
            | (.ok _, d) =>
              let record := (stored.setResult .unknown).start d.definition.firstStep
              let d := { d.nextEpoch with record := record }
              (d.armWatchdog now).persistCalls now

def pauseCalls : Calls (Except FlowError Unit × Driver) :=
  match d.record.state with
  | .paused => .done (.ok (), d)
  | .running =>
    ((d.nextEpoch.abortActive.onRecord .pause).persistCalls now).bind fun (saved, d) =>
      d.settleCalls.bind fun d => .done (saved, d)
  | state => .done (.error (.invalidState (.cannotPause d.flow state)), d)

def moveToCalls (step : String) : Calls (Except FlowError Unit × Driver) :=
  if !d.definition.hasStep step then .done (.error (.stepNotFound step), d)
  else if d.isRunning then .done (.error (.invalidState (.mustPauseFirst d.flow)), d)
  else (d.onRecord (·.advanceTo step)).persistCalls now

def lookCalls : Calls Request :=
  if !d.isRunning || d.active.isSome then .done (.answered (.ok ()))
  else
    match d.record.currentStep with
    | none => .done (.answered (.error (.invalidState (.noCurrentStep d.flow))))
    | some id =>
      match d.definition.step? id with
      | none =>
        let work := StepWork.atOnce (.plain (.error (.stepNotFound id)))
        .done (.executing ⟨id, d.epoch, now, work.answer⟩)
      | some step =>
        .aside (fun s => (s.nextTurn d.source id).2) fun s =>
          let work := step.execute (s.nextTurn d.source id).1 d.record
          .done (.executing ⟨id, d.epoch, now + work.delay, work.answer⟩)

def carryOnCalls : Calls (Request × Driver) :=
  (d.persistCalls now).bind fun
    | (.error e, d) => .done (.answered (.error e), d)
    | (.ok _, d) =>
      if d.isRunning then .done (.ready, d)
      else d.settleCalls.bind fun d => .done (.answered (.ok ()), d)

/-- What follows the answer of a step. -/
def concludedCalls (e : Execution) (answer : StepAnswer) : Calls (Request × Driver) :=
  if d.epoch ≠ e.epoch || !d.isRunning then .done (.answered (.ok ()), d)
  else
    let instant := Instant.ofVirtualMs now
    match answer.outcome with
    | .error error => (d.routeError instant e.step error).carryOnCalls now
    | .ok t =>
      if t.isEdge then (d.applyEdge instant e.step t).carryOnCalls now
      else
        let d := d.logStep instant e.step t.log
        let d := match answer.launch with
          | some l => d.launch now e.step l
          | none => d
        (d.persistCalls now).bind fun (saved, d) =>
          d.releaseLeaseCalls.bind fun d => .done (.answered saved, d)

def concludeCalls (e : Execution) : Calls (Request × Driver) :=
  .aside (fun s => (s.drawing e.answer).2) fun s => d.concludedCalls now e (s.drawing e.answer).1

def proceedCalls (i : Nat) : Calls Driver :=
  match d.requests[i]? with
  | some .ready => (d.lookCalls now).bind fun r => .done (d.setRequest i r)
  | some (.executing e) =>
    if e.due ≤ now then (d.concludeCalls now e).bind fun (r, d) => .done (d.setRequest i r)
    else .done d
  | _ => .done d

def saveUpdateCalls (epoch : Nat) (step : String) (update : StepUpdate) :
    Calls (Except FlowError Unit × Driver) :=
  if d.epoch ≠ epoch then .done (.ok (), d)
  else
    let d := d.applyUpdate (.ofVirtualMs now) step update
    .save d.record fun saved => .done (saved.mapError .store, d)

def decideCalls (epoch : Nat) (step : String) (decision : Decision) : Calls Driver :=
  if d.epoch ≠ epoch || !d.isRunning then .done d
  else
    d.nextEpoch.abortActive.acquireLeaseCalls.bind fun
      | (.error _, d) => .done d
      | (.ok _, d) =>
        ((d.applyDecision (.ofVirtualMs now) step decision).carryOnCalls now).bind fun (r, d) =>
          .done (d.addRequest r)

def expireCalls : Calls Driver :=
  let d := { d with watchdog := none }
  if !d.isRunning then .done d
  else
    let d := d.nextEpoch.abortActive
    let step := d.record.currentStep.getD ""
    let d := d.onRecord fun r => (r.recordError step d.deadlineMessage none).complete .timeout
    (d.persistCalls now).bind fun (_, d) => d.releaseLeaseCalls

/-- What the crew of an activation does concerns only its polls and the trace. -/
def workCalls (i : Nat) : Calls Driver :=
  .aside
    (fun s => match d.activations[i]?.bind (·.work? now s.polls) with
      | some (_, polls, trace) => { s with polls := polls, trace := s.trace ++ trace }
      | none => s)
    fun s => match d.activations[i]?.bind (·.work? now s.polls) with
      | some (a, _, _) => .done (d.onActivation i fun _ => a)
      | none => .done d

def saveCalls (i : Nat) : Calls Driver :=
  match d.activations[i]? with
  | some a =>
    match a.failure, a.updates with
    | none, update :: rest =>
      (d.saveUpdateCalls now a.epoch a.step update).bind fun (saved, d) =>
        let failure := match saved with
          | .ok _ => none
          | .error e => some e
        .done (d.onActivation i fun a => { a with updates := rest, failure := failure })
    | _, _ => .done d
  | none => .done d

/-- The calls of an event; a change by somebody else makes none. -/
def calls : Event → Calls Driver
  | .move now .start => (d.startCalls now).bind fun (outcome, d) =>
    .done (d.addRequest (.ofStart outcome))
  | .move now .resume => (d.resumeCalls now).bind fun (outcome, d) =>
    .done (d.addRequest (.ofStart outcome))
  | .move now .pause => (d.pauseCalls now).bind fun (outcome, d) =>
    .done (d.addRequest (.answered outcome))
  | .move now (.moveTo step) => (d.moveToCalls now step).bind fun (outcome, d) =>
    .done (d.addRequest (.answered outcome))
  | .move now (.proceed i) => d.proceedCalls now i
  | .move now (.work i) => d.workCalls now i
  | .move _ (.hear i) =>
    match d.activations[i]?.bind (·.hear?) with
    | some a => .done (d.onActivation i fun _ => a)
    | none => .done d
  | .move now (.save i) => d.saveCalls now i
  | .move now (.decide i) =>
    match d.activations[i]? with
    | some a =>
      match a.decision? with
      | some decision => (d.onActivation i .tell).decideCalls now a.epoch a.step decision
      | none => .done d
    | none => .done d
  | .move now .expire => if d.watchdog.any (· ≤ now) then d.expireCalls now else .done d
  | .update now i update =>
    match d.activations[i]? with
    | some a => (d.saveUpdateCalls now a.epoch a.step update).bind fun (_, d) => .done d
    | none => .done d
  | .decision now i decision =>
    match d.activations[i]? with
    | some a => d.decideCalls now a.epoch a.step decision
    | none => .done d
  | .outside _ => .done d

end Sections

/-! ### Made without a pause they are the sections -/

section Runs

variable (d : Driver) (s : Services) (now : Nat)

theorem persistCalls_run : (d.persistCalls now).run s = pairing (d.persist s now) := rfl

theorem acquireLeaseCalls_run : d.acquireLeaseCalls.run s = pairing (d.acquireLease s) := by
  unfold acquireLeaseCalls acquireLease
  cases d.lease with
  | some lease => rfl
  | none =>
    simp only [Calls.run]
    rcases s.acquire d.flow with ⟨got, s⟩
    cases got <;> rfl

theorem releaseLeaseCalls_run : d.releaseLeaseCalls.run s = d.releaseLease s := by
  unfold releaseLeaseCalls releaseLease
  cases d.lease <;> rfl

theorem settleCalls_run : d.settleCalls.run s = d.settle s := releaseLeaseCalls_run ..

theorem startCalls_run : (d.startCalls now).run s = pairing (d.start s now) := by
  unfold startCalls start
  split
  · rfl
  · rw [Calls.run_bind, acquireLeaseCalls_run]
    rcases d.acquireLease s with ⟨outcome, d, s⟩
    cases outcome <;> rfl

theorem resumeCalls_run : (d.resumeCalls now).run s = pairing (d.resume s now) := by
  unfold resumeCalls resume
  split
  · rfl
  · simp only [Calls.run]
    rcases s.find d.flow with ⟨_ | _ | stored, s⟩
    · rfl
    · rfl
    · simp only [resumeFound]
      cases resumeFault? d.flow stored with
      | some fault => rfl
      | none =>
        simp only [Calls.run_bind, acquireLeaseCalls_run]
        rcases d.acquireLease s with ⟨outcome, d, s⟩
        cases outcome <;> rfl

theorem pauseCalls_run : (d.pauseCalls now).run s = pairing (d.pause s now) := by
  unfold pauseCalls pause
  cases d.record.state with
  | running =>
    simp only [Calls.run_bind, persistCalls_run, pairing, settleCalls_run]
    rfl
  | created | paused | completed => rfl

theorem moveToCalls_run (step : String) :
    (d.moveToCalls now step).run s = pairing (d.moveTo s now step) := by
  unfold moveToCalls moveTo
  split
  · rfl
  · split <;> rfl

theorem lookCalls_run : (d.lookCalls now).run s = d.look s now := by
  unfold lookCalls look
  split
  · rfl
  · cases d.record.currentStep with
    | none => rfl
    | some id =>
      simp only
      cases d.definition.step? id <;> rfl

theorem carryOnCalls_run : (d.carryOnCalls now).run s = pairing (d.carryOn s now) := by
  unfold carryOnCalls carryOn
  rw [Calls.run_bind, persistCalls_run]
  rcases d.persist s now with ⟨outcome, d, s⟩
  cases outcome with
  | error e => rfl
  | ok _ =>
    simp only [pairing]
    split
    · rfl
    · rw [Calls.run_bind, settleCalls_run]
      rfl

theorem concludeCalls_run (e : Execution) :
    (d.concludeCalls now e).run s = pairing (d.conclude s now e) := by
  unfold concludeCalls conclude
  simp only [Calls.run]
  rcases s.drawing e.answer with ⟨answer, s⟩
  unfold concludedCalls
  simp only
  split
  · rfl
  · cases answer.outcome with
    | error error => exact carryOnCalls_run ..
    | ok t =>
      simp only
      split
      · exact carryOnCalls_run ..
      · simp only [Calls.run_bind, persistCalls_run, pairing, releaseLeaseCalls_run]
        rfl

theorem proceedCalls_run (i : Nat) : (d.proceedCalls now i).run s = d.proceed s now i := by
  unfold proceedCalls proceed
  cases d.requests[i]? with
  | none => rfl
  | some r =>
    cases r with
    | answered outcome => rfl
    | ready =>
      simp only [Calls.run_bind, lookCalls_run]
      rfl
    | executing e =>
      simp only
      split
      · simp only [Calls.run_bind, concludeCalls_run]
        rfl
      · rfl

theorem saveUpdateCalls_run (epoch : Nat) (step : String) (update : StepUpdate) :
    (d.saveUpdateCalls now epoch step update).run s =
      pairing (d.saveUpdate s now epoch step update) := by
  unfold saveUpdateCalls saveUpdate
  split <;> rfl

theorem decideCalls_run (epoch : Nat) (step : String) (decision : Decision) :
    (d.decideCalls now epoch step decision).run s = d.decide s now epoch step decision := by
  unfold decideCalls decide
  split
  · rfl
  · rw [Calls.run_bind, acquireLeaseCalls_run]
    rcases d.nextEpoch.abortActive.acquireLease s with ⟨outcome, d, s⟩
    cases outcome with
    | error e => rfl
    | ok _ =>
      simp only [pairing, Calls.run_bind, carryOnCalls_run]
      rfl

theorem expireCalls_run : (d.expireCalls now).run s = d.expire s now := by
  unfold expireCalls expire
  simp only
  split
  · rfl
  · rw [Calls.run_bind, persistCalls_run]
    exact releaseLeaseCalls_run ..

theorem workCalls_run (i : Nat) : (d.workCalls now i).run s = d.perform s now (.work i) := by
  unfold workCalls perform
  simp only [Calls.run]
  cases d.activations[i]?.bind (·.work? now s.polls) <;> rfl

theorem saveCalls_run (i : Nat) : (d.saveCalls now i).run s = d.perform s now (.save i) := by
  simp only [saveCalls, perform]
  cases d.activations[i]? with
  | none => rfl
  | some a =>
    simp only
    cases a.failure with
    | some e => rfl
    | none =>
      cases a.updates with
      | nil => rfl
      | cons update rest =>
        simp only [Calls.run_bind, saveUpdateCalls_run]
        rfl

end Runs

/-- **The calls of an event, made without a pause, are the event.** -/
theorem calls_run (d : Driver) (s : Services) {e : Event} (own : e.IsOwn) :
    (d.calls e).run s = happen (d, s) e := by
  cases e with
  | outside change => exact absurd rfl (own change)
  | update now i update =>
    unfold calls happen
    simp only
    cases d.activations[i]? with
    | none => rfl
    | some a =>
      simp only [Calls.run_bind, saveUpdateCalls_run]
      rfl
  | decision now i decision =>
    unfold calls happen
    simp only
    cases d.activations[i]? with
    | none => rfl
    | some a => exact decideCalls_run ..
  | move now m =>
    unfold calls happen
    cases m with
    | start => simp only [Calls.run_bind, startCalls_run]; rfl
    | resume => simp only [Calls.run_bind, resumeCalls_run]; rfl
    | pause => simp only [Calls.run_bind, pauseCalls_run]; rfl
    | moveTo step => simp only [Calls.run_bind, moveToCalls_run]; rfl
    | proceed i => exact proceedCalls_run ..
    | work i => exact workCalls_run ..
    | save i => exact saveCalls_run ..
    | hear i =>
      simp only [perform]
      cases d.activations[i]?.bind (·.hear?) <;> rfl
    | decide i =>
      simp only [perform]
      cases d.activations[i]? with
      | none => rfl
      | some a =>
        simp only
        cases a.decision? with
        | none => rfl
        | some decision => exact decideCalls_run ..
    | expire =>
      simp only [perform]
      split
      · exact expireCalls_run ..
      · rfl

end Driver

end Workflow
