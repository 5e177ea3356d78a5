import Workflow.Flow.World

/-!
# Workflow.Flow.Session — an operator at work with several flows

A session gives names to drivers and to calls in the background, keeps the leases of an outside
runner, and carries out one command at a time.  A command runs to its end; `pass` lets time go by
between commands.
-/

namespace Workflow

/-- Drivers with names, in one world. -/
structure Session where
  world : World
  definitions : List Definition
  /-- The driver that a name stands for. -/
  drivers : Table String Nat
  /-- The driver and the request of a call in the background. -/
  calls : Table String (Nat × Nat)
  /-- Leases of the outside runner, the latest first. -/
  leases : List Lease

namespace Session

/-- What an operator can ask for. -/
inductive Command where
  | create (driver : String) (definition : Nat)
  | load (driver : String) (definition : Nat) (flow : FlowId)
  /-- Attaches to the flow of another driver. -/
  | loadOf (driver : String) (definition : Nat) (other : String)
  /-- A call to a driver, in the background if it is given a name. -/
  | call (driver : String) (move : Driver.Move) (background : Option String)
  /-- Waits for a call in the background. -/
  | join (call : String) (ms : Nat)
  /-- Waits until a flow is paused or completed. -/
  | awaitSettled (driver : String) (ms : Nat)
  | awaitState (driver : String) (state : FlowState) (ms : Nat)
  | pass (ms : Nat)
  | logs (driver : String)
  | stored (driver : String)
  | delete (driver : String)
  /-- Changes the stored record behind the driver's back; a change that is refused leaves it. -/
  | patch (driver : String) (change : Record → Option Record)
  /-- The outside runner takes out the flow's lease. -/
  | lock (driver : String)
  /-- The outside runner gives the latest such lease back. -/
  | unlock (driver : String)
  | failSaves (n : Nat)
  | failFinds (n : Nat)
  | failAcquires (n : Nat)
  | failReleases (n : Nat)

/-- What comes of a command. -/
inductive Reply where
  | done
  | started
  | stillRunning
  | stillWaiting
  | noSuchDriver
  | noSuchCall
  | nothingStored
  | notHeld
  | outcome (r : Except FlowError Unit)
  | driver (r : Except FlowError Driver)
  | settled (state : FlowState)
  | logs (r : Except FlowError (List StepLog))
  | stored (r : Except FlowError (Option Record))
  | lease (r : Except FlowError Lease)

/-- A session at time 0, whose saves fail by a plan. -/
def start (definitions : List Definition) (saves : Nat → Bool) : Session :=
  ⟨.ofPlan saves, definitions, .empty, .empty, []⟩

/-- The driver of a name. -/
def driver? (s : Session) (name : String) : Option Driver := do
  let i ← s.drivers.get? name
  s.world.drivers[i]?

/-- Changes what the drivers share. -/
def onServices (s : Session) (change : Services → Services) : Session :=
  { s with world := { s.world with services := change s.world.services } }

/-- Time passes. -/
def pass (fuel ms : Nat) (s : Session) : Session := { s with world := s.world.pass fuel ms }

/-- Gives a name to a driver that was made, if it was. -/
def named (s : Session) (name : String) (made : Except FlowError Driver × World) :
    Reply × Session :=
  let s' := { s with world := made.2 }
  match made.1 with
  | .error e => (.driver (.error e), s')
  | .ok d => (.driver (.ok d), { s' with drivers := s.drivers.put name s.world.drivers.length })

/-- Time passes until there is something to see, for at most `ms`. -/
def await {α : Type} (fuel : Nat) (s : Session) (see : World → Option α) (ms : Nat)
    (seen : α → Reply) (late : Reply) : Reply × Session :=
  let (a, w) := s.world.await see (some (s.world.now + ms)) fuel
  (a.elim late seen, { s with world := w })

/-- Attaches a driver to a stored flow. -/
def load (s : Session) (name : String) (definition : Nat) (flow : FlowId) : Reply × Session :=
  match s.definitions[definition]? with
  | some d => s.named name (s.world.load d definition flow)
  | none => (.noSuchDriver, s)

/-- A call to a driver. -/
def call (fuel : Nat) (s : Session) (i : Nat) (move : Driver.Move) (background : Option String) :
    Reply × Session :=
  let (request, w) := s.world.call i move
  match background with
  | some name => (.started, { s with world := w, calls := s.calls.put name (i, request) })
  | none =>
    let (got, w) := w.await (World.outcome? i request) none fuel
    (got.elim .stillRunning .outcome, { s with world := w })

/-- Waits for a call in the background, which is over once its outcome is known. -/
def join (fuel : Nat) (s : Session) (name : String) (ms : Nat) : Reply × Session :=
  match s.calls.get? name with
  | none => (.noSuchCall, s)
  | some (i, request) =>
    match s.await fuel (World.outcome? i request) ms .outcome .stillRunning with
    | (.outcome r, s) => (.outcome r, { s with calls := s.calls.erase name })
    | other => other

/-- Changes the stored record of a flow. -/
def patch (s : Session) (flow : FlowId) (change : Record → Option Record) : Reply × Session :=
  match s.world.services.store.find? flow with
  | none => (.nothingStored, s)
  | some r =>
    match change r with
    | none => (.done, s)
    | some r => (.outcome (.ok ()), s.onServices fun v => { v with store := v.store.save r })

/-- The outside runner takes out a lease. -/
def lock (s : Session) (flow : FlowId) : Reply × Session :=
  let (got, services) := s.world.services.acquire flow
  let s := s.onServices fun _ => services
  match got with
  | .ok lease => (.lease (.ok lease), { s with leases := lease :: s.leases })
  | .error e => (.lease (.error (.lock e)), s)

/-- The outside runner gives its latest lease of the flow back. -/
def unlock (s : Session) (flow : FlowId) : Reply × Session :=
  match s.leases.find? (·.flow = flow) with
  | none => (.notHeld, s)
  | some lease =>
    let (got, services) := s.world.services.release lease
    (.outcome (got.mapError .lock),
      { s.onServices (fun _ => services) with leases := s.leases.erase lease })

/-- Does something with a named driver, if there is one. -/
def withDriver (s : Session) (name : String) (act : Nat → Driver → Reply × Session) :
    Reply × Session :=
  match s.drivers.get? name with
  | none => (.noSuchDriver, s)
  | some i =>
    match s.world.drivers[i]? with
    | none => (.noSuchDriver, s)
    | some d => act i d

/-- One command. -/
def perform (fuel : Nat) (s : Session) : Command → Reply × Session
  | .create name definition =>
    match s.definitions[definition]? with
    | some d => s.named name (s.world.create d definition)
    | none => (.noSuchDriver, s)
  | .load name definition flow => s.load name definition flow
  | .loadOf name definition other =>
    s.withDriver other fun _ d => s.load name definition d.flow
  | .call name move background => s.withDriver name fun i _ => s.call fuel i move background
  | .join name ms => s.join fuel name ms
  | .awaitSettled name ms => s.withDriver name fun i _ =>
    s.await fuel (World.settled? i) ms .settled .stillWaiting
  | .awaitState name state ms => s.withDriver name fun i _ =>
    s.await fuel (fun w => (w.published? i).filter (· = state)) ms (fun _ => .outcome (.ok ()))
      .stillWaiting
  | .pass ms => (.done, s.pass fuel ms)
  | .logs name => s.withDriver name fun _ d =>
    let (got, services) := s.world.services.logs d.flow
    (.logs (got.mapError .store), s.onServices fun _ => services)
  | .stored name => s.withDriver name fun _ d =>
    let (got, services) := s.world.services.find d.flow
    (.stored (got.mapError .store), s.onServices fun _ => services)
  | .delete name => s.withDriver name fun _ d =>
    (.outcome (.ok ()), s.onServices fun v => { v with store := v.store.delete d.flow })
  | .patch name change => s.withDriver name fun _ d => s.patch d.flow change
  | .lock name => s.withDriver name fun _ d => s.lock d.flow
  | .unlock name => s.withDriver name fun _ d => s.unlock d.flow
  | .failSaves n => (.done, s.onServices fun v => { v with saving := v.saving.failNext n })
  | .failFinds n => (.done, s.onServices fun v => { v with finding := v.finding.failNext n })
  | .failAcquires n => (.done, s.onServices fun v => { v with acquiring := v.acquiring.failNext n })
  | .failReleases n => (.done, s.onServices fun v => { v with releasing := v.releasing.failNext n })

end Session

end Workflow
