import Workflow.Flow.Section

/-!
# Workflow.Flow.World — drivers in virtual time

A world holds drivers, what they share, and a clock of whole milliseconds.  Nothing takes time but
sleeping: `settle` lets everything happen that is possible now, and time passes only when nothing is
left to do.  Runs are bounded by fuel, one unit per move or jump of the clock.
-/

namespace Workflow

/-- Drivers, what they share, and the time. -/
structure World where
  now : Nat
  services : Services
  drivers : List Driver

namespace World

/-- Nothing at time 0, with services whose saves fail by a plan. -/
def ofPlan (saves : Nat → Bool) : World := ⟨0, .ofPlan saves, []⟩

/-- Nothing at time 0, with services that never fail. -/
def empty : World := ofPlan fun _ => false

instance : Inhabited World := ⟨empty⟩

def instant (w : World) : Instant := .ofVirtualMs w.now

/-- Changes one driver and what it shares. -/
def onDriver (w : World) (i : Nat) (change : Driver → Services → Driver × Services) : World :=
  match w.drivers[i]? with
  | some d =>
    let (d, s) := change d w.services
    { w with drivers := w.drivers.set i d, services := s }
  | none => w

/-- One move of a driver. -/
def perform (w : World) (i : Nat) (move : Driver.Move) : World :=
  w.onDriver i fun d s => d.perform s w.now move

/-! ## Drivers -/

/-- A new flow is saved, and gets a driver. -/
def create (w : World) (definition : Definition) (source : Nat) : Except FlowError Driver × World :=
  let (flow, s) := w.services.nextFlow
  let record := Record.create flow definition.flowType w.instant
  let (saved, s) := s.save record
  match saved with
  | .error e => (.error (.store e), { w with services := s })
  | .ok _ =>
    let d := Driver.ofRecord definition source record
    (.ok d, { w with services := s, drivers := w.drivers ++ [d] })

/-- A stored flow gets a driver. -/
def load (w : World) (definition : Definition) (source : Nat) (flow : FlowId) :
    Except FlowError Driver × World :=
  let (found, s) := w.services.find flow
  let w := { w with services := s }
  match found with
  | .error e => (.error (.store e), w)
  | .ok none => (.error (.noSuchFlow flow), w)
  | .ok (some record) =>
    if record.flowType ≠ definition.flowType then
      (.error (.invalidState (.otherType flow record.flowType definition.flowType)), w)
    else
      let d := Driver.ofRecord definition source record
      (.ok d, { w with drivers := w.drivers ++ [d] })

/-! ## Time -/

/-- The next move at this time, that of the first driver that has one. -/
def next? (w : World) : Option (Nat × Driver.Move) :=
  w.drivers.zipIdx.findSome? fun (d, i) => (d.next? w.now).map (i, ·)

/-- When something happens next, once nothing is left to do now. -/
def due (w : World) : Option Nat := (w.drivers.map Driver.due).foldl TimedCrew.earlier none

/-- Everything happens that is possible at this time. -/
def settle : Nat → World → World
  | 0, w => w
  | fuel + 1, w =>
    match w.next? with
    | some (i, move) => settle fuel (w.perform i move)
    | none => w

/-- Everything happens that is possible until a time, which is then the time. -/
def passTo (time : Nat) : Nat → World → World
  | 0, w => w
  | fuel + 1, w =>
    match w.next? with
    | some (i, move) => passTo time fuel (w.perform i move)
    | none =>
      match w.due with
      | some due =>
        if due ≤ time then passTo time fuel { w with now := due } else { w with now := time }
      | none => { w with now := time }

/-- Time passes. -/
def pass (fuel ms : Nat) (w : World) : World := passTo (w.now + ms) fuel w

/-- Time passes until something is there to see, but not beyond a limit if one is given. -/
def await {α : Type} (see : World → Option α) (limit : Option Nat) : Nat → World → Option α × World
  | 0, w => (none, w)
  | fuel + 1, w =>
    match w.next? with
    | some (i, move) => await see limit fuel (w.perform i move)
    | none =>
      match see w, w.due with
      | some a, _ => (some a, w)
      | none, some due =>
        if limit.all (due ≤ ·) then await see limit fuel { w with now := due }
        else (none, { w with now := limit.getD w.now })
      | none, none => (none, { w with now := limit.getD w.now })

/-! ## Calls -/

/-- The outcome of a driver's request, once it is answered. -/
def outcome? (i request : Nat) (w : World) : Option (Except FlowError Unit) := do
  let d ← w.drivers[i]?
  let r ← d.requests[request]?
  r.outcome?

/-- The state of a driver that was made known last. -/
def published? (i : Nat) (w : World) : Option FlowState := w.drivers[i]?.map Driver.published

/-- The state of a driver, once it is settled. -/
def settled? (i : Nat) (w : World) : Option FlowState := (w.published? i).filter (·.isSettled)

/-- Makes a call to a driver; it is answered as the request of the number that comes with it. -/
def call (w : World) (i : Nat) (move : Driver.Move) : Nat × World :=
  let request := (w.drivers[i]?.map (·.requests.length)).getD 0
  (request, w.perform i move)

end World

end Workflow
