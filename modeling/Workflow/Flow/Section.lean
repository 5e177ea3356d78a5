import Workflow.Flow.Driver

/-!
# Workflow.Flow.Section — what a driver does while it holds its lock

Each function here runs from taking the lock to giving it back, and nothing else happens to the
driver in between.  A `Move` names one such section, or one thing that happens to launched tasks;
`perform` is total, and a move that is not possible changes nothing.  Whatever is possible at all is
a list of moves.
-/

namespace Workflow

namespace Driver

/-! ## Saving, leases, and settling -/

/-- Saves the record, and makes the state known even if it could not be saved. -/
def persist (d : Driver) (s : Services) (now : Nat) : Except FlowError Unit × Driver × Services :=
  let d := d.onRecord (·.touch (.ofVirtualMs now))
  let (saved, s) := s.save d.record
  (saved.mapError .store, { d with published := d.record.state }, s)

/-- Takes out the flow's lease, if the driver does not have it. -/
def acquireLease (d : Driver) (s : Services) : Except FlowError Unit × Driver × Services :=
  match d.lease with
  | some _ => (.ok (), d, s)
  | none =>
    match s.acquire d.flow with
    | (.ok lease, s) => (.ok (), { d with lease := some lease }, s)
    | (.error e, s) => (.error (.lock e), d, s)

/-- Gives the lease back; the driver is rid of it even if the lock service does not take it. -/
def releaseLease (d : Driver) (s : Services) : Driver × Services :=
  match d.lease with
  | some lease => ({ d with lease := none }, (s.release lease).2)
  | none => (d, s)

/-- The flow has stopped moving: no deadline and no lease. -/
def settle (d : Driver) (s : Services) : Driver × Services :=
  { d with watchdog := none }.releaseLease s

/-! ## Calls -/

/-- Starts a flow that was created. -/
def start (d : Driver) (s : Services) (now : Nat) : Except FlowError Unit × Driver × Services :=
  if d.record.state ≠ .created then
    (.error (.invalidState (.notCreated d.flow d.record.state)), d, s)
  else
    match d.acquireLease s with
    | (.error e, d, s) => (.error e, d, s)
    | (.ok _, d, s) =>
      let d := d.onRecord (·.start d.definition.firstStep)
      (d.armWatchdog now).persist s now

/-- Why a stored flow cannot be resumed. -/
def resumeFault? (flow : FlowId) (stored : Record) : Option StateFault :=
  if stored.state = .created then some (.neverStarted flow)
  else if stored.state = .completed && stored.result = .success then some (.alreadySucceeded flow)
  else none

/-- What a resume does once it has found a record. -/
def resumeFound (d : Driver) (found : Record) (s : Services) (now : Nat) :
    Except FlowError Unit × Driver × Services :=
  match resumeFault? d.flow found with
  | some fault => (.error (.invalidState fault), d, s)
  | none =>
    match d.acquireLease s with
    | (.error e, d, s) => (.error e, d, s)
    | (.ok _, d, s) =>
      let record := (found.setResult .unknown).start d.definition.firstStep
      let d := { d.nextEpoch with record := record }
      (d.armWatchdog now).persist s now

/-- Continues a flow from its stored record. -/
def resume (d : Driver) (s : Services) (now : Nat) : Except FlowError Unit × Driver × Services :=
  if d.lease.isSome || d.active.isSome then
    (.error (.invalidState (.alreadyRunning d.flow)), d, s)
  else
    match s.find d.flow with
    | (.error e, s) => (.error (.store e), d, s)
    | (.ok none, s) => (.error (.noSuchFlow d.flow), d, s)
    | (.ok (some stored), s) => d.resumeFound stored s now

/-- Stops a running flow and sends the tasks of its step home. -/
def pause (d : Driver) (s : Services) (now : Nat) : Except FlowError Unit × Driver × Services :=
  match d.record.state with
  | .paused => (.ok (), d, s)
  | .running =>
    let d := d.nextEpoch.abortActive.onRecord .pause
    let (saved, d, s) := d.persist s now
    let (d, s) := d.settle s
    (saved, d, s)
  | state => (.error (.invalidState (.cannotPause d.flow state)), d, s)

/-- Puts a flow that is not running on a step, where it goes on when it is resumed. -/
def moveTo (d : Driver) (s : Services) (now : Nat) (step : String) :
    Except FlowError Unit × Driver × Services :=
  if !d.definition.hasStep step then (.error (.stepNotFound step), d, s)
  else if d.isRunning then (.error (.invalidState (.mustPauseFirst d.flow)), d, s)
  else (d.onRecord (·.advanceTo step)).persist s now

/-! ## Running steps -/

/-- A request looks at the record: it has nothing to do, or the current step takes its next turn. -/
def look (d : Driver) (s : Services) (now : Nat) : Request × Services :=
  if !d.isRunning || d.active.isSome then (.answered (.ok ()), s)
  else
    match d.record.currentStep with
    | none => (.answered (.error (.invalidState (.noCurrentStep d.flow))), s)
    | some id =>
      match d.definition.step? id with
      | none =>
        let work := StepWork.atOnce (.plain (.error (.stepNotFound id)))
        (.executing ⟨id, d.epoch, now, work.answer⟩, s)
      | some step =>
        let (turn, s) := s.nextTurn d.source id
        let work := step.execute turn d.record
        (.executing ⟨id, d.epoch, now + work.delay, work.answer⟩, s)

/-- Saves what an edge or an error has made of the record; the request goes on if the flow runs. -/
def carryOn (d : Driver) (s : Services) (now : Nat) : Request × Driver × Services :=
  match d.persist s now with
  | (.error e, d, s) => (.answered (.error e), d, s)
  | (.ok _, d, s) =>
    if d.isRunning then (.ready, d, s)
    else
      let (d, s) := d.settle s
      (.answered (.ok ()), d, s)

/-- A step has answered.  The answer is dropped if the flow was touched meanwhile. -/
def conclude (d : Driver) (s : Services) (now : Nat) (e : Execution) :
    Request × Driver × Services :=
  let (answer, s) := s.drawing e.answer
  if d.epoch ≠ e.epoch || !d.isRunning then (.answered (.ok ()), d, s)
  else
    let instant := Instant.ofVirtualMs now
    match answer.outcome with
    | .error error => (d.routeError instant e.step error).carryOn s now
    | .ok t =>
      if t.isEdge then (d.applyEdge instant e.step t).carryOn s now
      else
        let d := d.logStep instant e.step t.log
        let d := match answer.launch with
          | some l => d.launch now e.step l
          | none => d
        let (saved, d, s) := d.persist s now
        let (d, s) := d.releaseLease s
        (.answered saved, d, s)

/-- A request takes its next section. -/
def proceed (d : Driver) (s : Services) (now : Nat) (i : Nat) : Driver × Services :=
  match d.requests[i]? with
  | some .ready =>
    let (r, s) := d.look s now
    (d.setRequest i r, s)
  | some (.executing e) =>
    if e.due ≤ now then
      let (r, d, s) := d.conclude s now e
      (d.setRequest i r, s)
    else (d, s)
  | _ => (d, s)

/-! ## Launched tasks -/

/-- Saves what a listener heard, unless its activation is stale. -/
def saveUpdate (d : Driver) (s : Services) (now epoch : Nat) (step : String) (update : StepUpdate) :
    Except FlowError Unit × Driver × Services :=
  if d.epoch ≠ epoch then (.ok (), d, s)
  else
    let d := d.applyUpdate (.ofVirtualMs now) step update
    let (saved, s) := s.save d.record
    (saved.mapError .store, d, s)

/-- A decision about an activation, unless it is stale: the activation is retired, and a new request
runs steps from here on. -/
def decide (d : Driver) (s : Services) (now epoch : Nat) (step : String) (decision : Decision) :
    Driver × Services :=
  if d.epoch ≠ epoch || !d.isRunning then (d, s)
  else
    match d.nextEpoch.abortActive.acquireLease s with
    | (.error _, d, s) => (d, s)
    | (.ok _, d, s) =>
      let (r, d, s) := (d.applyDecision (.ofVirtualMs now) step decision).carryOn s now
      (d.addRequest r, s)

/-- The deadline passes: what runs is sent home, and the flow is over. -/
def expire (d : Driver) (s : Services) (now : Nat) : Driver × Services :=
  let d := { d with watchdog := none }
  if !d.isRunning then (d, s)
  else
    let d := d.nextEpoch.abortActive
    let step := d.record.currentStep.getD ""
    let d := d.onRecord fun r => (r.recordError step d.deadlineMessage none).complete .timeout
    let (_, d, s) := d.persist s now
    d.releaseLease s

/-! ## Moves -/

/-- What can happen to one driver. -/
inductive Move where
  | start
  | resume
  | pause
  | moveTo (step : String)
  /-- A request takes its next section. -/
  | proceed (request : Nat)
  /-- One thing that is due happens to the crew of an activation. -/
  | work (activation : Nat)
  /-- A listener hears the next event. -/
  | hear (activation : Nat)
  /-- The next thing that a listener heard is saved. -/
  | save (activation : Nat)
  /-- A listener tells its decision. -/
  | decide (activation : Nat)
  /-- The deadline passes. -/
  | expire

/-- Notes the outcome of a call that is over at once. -/
def answering : Except FlowError Unit × Driver × Services → Driver × Services
  | (outcome, d, s) => (d.addRequest (.answered outcome), s)

/-- Notes a call that goes on to run steps unless it has failed. -/
def requesting : Except FlowError Unit × Driver × Services → Driver × Services
  | (outcome, d, s) => (d.addRequest (.ofStart outcome), s)

/-- One move. -/
def perform (d : Driver) (s : Services) (now : Nat) : Move → Driver × Services
  | .start => requesting (d.start s now)
  | .resume => requesting (d.resume s now)
  | .pause => answering (d.pause s now)
  | .moveTo step => answering (d.moveTo s now step)
  | .proceed i => d.proceed s now i
  | .work i =>
    match d.activations[i]?.bind (·.work? now s.polls) with
    | some (a, polls, trace) =>
      (d.onActivation i fun _ => a, { s with polls := polls, trace := s.trace ++ trace })
    | none => (d, s)
  | .hear i =>
    match d.activations[i]?.bind (·.hear?) with
    | some a => (d.onActivation i fun _ => a, s)
    | none => (d, s)
  | .save i =>
    match d.activations[i]? with
    | some a =>
      match a.failure, a.updates with
      | none, update :: rest =>
        let (saved, d, s) := d.saveUpdate s now a.epoch a.step update
        let failure := match saved with
          | .ok _ => none
          | .error e => some e
        (d.onActivation i fun a => { a with updates := rest, failure := failure }, s)
      | _, _ => (d, s)
    | none => (d, s)
  | .decide i =>
    match d.activations[i]? with
    | some a =>
      match a.decision? with
      | some decision => (d.onActivation i .tell).decide s now a.epoch a.step decision
      | none => (d, s)
    | none => (d, s)
  | .expire =>
    if d.watchdog.any (· ≤ now) then d.expire s now else (d, s)

/-- The next move at this time, if there is one: requests first, then crews, then listeners, then
the deadline. -/
def next? (d : Driver) (now : Nat) : Option Move :=
  let request := d.requests.findIdx? fun
    | .ready => true
    | .executing e => e.due ≤ now
    | .answered _ => false
  let crew := d.activations.findIdx? (·.due.any (· ≤ now))
  let saving := d.activations.findIdx? fun a => a.failure.isNone && !a.updates.isEmpty
  let telling := d.activations.findIdx? (·.decision?.isSome)
  let hearing := d.activations.findIdx? (·.hear?.isSome)
  (request.map Move.proceed).or <| (crew.map Move.work).or <| (saving.map Move.save).or <|
    (telling.map Move.decide).or <| (hearing.map Move.hear).or <|
    if d.watchdog.any (· ≤ now) then some .expire else none

/-- When something happens next by itself, once nothing is left to do now. -/
def due (d : Driver) : Option Nat :=
  let times := d.requests.map Request.due ++ d.activations.map Activation.due ++ [d.watchdog]
  times.foldl TimedCrew.earlier none

end Driver

end Workflow
