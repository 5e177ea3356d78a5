import Workflow.Flow.Activation
import Workflow.Flow.Definition
import Workflow.Flow.Services

/-!
# Workflow.Flow.Driver — one flow on its way through its definition

A driver holds the record of its flow and leads it from step to step.  Here is what it holds, and
how an edge or an error changes the record; `Workflow.Flow.Section` has what it does while it holds
its lock.

Every launch, decision, pause, resume, deadline, parking edge and unroutable error begins a new
epoch.  What comes from an older one is stale and changes nothing.
-/

namespace Workflow

/-- A step that is being executed. -/
structure Execution where
  step : String
  /-- The epoch of the driver when the execution began. -/
  epoch : Nat
  /-- When the step answers. -/
  due : Nat
  answer : IdStream .task → StepAnswer × IdStream .task

/-- A call to the driver, or the continuation of a decision, that runs steps until the flow
settles or waits for launched tasks. -/
inductive Request where
  /-- About to look at the record. -/
  | ready
  | executing (execution : Execution)
  | answered (outcome : Except FlowError Unit)

namespace Request

def outcome? : Request → Option (Except FlowError Unit)
  | answered outcome => some outcome
  | _ => none

/-- When the step that is being executed answers. -/
def due : Request → Option Nat
  | executing e => some e.due
  | _ => none

/-- A call that has failed is answered; any other goes on to run steps. -/
def ofStart : Except FlowError Unit → Request
  | .ok _ => ready
  | .error e => answered (.error e)

end Request

/-- The driver of one flow. -/
structure Driver where
  definition : Definition
  /-- Which definition this is, for the count of turns. -/
  source : Nat
  flow : FlowId
  record : Record
  /-- The state that was made known last. -/
  published : FlowState
  epoch : Nat
  lease : Option Lease
  /-- The activation on whose decision the flow waits. -/
  active : Option Nat
  /-- When the flow's deadline passes. -/
  watchdog : Option Nat
  /-- Every activation so far. -/
  activations : List Activation
  /-- Every request so far. -/
  requests : List Request

namespace Driver

/-- A driver of a flow that nothing drives yet. -/
def ofRecord (definition : Definition) (source : Nat) (record : Record) : Driver :=
  ⟨definition, source, record.flow, record, record.state, 0, none, none, none, [], []⟩

/-- The driver with a changed record. -/
def onRecord (d : Driver) (change : Record → Record) : Driver :=
  { d with record := change d.record }

def isRunning (d : Driver) : Bool := d.record.state = .running

/-- What an older epoch brings is stale from here on. -/
def nextEpoch (d : Driver) : Driver := { d with epoch := d.epoch + 1 }

def progress (d : Driver) : Double := d.definition.progress d.record

/-! ## Edges and errors -/

/-- Whether log lines of a step are kept; those of an unknown step are. -/
def keepsLog (d : Driver) (step : String) : Bool :=
  match d.definition.step? step with
  | some s => s.properties.logging
  | none => true

/-- Log lines of a step, if they are kept. -/
def logStep (d : Driver) (now : Instant) (step : String) (entries : List LogEntry) : Driver :=
  if d.keepsLog step then d.onRecord (·.appendLog step none entries now) else d

/-- Where errors of a step lead, unless that is the step itself. -/
def exceptionStep? (d : Driver) (step : String) : Option String :=
  ((d.definition.step? step).bind (·.properties.onException)).filter (· ≠ step)

/-- An error of a step: it is noted, and leads to another step, ends the flow or pauses it. -/
def routeError (d : Driver) (now : Instant) (step : String) (e : FlowError) : Driver :=
  let d := d.onRecord (·.recordError step e.message e.cause)
  let d := d.logStep now step [⟨e.message, e.cause⟩]
  let d := d.onRecord (·.setResult .failed)
  match d.exceptionStep? step with
  | some target => d.onRecord (·.advanceTo target)
  | none =>
    if d.definition.properties.killNonRecoverable then d.onRecord (·.complete .failed)
    else d.nextEpoch.onRecord .pause

/-- What is wrong with an edge: its target does not exist, or it neither has one nor stops the
flow. -/
def edgeFault? (d : Driver) (step : String) (t : Transition) : Option FlowError :=
  match t.target with
  | some target => if d.definition.hasStep target then none else some (.stepNotFound target)
  | none =>
    if t.state = some .completed || t.state = some .paused then none
    else some (.invalidState (.aimlessEdge step))

/-- Whether a step counts as completed once it has taken an edge. -/
def completes (d : Driver) (step : String) : Bool :=
  match d.definition.step? step with
  | some s => !s.properties.isErrorStep
  | none => false

/-- The result of a flow that completes: one that is not known is a success. -/
def finalResult : FlowResult → FlowResult
  | .unknown => .success
  | r => r

/-- A step takes an edge that is in order. -/
def takeEdge (d : Driver) (now : Instant) (step : String) (t : Transition) : Driver :=
  let d := d.logStep now step t.log
  let d := if d.completes step then d.onRecord (·.markCompleted step) else d
  let d := match t.result with
    | some result => d.onRecord (·.setResult result)
    | none => d
  let d := match t.target with
    | some target => d.onRecord (·.advanceTo target)
    | none => d
  match t.state with
  | some .completed => d.onRecord fun r => r.complete (finalResult r.result)
  | some .paused => d.nextEpoch.onRecord .pause
  | _ => d

/-- A step takes an edge; one that is not in order is an error of the step. -/
def applyEdge (d : Driver) (now : Instant) (step : String) (t : Transition) : Driver :=
  match d.edgeFault? step t with
  | some e => d.routeError now step e
  | none => d.takeEdge now step t

/-- A decision about a step. -/
def applyDecision (d : Driver) (now : Instant) (step : String) : Decision → Driver
  | .ok t => d.applyEdge now step t
  | .error e => d.routeError now step e

/-- What a listener heard about a step's tasks. -/
def applyUpdate (d : Driver) (now : Instant) (step : String) (update : StepUpdate) : Driver :=
  let logged (task : Option TaskId) (entries : List LogEntry) (r : Record) : Record :=
    if d.keepsLog step then r.appendLog step task entries now else r
  let d := match update with
    | .taskCreated task => d.onRecord (·.recordTask step task)
    | .taskResult r entries =>
      d.onRecord fun record => logged (some r.task) entries (record.saveResult step r)
    | .log task entries => d.onRecord (logged task entries)
  d.onRecord (·.touch now)

/-! ## Activations, requests and the deadline -/

/-- Changes one activation. -/
def onActivation (d : Driver) (i : Nat) (change : Activation → Activation) : Driver :=
  { d with activations := d.activations.modify i change }

/-- Sends the active crew home. -/
def abortActive (d : Driver) : Driver :=
  match d.active with
  | some i => { d.onActivation i .abort with active := none }
  | none => d

/-- A step launches tasks, and the flow waits for the decision of their handler. -/
def launch (d : Driver) (now : Nat) (step : String) (l : StepLaunch) : Driver :=
  let d := d.nextEpoch.logStep (.ofVirtualMs now) step
    [⟨"launched " ++ toString l.batch.size ++ " task(s)", none⟩]
  { d with
    activations := d.activations ++ [.start step d.epoch now l]
    active := some d.activations.length }

/-- One more request. -/
def addRequest (d : Driver) (r : Request) : Driver := { d with requests := d.requests ++ [r] }

/-- Puts a request into its new phase. -/
def setRequest (d : Driver) (i : Nat) (r : Request) : Driver :=
  { d with requests := d.requests.set i r }

/-- Sets the deadline anew, if the definition has one. -/
def armWatchdog (d : Driver) (now : Nat) : Driver :=
  let seconds := d.definition.properties.timeoutSec.toNat
  { d with watchdog := if seconds = 0 then none else some (now + seconds * 1000) }

/-- What is noted of a flow whose deadline has passed. -/
def deadlineMessage (d : Driver) : String :=
  "flow timed out after " ++ toString d.definition.properties.timeoutSec.toNat ++ " s"

end Driver

end Workflow
