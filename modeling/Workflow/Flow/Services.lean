import Workflow.Flow.Store
import Workflow.Worker.Timed

/-!
# Workflow.Flow.Services — what all drivers share

The store, the lock service and the supply of identifiers, together with the calls of the store and
of the lock service that fail.  A failed call changes nothing.  Also shared is what depends on what
came before: the turns of each step, the polls of each monitor, and the trace of calls.
-/

namespace Workflow

/-- Which calls of one kind fail. -/
structure Outage where
  /-- How many calls were made. -/
  calls : Nat
  /-- Whether the n-th call fails, counted from 1. -/
  planned : Nat → Bool
  /-- How many of the coming calls fail in any case. -/
  coming : Nat

namespace Outage

/-- The calls of a plan fail. -/
def ofPlan (planned : Nat → Bool) : Outage := ⟨0, planned, 0⟩

def none : Outage := ofPlan fun _ => false

/-- One call: whether it fails. -/
def call (o : Outage) : Bool × Outage :=
  let calls := o.calls + 1
  (0 < o.coming || o.planned calls, { o with calls := calls, coming := o.coming - 1 })

/-- The next `n` calls fail. -/
def failNext (o : Outage) (n : Nat) : Outage := { o with coming := n }

end Outage

/-- What all drivers share. -/
structure Services where
  store : Store
  locks : Locks
  ids : IdSource
  saving : Outage
  finding : Outage
  acquiring : Outage
  releasing : Outage
  /-- Turns taken, per definition and step. -/
  turns : Table (Nat × String) Nat
  polls : PollCounts
  trace : List TraceEntry

namespace Services

/-- Empty services whose saves fail by a plan. -/
def ofPlan (saves : Nat → Bool) : Services :=
  ⟨.empty, .empty, .counting, .ofPlan saves, .none, .none, .none, .empty, .empty, []⟩

/-- What a store that cannot be reached answers. -/
def connectionReset : StoreError := .unavailable "connection reset"

/-- What a store answers that cannot read a record. -/
def badRow : StoreError := .operationFailed "bad row"

/-- What a lock service answers that cannot agree. -/
def noQuorum : LockError := .backend "no quorum"

/-- Saves a record. -/
def save (s : Services) (r : Record) : Except StoreError Unit × Services :=
  let (fails, saving) := s.saving.call
  let s := { s with saving := saving }
  if fails then (.error connectionReset, s) else (.ok (), { s with store := s.store.save r })

/-- A look-up in the store. -/
def lookUp {α : Type} (s : Services) (read : Store → α) : Except StoreError α × Services :=
  let (fails, finding) := s.finding.call
  let s := { s with finding := finding }
  if fails then (.error badRow, s) else (.ok (read s.store), s)

/-- The record of a flow. -/
def find (s : Services) (flow : FlowId) : Except StoreError (Option Record) × Services :=
  s.lookUp (·.find? flow)

/-- The log of a flow. -/
def logs (s : Services) (flow : FlowId) : Except StoreError (List StepLog) × Services :=
  s.lookUp (·.logs flow)

/-- Takes out the lease of a flow. -/
def acquire (s : Services) (flow : FlowId) : Except LockError Lease × Services :=
  let (fails, acquiring) := s.acquiring.call
  let s := { s with acquiring := acquiring }
  if fails then (.error noQuorum, s)
  else
    let (lease, locks, leases) := s.locks.acquire flow s.ids.leases
    (lease, { s with locks := locks, ids := { s.ids with leases := leases } })

/-- Gives a lease back. -/
def release (s : Services) (lease : Lease) : Except LockError Unit × Services :=
  let (fails, releasing) := s.releasing.call
  let s := { s with releasing := releasing }
  if fails then (.error noQuorum, s) else (.ok (), { s with locks := s.locks.release lease })

/-- The next identifier of a flow. -/
def nextFlow (s : Services) : FlowId × Services :=
  let (flow, ids) := s.ids.nextFlow
  (flow, { s with ids := ids })

/-- Something that draws identifiers of tasks. -/
def drawing {α : Type} (s : Services) (draw : IdStream .task → α × IdStream .task) : α × Services :=
  let (a, tasks) := draw s.ids.tasks
  (a, { s with ids := { s.ids with tasks := tasks } })

/-- The number of a step's next turn, which is taken. -/
def nextTurn (s : Services) (definition : Nat) (step : String) : Nat × Services :=
  let turn := (s.turns.get? (definition, step)).getD 0 + 1
  (turn, { s with turns := s.turns.put (definition, step) turn })

end Services

end Workflow
