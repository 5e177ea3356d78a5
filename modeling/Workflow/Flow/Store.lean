import Workflow.Error
import Workflow.Flow.Record

/-!
# Workflow.Flow.Store — where records are kept, and who may drive a flow

The store keeps one record per flow and counts its saves.  The lock service hands out at most one
lease per flow at a time; a lease that is not the current one releases nothing.
-/

namespace Workflow

/-- A kept record and how often it was saved. -/
structure Stored where
  record : Record
  saves : Nat
deriving Inhabited

/-- The kept records. -/
structure Store where
  kept : Table FlowId Stored

namespace Store

def empty : Store := ⟨.empty⟩

instance : Inhabited Store := ⟨empty⟩

/-- How often a flow was saved. -/
def saves (s : Store) (flow : FlowId) : Nat := ((s.kept.get? flow).map Stored.saves).getD 0

/-- Keeps a record in the place of the one before. -/
def save (s : Store) (r : Record) : Store := ⟨s.kept.put r.flow ⟨r, s.saves r.flow + 1⟩⟩

/-- The record of a flow. -/
def find? (s : Store) (flow : FlowId) : Option Record := (s.kept.get? flow).map Stored.record

/-- The log of a flow, oldest first. -/
def logs (s : Store) (flow : FlowId) : List StepLog := ((s.find? flow).map Record.log).getD []

/-- Forgets a flow and its saves. -/
def delete (s : Store) (flow : FlowId) : Store := ⟨s.kept.erase flow⟩

/-- How many flows are kept. -/
def size (s : Store) : Nat := s.kept.size

end Store

/-- The right to drive a flow. -/
structure Lease where
  id : LeaseId
  flow : FlowId
deriving DecidableEq, Inhabited, Repr

/-- The current lease of every flow that has one. -/
structure Locks where
  held : Table FlowId LeaseId

namespace Locks

def empty : Locks := ⟨.empty⟩

instance : Inhabited Locks := ⟨empty⟩

def isHeld (l : Locks) (flow : FlowId) : Bool := l.held.contains flow

/-- A lease with a fresh identifier, unless the flow has one. -/
def acquire (l : Locks) (flow : FlowId) (ids : IdStream .lease) :
    Except LockError Lease × Locks × IdStream .lease :=
  if l.isHeld flow then (.error (.held flow), l, ids)
  else
    let (id, ids) := ids.next
    (.ok ⟨id, flow⟩, ⟨l.held.put flow id⟩, ids)

/-- Gives a lease back, if it is the current one. -/
def release (l : Locks) (lease : Lease) : Locks :=
  if l.held.get? lease.flow = some lease.id then ⟨l.held.erase lease.flow⟩ else l

end Locks

end Workflow
