/-!
# Workflow.Id — identifiers of flows, tasks and leases

An identifier is a number of 128 bits: a time in milliseconds in the upper 48 and a random part in
the lower 80.  Its text is twenty-six digits of a base-32 alphabet without letters that are easily
mistaken, most significant first, so that text order is number order.
-/

namespace Workflow

/-- What an identifier names. -/
inductive IdKind where
  | flow
  | task
  | lease
deriving DecidableEq, Repr

/-- The word in front of an identifier's text. -/
def IdKind.label : IdKind → String
  | .flow => "flow-"
  | .task => "task-"
  | .lease => "lease-"

/-- An identifier. -/
structure Id (kind : IdKind) where
  number : Fin (Nat.pow 2 128)
deriving DecidableEq, Repr

abbrev FlowId := Id .flow

abbrev TaskId := Id .task

abbrev LeaseId := Id .lease

/-- Why a text is no identifier. -/
inductive IdError where
  | invalidLength
  | invalidCharacter
deriving DecidableEq, Repr

def IdError.message : IdError → String
  | .invalidLength => "invalid length"
  | .invalidCharacter => "invalid character"

namespace Id

variable {kind : IdKind}

instance : Inhabited (Id kind) := ⟨⟨0⟩⟩

/-- The identifier of a number, its low 128 bits. -/
def ofNat (n : Nat) : Id kind := ⟨Fin.ofNat (Nat.pow 2 128) n⟩

def toNat (id : Id kind) : Nat := id.number.val

instance : LT (Id kind) := ⟨fun a b => a.toNat < b.toNat⟩

instance : LE (Id kind) := ⟨fun a b => a.toNat ≤ b.toNat⟩

instance (a b : Id kind) : Decidable (a < b) := inferInstanceAs (Decidable (a.toNat < b.toNat))

instance (a b : Id kind) : Decidable (a ≤ b) := inferInstanceAs (Decidable (a.toNat ≤ b.toNat))

/-- The identifier of a time and a random part: the low 48 bits of the one above the low 80 bits of
the other. -/
def ofParts (ms random : Nat) : Id kind :=
  ofNat (ms % Nat.pow 2 48 * Nat.pow 2 80 + random % Nat.pow 2 80)

/-- The identifier drawn at a time in milliseconds from 1970; a time before it is a 64-bit word in
two's complement. -/
def generate (ms : Int) (random : Nat) : Id kind := ofParts (ms % UInt64.size).toNat random

/-- The time in the upper 48 bits. -/
def ms (id : Id kind) : Nat := id.toNat / Nat.pow 2 80

/-! ## Base 32 -/

/-- The digits in order of their values. -/
def alphabet : List Char := "0123456789ABCDEFGHJKMNPQRSTVWXYZ".toList

/-- How many digits an identifier has. -/
def width : Nat := 26

/-- The lowest `n` base-32 digits of a number, most significant first. -/
def digits : Nat → Nat → List Char
  | 0, _ => []
  | n + 1, value => alphabet.getD (value / Nat.pow 32 n % 32) '0' :: digits n value

/-- Twenty-six digits. -/
def ulid (id : Id kind) : String := String.ofList (digits width id.toNat)

/-- The identifier with its label. -/
def text (id : Id kind) : String := kind.label ++ id.ulid

instance : ToString (Id kind) := ⟨text⟩

/-- The value of a digit in either case. -/
def digitValue? (c : Char) : Option Nat := alphabet.idxOf? c.toUpper

/-- The identifier of twenty-six digits; bits above the lowest 128 are dropped. -/
def ofUlid (s : String) : Except IdError (Id kind) :=
  if s.utf8ByteSize ≠ width then .error .invalidLength
  else
    match s.toList.mapM digitValue? with
    | some values => .ok (ofNat (values.foldl (fun n d => 32 * n + d) 0))
    | none => .error .invalidCharacter

end Id

/-! ## Drawing identifiers -/

/-- A supply of identifiers of one kind and how many of them were drawn. -/
structure IdStream (kind : IdKind) where
  nth : Nat → Id kind
  drawn : Nat

namespace IdStream

variable {kind : IdKind}

/-- The identifiers 1, 2, 3, ... -/
def counting : IdStream kind := ⟨fun n => .ofNat (n + 1), 0⟩

/-- The next identifier. -/
def next (s : IdStream kind) : Id kind × IdStream kind :=
  (s.nth s.drawn, { s with drawn := s.drawn + 1 })

end IdStream

/-- Where new identifiers come from. -/
structure IdSource where
  flows : IdStream .flow
  tasks : IdStream .task
  leases : IdStream .lease

namespace IdSource

def counting : IdSource := ⟨.counting, .counting, .counting⟩

instance : Inhabited IdSource := ⟨counting⟩

def nextFlow (s : IdSource) : FlowId × IdSource :=
  (s.flows.next.1, { s with flows := s.flows.next.2 })

end IdSource

end Workflow
