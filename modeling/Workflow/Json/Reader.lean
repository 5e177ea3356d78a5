import Workflow.Json.Basic

/-!
# Workflow.Json.Reader — typed readers over JSON values

A record is read from an object, whose unknown members are skipped and whose known members may not
be repeated, or from a list of its members in order.  `Member` tells a member that an object left
out from one that a list ended before: an optional value may be left out of an object only.
-/

namespace Workflow.Json

/-- What a record's reader finds in the place of one member. -/
inductive Member where
  /-- A value. -/
  | given (j : Json)
  /-- The object has no such member. -/
  | absent
  /-- The list ended before it. -/
  | cut

/-- The members of a record by name, in the order of the names. -/
def members? (names : List String) : Json → Option (List Member)
  | .object members =>
    if names.any fun name => 1 < (members.filter (·.1 == name)).length then none
    else some (names.map fun name =>
      match members.lookup name with
      | some j => .given j
      | none => .absent)
  | .array items =>
    if names.length < items.length then none
    else some (items.map .given ++ List.replicate (names.length - items.length) .cut)
  | _ => none

namespace Member

/-- A member that must be there. -/
def required {α : Type} (read : Json → Option α) : Member → Option α
  | .given j => read j
  | _ => none

/-- A member with a value of its own when it is left out. -/
def orElse {α : Type} (read : Json → Option α) (fallback : α) : Member → Option α
  | .given j => read j
  | _ => some fallback

/-- An optional member: null and, in an object, its absence are no value. -/
def optional {α : Type} (read : Json → Option α) : Member → Option (Option α)
  | .given .null => some none
  | .given j => (read j).map some
  | .absent => some none
  | .cut => none

end Member

/-- Null or a value. -/
def nullable? {α : Type} (read : Json → Option α) : Json → Option (Option α)
  | .null => some none
  | j => (read j).map some

def text? : Json → Option String
  | .string s => some s
  | _ => none

def flag? : Json → Option Bool
  | .bool b => some b
  | _ => none

/-- A whole number of at least `low` and at most `high`. -/
def intWithin? (low high : Int) : Json → Option Int
  | .integer n => if low ≤ n ∧ n ≤ high then some n else none
  | _ => none

/-- A whole number of at most `high` that is not negative. -/
def natUpTo? (high : Nat) (j : Json) : Option Nat := (intWithin? 0 high j).map Int.toNat

def word32? (j : Json) : Option UInt32 := (natUpTo? (UInt32.size - 1) j).map UInt32.ofNat

def word64? (j : Json) : Option UInt64 := (natUpTo? (UInt64.size - 1) j).map UInt64.ofNat

/-- A whole number of 32 bits with a sign. -/
def int32? (j : Json) : Option Int32 :=
  (intWithin? Int32.minValue.toInt Int32.maxValue.toInt j).map Int32.ofInt

/-- Any number. -/
def number? : Json → Option Double
  | .double x => some x
  | .integer n => some (Double.ofInt n)
  | _ => none

/-- The items of an array, each read. -/
def list? {α : Type} (read : Json → Option α) : Json → Option (List α)
  | .array items => items.mapM read
  | _ => none

/-- A name, as a string or as the only member of an object with the value null. -/
def name? : Json → Option String
  | .string s => some s
  | .object [(s, .null)] => some s
  | _ => none

/-- Any value, in canonical form. -/
def any? (j : Json) : Option Json := if j.isReadable then some j.canonical else none

end Workflow.Json
