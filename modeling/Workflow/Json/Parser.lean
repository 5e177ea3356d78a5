import Workflow.Json.Basic
import Workflow.Text.Digits

/-!
# Workflow.Json.Parser — reading JSON text

`Json.parse` accepts exactly one value with blanks around it and keeps repeated members.  Text that
is well formed but denotes no value is read as `unreadable`: a number beyond the doubles, a string
with half of a surrogate pair, an object with such a key, and a container nested deeper than
`maxDepth`.  A number with a fraction or an exponent is read in double arithmetic: its leading
digits as a double, times or over one power of ten.
-/

namespace Workflow.Json

open Text (digitsValue)

/-- How deep containers may be nested. -/
def maxDepth : Nat := 127

def isBlank (c : Char) : Bool := c == ' ' || c == '\n' || c == '\t' || c == '\r'

def skipBlanks (cs : List Char) : List Char := cs.dropWhile isBlank

/-- The value of a hexadecimal digit in either case. -/
def hexDigit? (c : Char) : Option Nat :=
  if '0' ≤ c ∧ c ≤ '9' then some (c.toNat - '0'.toNat)
  else if 'a' ≤ c ∧ c ≤ 'f' then some (c.toNat - 'a'.toNat + 10)
  else if 'A' ≤ c ∧ c ≤ 'F' then some (c.toNat - 'A'.toNat + 10)
  else none

/-- Four hexadecimal digits. -/
def hexUnit? : List Char → Option (Nat × List Char)
  | a :: b :: c :: d :: rest => do
    let a ← hexDigit? a
    let b ← hexDigit? b
    let c ← hexDigit? c
    let d ← hexDigit? d
    some (a * 4096 + b * 256 + c * 16 + d, rest)
  | _ => none

/-- The character of a one-letter escape. -/
def escapedChar? : Char → Option Char
  | '"' => some '"'
  | '\\' => some '\\'
  | '/' => some '/'
  | 'b' => some '\x08'
  | 'f' => some '\x0c'
  | 'n' => some '\n'
  | 'r' => some '\r'
  | 't' => some '\t'
  | _ => none

def isHighSurrogate (unit : Nat) : Bool := 0xd800 ≤ unit && unit < 0xdc00

def isLowSurrogate (unit : Nat) : Bool := 0xdc00 ≤ unit && unit < 0xe000

/-- The rest of a string behind its opening quote, as reversed characters in `done`; the flag tells
whether all of it denotes characters. -/
def stringTail : Nat → List Char → Bool → List Char → Option (Option String × List Char)
  | 0, _, _, _ => none
  | fuel + 1, done, readable, cs =>
    match cs with
    | [] => none
    | '"' :: rest => some (if readable then some (String.ofList done.reverse) else none, rest)
    | '\\' :: 'u' :: rest => do
      let (unit, rest) ← hexUnit? rest
      if isHighSurrogate unit then
        match rest with
        | '\\' :: 'u' :: more =>
          let (low, more) ← hexUnit? more
          if isLowSurrogate low then
            let code := 0x10000 + (unit - 0xd800) * 0x400 + (low - 0xdc00)
            stringTail fuel (Char.ofNat code :: done) readable more
          else stringTail fuel done false rest
        | _ => stringTail fuel done false rest
      else if isLowSurrogate unit then stringTail fuel done false rest
      else stringTail fuel (Char.ofNat unit :: done) readable rest
    | '\\' :: c :: rest => do
      let c ← escapedChar? c
      stringTail fuel (c :: done) readable rest
    | c :: rest =>
      if c = '\\' ∨ c.toNat < 0x20 then none else stringTail fuel (c :: done) readable rest

/-- A leading run of decimal digits and what follows. -/
def digitRun (cs : List Char) : List Char × List Char :=
  (cs.takeWhile Char.isDigit, cs.dropWhile Char.isDigit)

/-- The digits behind the point, or none where there is no point. -/
def fractionPart? : List Char → Option (Option (List Char) × List Char)
  | '.' :: rest =>
    match digitRun rest with
    | ([], _) => none
    | (ds, rest) => some (some ds, rest)
  | cs => some (none, cs)

/-- The exponent, or none where none is written. -/
def exponentPart? : List Char → Option (Option Int × List Char)
  | c :: rest =>
    if c = 'e' ∨ c = 'E' then
      let (negative, rest) :=
        match rest with
        | '-' :: more => (true, more)
        | '+' :: more => (false, more)
        | _ => (false, rest)
      match digitRun rest with
      | ([], _) => none
      | (ds, rest) =>
        some (some (if negative then -(digitsValue ds : Int) else (digitsValue ds : Int)), rest)
    else some (none, c :: rest)
  | [] => some (none, [])

/-- The digits in front that keep a significand within 64 bits: the significand, how many digits it
took, and the digits left over. -/
def takeDigits : Nat → Nat → List Char → Nat × Nat × List Char
  | significand, taken, [] => (significand, taken, [])
  | significand, taken, d :: ds =>
    let next := 10 * significand + (d.toNat - '0'.toNat)
    if next < UInt64.size then takeDigits next (taken + 1) ds else (significand, taken, d :: ds)

/-- `x * 10 ^ exponent` by one multiplication or division, in front of which exponents below -308
are brought into range by steps of 308.  Overflow denotes no value. -/
def scaled : Nat → Double → Int → Json
  | 0, x, _ => .double x
  | fuel + 1, x, exponent =>
    if exponent.natAbs ≤ 308 then
      let power := Double.ofNat (Nat.pow 10 exponent.natAbs)
      if exponent < 0 then .double (x.div power)
      else if (x.mul power).isFinite then .double (x.mul power) else .unreadable
    else if x.isZero then .double x
    else if 0 < exponent then .unreadable
    else scaled fuel (x.div (Double.ofNat (Nat.pow 10 308))) (exponent + 308)

/-- The double of a significand and a power of ten: the significand is rounded to a double first and
scaled then. -/
def ofDecimal (negative : Bool) (significand : Nat) (exponent : Int) : Json :=
  scaled 5 (Double.ofRatio negative significand 1) exponent

/-- The value of a number without fraction and exponent. -/
def ofWhole (negative : Bool) (n : Nat) : Json :=
  if negative then
    if n ≠ 0 ∧ n ≤ Nat.pow 2 63 then .integer (-(n : Int)) else ofDecimal true n 0
  else .integer n

/-- The value of a number in its parts.  Digits that do not fit the significand only count: those in
front of the point as powers of ten, those behind it not at all. -/
def ofParts (negative : Bool) (whole : List Char) (fraction : Option (List Char))
    (exponent : Option Int) : Json :=
  let (significand, _, left) := takeDigits 0 0 whole
  match fraction, exponent, left with
  | none, none, [] => ofWhole negative significand
  | _, _, _ =>
    let (significand, places, _) := takeDigits significand 0 (fraction.getD [])
    ofDecimal negative significand (left.length - places + exponent.getD 0)

/-- A number behind its sign. -/
def unsignedNumber? (negative : Bool) (cs : List Char) : Option (Json × List Char) := do
  let (whole, rest) := digitRun cs
  if whole.isEmpty || (whole.head? == some '0' && whole.length ≠ 1) then none
  else
    let (fraction, rest) ← fractionPart? rest
    let (exponent, rest) ← exponentPart? rest
    some (ofParts negative whole fraction exponent, rest)

/-- Drops an expected word. -/
def word? : List Char → List Char → Option (List Char)
  | [], cs => some cs
  | w :: ws, c :: cs => if w = c then word? ws cs else none
  | _ :: _, [] => none

/-- An object as read: one with a key that denotes no string denotes no value. -/
def ofMembers (members : List (Option String × Json)) : Json :=
  match members.mapM fun m => m.1.map (·, m.2) with
  | some ms => .object ms
  | none => .unreadable

mutual

/-- One value inside `depth` containers, behind blanks. -/
def value? : Nat → Nat → List Char → Option (Json × List Char)
  | 0, _, _ => none
  | fuel + 1, depth, cs =>
    match skipBlanks cs with
    | '"' :: rest => (stringTail (rest.length + 1) [] true rest).map fun (s, rest) =>
        (match s with | some s => .string s | none => .unreadable, rest)
    | '[' :: rest =>
      match skipBlanks rest with
      | ']' :: rest => some (if depth < maxDepth then .array [] else .unreadable, rest)
      | rest => do
        let (items, rest) ← itemList? fuel (depth + 1) [] rest
        some (if depth < maxDepth then .array items else .unreadable, rest)
    | '\x7b' :: rest =>
      match skipBlanks rest with
      | '\x7d' :: rest => some (if depth < maxDepth then .object [] else .unreadable, rest)
      | rest => do
        let (members, rest) ← memberList? fuel (depth + 1) [] rest
        some (if depth < maxDepth then ofMembers members else .unreadable, rest)
    | '-' :: rest => unsignedNumber? true rest
    | 'n' :: rest => (word? ['u', 'l', 'l'] rest).map (.null, ·)
    | 't' :: rest => (word? ['r', 'u', 'e'] rest).map (.bool true, ·)
    | 'f' :: rest => (word? ['a', 'l', 's', 'e'] rest).map (.bool false, ·)
    | rest => unsignedNumber? false rest

/-- The items of an array up to its closing bracket. -/
def itemList? : Nat → Nat → List Json → List Char → Option (List Json × List Char)
  | 0, _, _, _ => none
  | fuel + 1, depth, done, cs =>
    match value? fuel depth cs with
    | none => none
    | some (item, rest) =>
      match skipBlanks rest with
      | ',' :: rest => itemList? fuel depth (item :: done) rest
      | ']' :: rest => some ((item :: done).reverse, rest)
      | _ => none

/-- The members of an object up to its closing brace. -/
def memberList? : Nat → Nat → List (Option String × Json) → List Char →
    Option (List (Option String × Json) × List Char)
  | 0, _, _, _ => none
  | fuel + 1, depth, done, cs =>
    match skipBlanks cs with
    | '"' :: rest =>
      match stringTail (rest.length + 1) [] true rest with
      | none => none
      | some (key, rest) =>
        match skipBlanks rest with
        | ':' :: rest =>
          match value? fuel depth rest with
          | none => none
          | some (item, rest) =>
            match skipBlanks rest with
            | ',' :: rest => memberList? fuel depth ((key, item) :: done) rest
            | '\x7d' :: rest => some (((key, item) :: done).reverse, rest)
            | _ => none
        | _ => none
    | _ => none

end

/-- The value that a whole text writes. -/
def parse (text : String) : Option Json :=
  let cs := text.toList
  match value? (2 * cs.length + 2) 0 cs with
  | some (j, rest) => if (skipBlanks rest).isEmpty then some j else none
  | none => none

end Workflow.Json
