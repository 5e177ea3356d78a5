import Workflow.Time.Calendar
import Workflow.Text.Digits

/-!
# Workflow.Time.Instant — points in time, in universal time

An instant is a day, a second of that day and nanoseconds; a leap second is the last second of its
minute with a second billion of nanoseconds.  `Instant.text` writes RFC 3339 with `Z` and the
shortest of the fractions of 0, 3, 6 and 9 digits, `Instant.ofText?` reads RFC 3339 with any offset
and with blanks between the parts.
-/

namespace Workflow

/-- A point in time. -/
structure Instant where
  /-- Days from 1970-01-01. -/
  day : Int
  /-- Seconds from midnight. -/
  second : Nat
  /-- Nanoseconds within the second; those of a leap second count on from one billion. -/
  nanos : Nat
  second_lt : second < 86400
  nanos_lt : nanos < 2000000000
  leap_last : 1000000000 ≤ nanos → second % 60 = 59
deriving DecidableEq, Repr

namespace Instant

open Text (digitsValue padded)

/-- The instant `seconds` and `nanos` after 1970-01-01T00:00:00Z, without leap seconds. -/
def ofUnix (seconds : Int) (nanos : Nat) : Instant :=
  ⟨Int.fdiv seconds 86400, (Int.fmod seconds 86400).toNat, nanos % 1000000000,
    by have := Int.fmod_lt_of_pos seconds (by decide : (0 : Int) < 86400)
       have := Int.fmod_nonneg_of_pos seconds (by decide : (0 : Int) < 86400)
       omega,
    by omega, by omega⟩

/-- The instant `ms` milliseconds after 1970-01-01T00:00:00Z. -/
def ofUnixMs (ms : Int) : Instant :=
  ofUnix (Int.fdiv ms 1000) ((Int.fmod ms 1000).toNat * 1000000)

/-- Whole milliseconds from 1970-01-01T00:00:00Z. -/
def unixMs (t : Instant) : Int := (t.day * 86400 + t.second) * 1000 + (t.nanos / 1000000 : Nat)

/-- The instant `ms` milliseconds after 2024-01-01T00:00:00Z, where virtual time starts. -/
def ofVirtualMs (ms : Nat) : Instant := ofUnixMs (1704067200000 + ms)

instance : Inhabited Instant := ⟨ofVirtualMs 0⟩

/-- Whether the year lies in the range of the calendar. -/
def inCalendar (t : Instant) : Bool :=
  Date.firstYear ≤ (Date.ofDay t.day).year && (Date.ofDay t.day).year ≤ Date.lastYear

instance : LE Instant where
  le a b := a.day < b.day ∨ a.day = b.day ∧
    (a.second < b.second ∨ a.second = b.second ∧ a.nanos ≤ b.nanos)

instance (a b : Instant) : Decidable (a ≤ b) :=
  inferInstanceAs (Decidable (_ ∨ _ ∧ (_ ∨ _ ∧ _)))

/-! ## Writing -/

/-- Four digits for the years 0 to 9999, a sign and at least four digits for all others. -/
def yearText (year : Int) : String :=
  if 0 ≤ year ∧ year ≤ 9999 then padded 4 year.toNat
  else (if year < 0 then "-" else "+") ++ padded 4 year.natAbs

def fractionText (nanos : Nat) : String :=
  if nanos = 0 then ""
  else if nanos % 1000000 = 0 then "." ++ padded 3 (nanos / 1000000)
  else if nanos % 1000 = 0 then "." ++ padded 6 (nanos / 1000)
  else "." ++ padded 9 nanos

/-- The instant as RFC 3339. -/
def text (t : Instant) : String :=
  let date := Date.ofDay t.day
  let leap := 1000000000 ≤ t.nanos
  let second := t.second % 60 + if leap then 1 else 0
  let nanos := if leap then t.nanos - 1000000000 else t.nanos
  yearText date.year ++ "-" ++ padded 2 date.month ++ "-" ++ padded 2 date.day ++ "T"
    ++ padded 2 (t.second / 3600) ++ ":" ++ padded 2 (t.second / 60 % 60) ++ ":"
    ++ padded 2 second ++ fractionText nanos ++ "Z"

/-! ## Reading -/

/-- Unicode white space. -/
def isWhiteSpace (c : Char) : Bool :=
  let n := c.toNat
  (9 ≤ n && n ≤ 13) || n == 32 || n == 0x85 || n == 0xa0 || n == 0x1680
    || (0x2000 ≤ n && n ≤ 0x200a) || n == 0x2028 || n == 0x2029 || n == 0x202f || n == 0x205f
    || n == 0x3000

def skipSpace (cs : List Char) : List Char := cs.dropWhile isWhiteSpace

/-- A number of at least one and at most `width` digits behind blanks. -/
def number? (width : Nat) (cs : List Char) : Option (Nat × List Char) :=
  let cs := skipSpace cs
  let ds := (cs.take width).takeWhile Char.isDigit
  if ds.isEmpty then none else some (digitsValue ds, cs.drop ds.length)

/-- A year: up to four digits, or any number of them behind a sign. -/
def year? (cs : List Char) : Option (Int × List Char) :=
  let signed (cs : List Char) : Option (Nat × List Char) :=
    let ds := cs.takeWhile Char.isDigit
    if ds.isEmpty then none else some (digitsValue ds, cs.drop ds.length)
  match skipSpace cs with
  | '-' :: rest => (signed rest).map fun r => (-(r.1 : Int), r.2)
  | '+' :: rest => (signed rest).map fun r => ((r.1 : Int), r.2)
  | rest => (number? 4 rest).map fun r => ((r.1 : Int), r.2)

/-- Drops an expected mark behind blanks. -/
def mark? (mark : Char) (cs : List Char) : Option (List Char) :=
  match skipSpace cs with
  | c :: rest => if c = mark then some rest else none
  | [] => none

/-- The fraction of a second in nanoseconds; digits behind the ninth are dropped. -/
def fraction? : List Char → Option (Nat × List Char)
  | '.' :: rest =>
    let ds := rest.takeWhile Char.isDigit
    let kept := ds.take 9
    if ds.isEmpty then none
    else some (digitsValue kept * Nat.pow 10 (9 - kept.length), rest.drop ds.length)
  | cs => some (0, cs)

/-- A two-digit number. -/
def twoDigits? : List Char → Option (Nat × List Char)
  | a :: b :: rest =>
    if a.isDigit && b.isDigit then some (digitsValue [a, b], rest) else none
  | _ => none

/-- An offset from universal time in seconds: `Z`, `UTC`, or a signed hour and minute with colons
and blanks between them. -/
def offset? (cs : List Char) : Option (Int × List Char) :=
  let lower := cs.map Char.toLower
  if lower.take 3 = ['u', 't', 'c'] then some (0, cs.drop 3)
  else
    match cs with
    | [] => none
    | sign :: rest =>
      if sign = 'Z' ∨ sign = 'z' then some (0, rest)
      else if sign = '+' ∨ sign = '-' ∨ sign = '\u2212' then do
        let (hours, rest) ← twoDigits? rest
        let (minutes, rest) ← twoDigits? (rest.dropWhile fun c => c == ':' || isWhiteSpace c)
        let seconds : Int := hours * 3600 + minutes * 60
        if minutes < 60 ∧ seconds < 86400 then
          some (if sign = '+' then seconds else -seconds, rest)
        else none
      else none

/-- The instant that local date and time with an offset name, if all of it exists. -/
def ofLocal? (date : Date) (hour minute second nanos : Nat) (offset : Int) : Option Instant :=
  if date.isValid && Date.firstYear ≤ date.year && date.year ≤ Date.lastYear
      && hour < 24 && minute < 60 && second ≤ 60 && nanos < 1000000000 then
    let leap := second = 60
    let whole := if leap then 59 else second
    let unix := date.toDay * 86400 + (hour * 3600 + minute * 60 + whole : Nat) - offset
    let base := ofUnix unix 0
    let nanos := nanos + if leap then 1000000000 else 0
    if h : nanos < 2000000000 ∧ (1000000000 ≤ nanos → base.second % 60 = 59) then
      let t : Instant := { base with nanos := nanos, nanos_lt := h.1, leap_last := h.2 }
      if t.inCalendar then some t else none
    else none
  else none

/-- The instant that a text names. -/
def ofText? (s : String) : Option Instant := do
  let (year, cs) ← year? s.toList
  let cs ← mark? '-' cs
  let (month, cs) ← number? 2 cs
  let cs ← mark? '-' cs
  let (day, cs) ← number? 2 cs
  let cs ← match cs with
    | c :: rest => if c = 'T' ∨ c = 't' ∨ c = ' ' then some rest else none
    | [] => none
  let (hour, cs) ← number? 2 cs
  let cs ← mark? ':' cs
  let (minute, cs) ← number? 2 cs
  let cs ← mark? ':' cs
  let (second, cs) ← number? 2 cs
  let (nanos, cs) ← fraction? cs
  let (offset, cs) ← offset? (skipSpace cs)
  if (skipSpace cs).isEmpty then
    ofLocal? ⟨year, month, day⟩ hour minute second nanos offset
  else none

end Instant

end Workflow
