import Workflow.Number.Double
import Workflow.Text.Digits

/-!
# Workflow.Time.Span — lengths of time in nanoseconds

A span is a whole number of nanoseconds.  Timers run in whole milliseconds, so `Span.timerMs`
rounds up.  `Span.ofSeconds?` rounds a number of seconds to the nearest nanosecond.
-/

namespace Workflow

/-- A length of time. -/
structure Span where
  nanos : Nat
deriving DecidableEq, Inhabited, Repr

namespace Span

def ofMs (ms : Nat) : Span := ⟨ms * 1000000⟩

def ofSecs (secs : Nat) : Span := ⟨secs * 1000000000⟩

/-- Whole seconds. -/
def secs (s : Span) : Nat := s.nanos / 1000000000

/-- Nanoseconds beyond the whole seconds. -/
def subsecNanos (s : Span) : Nat := s.nanos % 1000000000

/-- The first whole millisecond at which a timer of this length has ended. -/
def timerMs (s : Span) : Nat := (s.nanos + 999999) / 1000000

instance : Max Span := ⟨fun a b => if a.nanos ≤ b.nanos then b else a⟩

instance : Min Span := ⟨fun a b => if a.nanos ≤ b.nanos then a else b⟩

/-- Seconds as a double: the whole seconds and the rest are converted apart and added. -/
def toSeconds (s : Span) : Double :=
  Double.addMagnitudes (Double.ofNat s.secs) (Double.ofRatio false s.subsecNanos 1000000000)

/-- The span nearest to a number of seconds, a tie going to the even nanosecond; none for a
negative number, for what is no finite number, and from `2 ^ 64` seconds on. -/
def ofSeconds? (x : Double) : Option Span :=
  if !x.isFinite || (x.isNegative && !x.isZero) then none
  else
    let (num, den) := x.magnitude
    let s : Span := ⟨Double.roundHalfEven (num * 1000000000) den⟩
    if s.secs < UInt64.size then some s else none

/-- A whole part and a fraction of `places` digits, without zeros at the end. -/
def decimalText (whole fraction places : Nat) : String :=
  let kept := ((Text.padded places fraction).toList.reverse.dropWhile (· == '0')).reverse
  if fraction = 0 then toString whole else toString whole ++ "." ++ String.ofList kept

/-- The span in the largest of the units s, ms, µs and ns that it reaches. -/
def shown (s : Span) : String :=
  if 1000000000 ≤ s.nanos then decimalText s.secs s.subsecNanos 9 ++ "s"
  else if 1000000 ≤ s.nanos then decimalText (s.nanos / 1000000) (s.nanos % 1000000) 6 ++ "ms"
  else if 1000 ≤ s.nanos then decimalText (s.nanos / 1000) (s.nanos % 1000) 3 ++ "µs"
  else toString s.nanos ++ "ns"

end Span

end Workflow
