import Workflow.Number.Double

/-!
# Workflow.Number.Decimal — the fewest digits that read back, without an exponent

`Double.shortest` finds the shortest decimal `digits * 10 ^ exponent` among the reals that round to
a number, and of two such the one nearer to it.  `Double.plain` writes it positionally.
-/

namespace Workflow

/-- How many decimal digits `n` has; zero has one. -/
def digitCount (n : Nat) : Nat := (Nat.toDigits 10 n).length

/-- The number `digits * 10 ^ exponent`. -/
structure Decimal where
  digits : Nat
  exponent : Int
deriving DecidableEq, Repr

namespace Decimal

/-- The same number without zeros at the end of its digits. -/
def trim : Nat → Decimal → Decimal
  | 0, x => x
  | fuel + 1, x =>
    if x.digits ≠ 0 ∧ x.digits % 10 = 0 then trim fuel ⟨x.digits / 10, x.exponent + 1⟩ else x

/-- Positional text without an exponent and without a point where none is needed. -/
def positional (x : Decimal) : String :=
  let text := toString x.digits
  if 0 ≤ x.exponent then text ++ String.ofList (List.replicate x.exponent.toNat '0')
  else
    let places := (-x.exponent).toNat
    let padded := List.replicate (places + 1 - text.length) '0' ++ text.toList
    String.ofList (padded.take (padded.length - places)) ++ "."
      ++ String.ofList (padded.drop (padded.length - places))

end Decimal

namespace Double

/-- The reals that round to a finite number: the number itself and the two ends, over one
denominator, and whether the ends belong to it. -/
structure RoundingInterval where
  value : Nat
  low : Nat
  high : Nat
  denominator : Nat
  closed : Bool

/-- The interval of a positive finite number.  Below a power of two the neighbour is half as far
away. -/
def roundingInterval (x : Double) : RoundingInterval :=
  let m := x.significand
  let down := if m = Nat.pow 2 52 ∧ 1 < x.exponentField then 1 else 2
  let unit := if 0 ≤ x.scale then Nat.pow 2 x.scale.toNat else 1
  let denominator := if 0 ≤ x.scale then 4 else 4 * Nat.pow 2 (-x.scale).toNat
  ⟨4 * m * unit, (4 * m - down) * unit, (4 * m + 2) * unit, denominator, m % 2 = 0⟩

/-- Whether `num / den` rounds to the number of the interval. -/
def RoundingInterval.holds (r : RoundingInterval) (num den : Nat) : Bool :=
  let here := num * r.denominator
  if r.closed then r.low * den ≤ here && here ≤ r.high * den
  else r.low * den < here && here < r.high * den

/-- The decimal exponent of the leading digit of a positive `num / den`. -/
def leadingExponent (num den : Nat) : Int :=
  if den ≤ num then (digitCount (num / den) : Int) - 1
  else
    let j := digitCount (den / num) - 1
    if den ≤ num * Nat.pow 10 j then -(j : Int) else -(j + 1 : Int)

/-- The better of the two neighbours of the value on the grid of `10 ^ exponent`, if one of them
rounds to the number. -/
def neighbour? (r : RoundingInterval) (exponent : Int) : Option Decimal :=
  let unit := if 0 ≤ exponent then Nat.pow 10 exponent.toNat else 1
  let den := if 0 ≤ exponent then 1 else Nat.pow 10 (-exponent).toNat
  let below := r.value * den / (r.denominator * unit)
  let gapBelow := r.value * den - below * unit * r.denominator
  let gapAbove := (below + 1) * unit * r.denominator - r.value * den
  match r.holds (below * unit) den, r.holds ((below + 1) * unit) den with
  | true, true => some ⟨if gapBelow ≤ gapAbove then below else below + 1, exponent⟩
  | true, false => some ⟨below, exponent⟩
  | false, true => some ⟨below + 1, exponent⟩
  | false, false => none

/-- The shortest decimal that rounds to a finite number that is not zero. -/
def shortest (x : Double) : Decimal :=
  let r := x.roundingInterval
  let lead := leadingExponent r.value r.denominator
  let found := (List.range 17).findSome? fun (k : Nat) => neighbour? r (lead - k)
  (found.getD ⟨0, 0⟩).trim 20

/-- Positional text of the fewest digits that read back; an integer has no point. -/
def plain (x : Double) : String :=
  if x.isNaN then "NaN"
  else
    let sign := if x.isNegative then "-" else ""
    if !x.isFinite then sign ++ "inf"
    else if x.isZero then sign ++ "0"
    else sign ++ x.shortest.positional

/-- The nearest integer as text, a tie going to the even one. -/
def rounded (x : Double) : String :=
  if x.isNaN then "NaN"
  else
    let sign := if x.isNegative then "-" else ""
    if !x.isFinite then sign ++ "inf"
    else sign ++ toString (roundHalfEven x.magnitude.1 x.magnitude.2)

/-- Sixteen hexadecimal digits of the bits. -/
def hex (x : Double) : String :=
  let digits := Nat.toDigits 16 x.bits.toNat
  String.ofList (List.replicate (16 - digits.length) '0' ++ digits)

end Double

end Workflow
