/-!
# Workflow.Number.Double — binary64 numbers with exact arithmetic

A `Double` is its 64 bits.  Its value is read as `significand * 2 ^ scale`, every operation is
carried out on natural numbers, and `ofRatio` rounds the exact quotient once, to nearest with ties
to the even neighbour.
-/

namespace Workflow

/-- A binary64 number, held as its bits. -/
structure Double where
  bits : UInt64
deriving DecidableEq, Inhabited, Repr

namespace Double

/-- The sign bit. -/
def isNegative (x : Double) : Bool := Nat.pow 2 63 ≤ x.bits.toNat

/-- The biased exponent, eleven bits wide. -/
def exponentField (x : Double) : Nat := x.bits.toNat / Nat.pow 2 52 % Nat.pow 2 11

/-- The fraction, fifty-two bits wide. -/
def fraction (x : Double) : Nat := x.bits.toNat % Nat.pow 2 52

def isFinite (x : Double) : Bool := x.exponentField != 2047

def isNaN (x : Double) : Bool := x.exponentField == 2047 && x.fraction != 0

def isZero (x : Double) : Bool := x.exponentField == 0 && x.fraction == 0

/-- The integer part of the magnitude `significand * 2 ^ scale` of a finite number. -/
def significand (x : Double) : Nat :=
  if x.exponentField = 0 then x.fraction else x.fraction + Nat.pow 2 52

/-- The power of two in the magnitude `significand * 2 ^ scale` of a finite number. -/
def scale (x : Double) : Int := (max x.exponentField 1 : Int) - 1075

/-- The magnitude of a finite number as a fraction, numerator first. -/
def magnitude (x : Double) : Nat × Nat :=
  if 0 ≤ x.scale then (x.significand * Nat.pow 2 x.scale.toNat, 1)
  else (x.significand, Nat.pow 2 (-x.scale).toNat)

/-- The number with the given sign and the given low 63 bits. -/
def assemble (negative : Bool) (low : Nat) : Double :=
  ⟨UInt64.ofNat (low + if negative then Nat.pow 2 63 else 0)⟩

def infinity (negative : Bool) : Double := assemble negative (2047 * Nat.pow 2 52)

def nan : Double := assemble false (2047 * Nat.pow 2 52 + Nat.pow 2 51)

/-- `num / den` in units of `2 ^ scale`, as numerator and denominator. -/
def inUnits (num den : Nat) (scale : Int) : Nat × Nat :=
  if 0 ≤ scale then (num, den * Nat.pow 2 scale.toNat) else (num * Nat.pow 2 (-scale).toNat, den)

/-- The quotient rounded to the nearest integer, a tie going to the even one. -/
def roundHalfEven (num den : Nat) : Nat :=
  let q := num / den
  let twice := 2 * (num % den)
  if den < twice || (twice == den && q % 2 == 1) then q + 1 else q

/-- The scale at which `num / den` has fifty-three bits in front of the point, or the least one
there is. -/
def scaleOfRatio (num den : Nat) : Int :=
  let least : Int := max ((num.log2 : Int) - (den.log2 : Int) - 53) (-1074)
  let (n, d) := inUnits num den least
  if n / d < Nat.pow 2 53 then least else least + 1

/-- The double nearest to `num / den`, ties to even; infinity from half a unit above the largest
finite number on. -/
def ofRatio (negative : Bool) (num den : Nat) : Double :=
  if num = 0 then assemble negative 0
  else
    let scale := scaleOfRatio num den
    let (n, d) := inUnits num den scale
    let low := (scale + 1074).toNat * Nat.pow 2 52 + roundHalfEven n d
    if 2047 * Nat.pow 2 52 ≤ low then infinity negative else assemble negative low

def ofNat (n : Nat) : Double := ofRatio false n 1

def ofInt (n : Int) : Double := ofRatio (n < 0) n.natAbs 1

def one : Double := ofNat 1

/-- Whether the number is at least `1`; not-a-number is not. -/
def atLeastOne (x : Double) : Bool :=
  !x.isNaN && !x.isNegative && (!x.isFinite || x.magnitude.2 ≤ x.magnitude.1)

/-- Equality of values: both zeros are equal. -/
instance : BEq Double where
  beq x y := !x.isNaN && !y.isNaN && (x.bits == y.bits || (x.isZero && y.isZero))

/-- The product. -/
def mul (x y : Double) : Double :=
  let negative := x.isNegative != y.isNegative
  if x.isNaN || y.isNaN then nan
  else if x.isFinite && y.isFinite then
    ofRatio negative (x.magnitude.1 * y.magnitude.1) (x.magnitude.2 * y.magnitude.2)
  else if x.isZero || y.isZero then nan
  else infinity negative

/-- The quotient of two finite numbers, the second not zero. -/
def div (x y : Double) : Double :=
  ofRatio (x.isNegative != y.isNegative) (x.magnitude.1 * y.magnitude.2)
    (x.magnitude.2 * y.magnitude.1)

/-- `product * base ^ exponent` by repeated squaring, from the low bit of the exponent up. -/
def powFrom (product base : Double) (exponent : Nat) : Double :=
  if h : exponent = 0 then product
  else
    powFrom (if exponent % 2 = 1 then mul product base else product) (mul base base) (exponent / 2)
termination_by exponent
decreasing_by omega

/-- A power with a natural exponent. -/
def pow (base : Double) (exponent : Nat) : Double := powFrom one base exponent

/-- The sum of two finite numbers that are not negative. -/
def addMagnitudes (x y : Double) : Double :=
  let (a, b) := x.magnitude
  let (c, d) := y.magnitude
  ofRatio false (a * d + c * b) (b * d)

end Double

end Workflow
