import Workflow.Number.Double
import Mathlib.Tactic.Linarith
import Mathlib.Tactic.Positivity
import Mathlib.Tactic.Ring

/-!
# Workflow.Proofs.Number.Rounding — rounding keeps the order of quotients

The bits of a rounded quotient grow with the quotient (`lowOfRatio_mono`): within one scale because
rounding to an integer does, and between two scales because every scale but the least has
fifty-three bits in front of the point.  The value of a double grows with its bits
(`assemble_mono`).  So the share `a / b` of two counts, computed in doubles, grows with `a`, is `1`
for `a = b`, and lies between `0` and `1` for `a ≤ b`.
-/

namespace Workflow.Double

/-! ### Rounding to an integer -/

theorem roundHalfEven_le (num den : Nat) : roundHalfEven num den ≤ num / den + 1 := by
  unfold roundHalfEven
  dsimp only
  split <;> omega

theorem le_roundHalfEven (num den : Nat) : num / den ≤ roundHalfEven num den := by
  unfold roundHalfEven
  dsimp only
  split <;> omega

section Quotients

variable {n₁ d₁ n₂ d₂ : Nat}

/-- Rounding to an integer keeps the order of quotients. -/
theorem roundHalfEven_mono (h₁ : 0 < d₁) (h₂ : 0 < d₂) (le : n₁ * d₂ ≤ n₂ * d₁) :
    roundHalfEven n₁ d₁ ≤ roundHalfEven n₂ d₂ := by
  have split₁ := Nat.div_add_mod n₁ d₁
  have split₂ := Nat.div_add_mod n₂ d₂
  have below₂ := Nat.mod_lt n₂ h₂
  have up₁ := roundHalfEven_le n₁ d₁
  have down₂ := le_roundHalfEven n₂ d₂
  rcases Nat.lt_trichotomy (n₁ / d₁) (n₂ / d₂) with less | same | greater
  · omega
  · -- the same integer part: what is left over decides
    have rest : n₁ % d₁ * d₂ ≤ n₂ % d₂ * d₁ := by
      rw [← split₁, ← split₂, same] at le
      nlinarith only [le]
    have carries (more : d₁ ≤ 2 * (n₁ % d₁)) : d₂ ≤ 2 * (n₂ % d₂) := by
      by_contra few
      have : d₁ * d₂ ≤ 2 * (n₁ % d₁) * d₂ := Nat.mul_le_mul_right _ more
      have : 2 * (n₂ % d₂) * d₁ < d₂ * d₁ := Nat.mul_lt_mul_of_pos_right (by omega) h₁
      nlinarith only [rest, this, ‹d₁ * d₂ ≤ 2 * (n₁ % d₁) * d₂›]
    have carries_strictly (more : d₁ < 2 * (n₁ % d₁)) : d₂ < 2 * (n₂ % d₂) := by
      by_contra few
      have : d₁ * d₂ < 2 * (n₁ % d₁) * d₂ := Nat.mul_lt_mul_of_pos_right more h₂
      have : 2 * (n₂ % d₂) * d₁ ≤ d₂ * d₁ := Nat.mul_le_mul_right _ (by omega)
      nlinarith only [rest, this, ‹d₁ * d₂ < 2 * (n₁ % d₁) * d₂›]
    unfold roundHalfEven
    simp only [same, Bool.or_eq_true, decide_eq_true_eq, Bool.and_eq_true, beq_iff_eq]
    split
    · rename_i up
      rw [if_pos]
      rcases up with more | ⟨half, odd⟩
      · exact .inl (carries_strictly more)
      · rcases Nat.lt_or_eq_of_le (carries half.ge) with more | half'
        · exact .inl more
        · exact .inr ⟨half'.symm, odd⟩
    · split <;> omega
  · -- the integer parts cannot be the other way round
    exfalso
    have low : d₁ * (n₂ / d₂ + 1) ≤ n₁ := by
      calc d₁ * (n₂ / d₂ + 1) ≤ d₁ * (n₁ / d₁) := Nat.mul_le_mul_left _ greater
        _ ≤ n₁ := Nat.mul_div_le n₁ d₁
    have high : n₂ < d₂ * (n₂ / d₂ + 1) := by
      rw [Nat.mul_succ]
      omega
    have := Nat.mul_le_mul_right d₂ low
    have := Nat.mul_lt_mul_of_pos_right high h₁
    nlinarith only [le, this, ‹d₁ * (n₂ / d₂ + 1) * d₂ ≤ n₁ * d₂›]

/-- Quotients that are the same round to the same integer. -/
theorem roundHalfEven_congr (h₁ : 0 < d₁) (h₂ : 0 < d₂) (same : n₁ * d₂ = n₂ * d₁) :
    roundHalfEven n₁ d₁ = roundHalfEven n₂ d₂ :=
  Nat.le_antisymm (roundHalfEven_mono h₁ h₂ same.le) (roundHalfEven_mono h₂ h₁ same.ge)

/-- Quotients that are the same have the same integer part. -/
theorem div_congr (h₁ : 0 < d₁) (h₂ : 0 < d₂) (same : n₁ * d₂ = n₂ * d₁) :
    n₁ / d₁ = n₂ / d₂ := by
  rw [← Nat.mul_div_mul_right n₁ d₁ h₂, ← Nat.mul_div_mul_right n₂ d₂ h₁, same, Nat.mul_comm d₁]

end Quotients

/-! ### The scale of a quotient -/

/-- How many of the least positive doubles make up one. -/
def leastPerOne : Nat := 2 ^ 1074

theorem two_pow_least (e : Nat) : 2 ^ (e + 1074) = 2 ^ e * leastPerOne := pow_add 2 e 1074

theorem leastPerOne_pos : 0 < leastPerOne := by
  unfold leastPerOne
  positivity

/-- How often the least scale is doubled to get at a scale. -/
abbrev doublings (scale : Int) : Nat := (scale + 1074).toNat

variable {num den : Nat}

theorem inUnits_pos (hd : 0 < den) (scale : Int) : 0 < (inUnits num den scale).2 := by
  unfold inUnits
  simp only [Nat.pow_eq]
  split <;> dsimp only <;> positivity

/-- In units of a scale a quotient is what it is in units of the least one, its denominator doubled
as often as the scale is. -/
theorem inUnits_cross {scale : Int} (least : -1074 ≤ scale) :
    (inUnits num den scale).1 * (den * 2 ^ doublings scale) =
      num * leastPerOne * (inUnits num den scale).2 := by
  unfold inUnits
  simp only [Nat.pow_eq]
  split
  · obtain ⟨s, rfl⟩ := Int.eq_ofNat_of_zero_le ‹_›
    have twice : 2 ^ doublings s = 2 ^ s * leastPerOne := by
      rw [leastPerOne, ← pow_add]
      congr 1
    rw [Int.toNat_natCast, twice]
    ring
  · have twice : 2 ^ (-scale).toNat * 2 ^ doublings scale = leastPerOne := by
      rw [leastPerOne, ← pow_add]
      congr 1
      unfold doublings
      omega
    rw [← twice]
    ring

theorem div_inUnits (hd : 0 < den) {scale : Int} (least : -1074 ≤ scale) :
    (inUnits num den scale).1 / (inUnits num den scale).2 =
      num * leastPerOne / (den * 2 ^ doublings scale) :=
  div_congr (inUnits_pos hd scale) (by positivity) (inUnits_cross least)

theorem roundHalfEven_inUnits (hd : 0 < den) {scale : Int} (least : -1074 ≤ scale) :
    roundHalfEven (inUnits num den scale).1 (inUnits num den scale).2 =
      roundHalfEven (num * leastPerOne) (den * 2 ^ doublings scale) :=
  roundHalfEven_congr (inUnits_pos hd scale) (by positivity) (inUnits_cross least)

/-- The scale at which the choice of a scale starts. -/
def firstScale (num den : Nat) : Int := max ((num.log2 : Int) - (den.log2 : Int) - 53) (-1074)

theorem firstScale_least : -1074 ≤ firstScale num den := le_max_right _ _

/-- The choice goes one up if more than fifty-three bits are in front of the point. -/
theorem scaleOfRatio_eq (hd : 0 < den) : scaleOfRatio num den =
    if num * leastPerOne < 2 ^ 53 * (den * 2 ^ doublings (firstScale num den))
    then firstScale num den else firstScale num den + 1 := by
  have some_ : 0 < den * 2 ^ doublings (firstScale num den) := by positivity
  simp only [← Nat.div_lt_iff_lt_mul some_, ← div_inUnits hd firstScale_least]
  rfl

theorem scaleOfRatio_least (hd : 0 < den) : -1074 ≤ scaleOfRatio num den := by
  have least : -1074 ≤ firstScale num den := firstScale_least
  rw [scaleOfRatio_eq hd]
  split <;> omega

theorem doublings_succ {scale : Int} (least : -1074 ≤ scale) :
    doublings (scale + 1) = doublings scale + 1 := by
  unfold doublings
  omega

/-- The choice starts where the quotient has at most fifty-four bits in front of the point. -/
theorem firstScale_few (hd : 0 < den) :
    num * leastPerOne < 2 ^ 54 * (den * 2 ^ doublings (firstScale num den)) := by
  have above : num < 2 ^ (num.log2 + 1) := Nat.lt_log2_self
  have below : 2 ^ den.log2 ≤ den := Nat.log2_self_le hd.ne'
  have exponents : num.log2 + 1 + 1074 ≤ 54 + (den.log2 + doublings (firstScale num den)) := by
    unfold doublings firstScale
    omega
  calc num * leastPerOne
      < 2 ^ (num.log2 + 1) * leastPerOne := Nat.mul_lt_mul_of_pos_right above leastPerOne_pos
    _ = 2 ^ (num.log2 + 1 + 1074) := (two_pow_least _).symm
    _ ≤ 2 ^ (54 + (den.log2 + doublings (firstScale num den))) :=
      Nat.pow_le_pow_right (by decide) exponents
    _ = 2 ^ 54 * (2 ^ den.log2 * 2 ^ doublings (firstScale num den)) := by
      rw [pow_add 2 54, pow_add 2 den.log2]
    _ ≤ 2 ^ 54 * (den * 2 ^ doublings (firstScale num den)) := by gcongr

/-- Above the least scale the choice starts where it has at least fifty-three. -/
theorem firstScale_many (hn : num ≠ 0) (doubled : 0 < doublings (firstScale num den)) :
    2 ^ 52 * (den * 2 ^ doublings (firstScale num den)) ≤ num * leastPerOne := by
  have below : 2 ^ num.log2 ≤ num := Nat.log2_self_le hn
  have above : den < 2 ^ (den.log2 + 1) := Nat.lt_log2_self
  have exponents : 52 + ((den.log2 + 1) + doublings (firstScale num den)) = num.log2 + 1074 := by
    unfold doublings firstScale at *
    omega
  calc 2 ^ 52 * (den * 2 ^ doublings (firstScale num den))
      ≤ 2 ^ 52 * (2 ^ (den.log2 + 1) * 2 ^ doublings (firstScale num den)) := by gcongr
    _ = 2 ^ (52 + ((den.log2 + 1) + doublings (firstScale num den))) := by
      rw [pow_add 2 52, pow_add 2 (den.log2 + 1)]
    _ = 2 ^ num.log2 * leastPerOne := by rw [exponents, two_pow_least]
    _ ≤ num * leastPerOne := Nat.mul_le_mul_right _ below

/-- At the scale that is chosen a quotient has at most fifty-three bits in front of the point. -/
theorem scaleOfRatio_few (hd : 0 < den) :
    num * leastPerOne < 2 ^ 53 * (den * 2 ^ doublings (scaleOfRatio num den)) := by
  rw [scaleOfRatio_eq hd]
  split
  · assumption
  · calc num * leastPerOne
        < 2 ^ 54 * (den * 2 ^ doublings (firstScale num den)) := firstScale_few hd
      _ = 2 ^ 53 * (den * 2 ^ doublings (firstScale num den + 1)) := by
        rw [doublings_succ firstScale_least]
        ring

/-- Above the least scale it has exactly fifty-three. -/
theorem scaleOfRatio_many (hn : num ≠ 0) (hd : 0 < den)
    (doubled : 0 < doublings (scaleOfRatio num den)) :
    2 ^ 52 * (den * 2 ^ doublings (scaleOfRatio num den)) ≤ num * leastPerOne := by
  rw [scaleOfRatio_eq hd] at doubled ⊢
  split
  · rename_i few
    rw [if_pos few] at doubled
    exact firstScale_many hn doubled
  · rename_i many
    calc 2 ^ 52 * (den * 2 ^ doublings (firstScale num den + 1))
        = 2 ^ 53 * (den * 2 ^ doublings (firstScale num den)) := by
          rw [doublings_succ firstScale_least]
          ring
      _ ≤ num * leastPerOne := Nat.le_of_not_lt many

/-! ### The bits of a quotient -/

/-- The bits of a rounded quotient, without its sign. -/
def lowOfRatio (num den : Nat) : Nat :=
  if num = 0 then 0
  else
    min (2047 * 2 ^ 52) (doublings (scaleOfRatio num den) * 2 ^ 52 +
      roundHalfEven (num * leastPerOne) (den * 2 ^ doublings (scaleOfRatio num den)))

theorem ofRatio_eq (hd : 0 < den) (negative : Bool) :
    ofRatio negative num den = assemble negative (lowOfRatio num den) := by
  unfold ofRatio lowOfRatio infinity
  by_cases hn : num = 0
  · rw [if_pos hn, if_pos hn]
  · rw [if_neg hn, if_neg hn, ← roundHalfEven_inUnits hd (scaleOfRatio_least hd)]
    dsimp only
    generalize roundHalfEven _ _ = rounded
    simp only [Nat.pow_eq, doublings]
    split
    · rw [Nat.min_eq_left ‹_›]
    · rw [Nat.min_eq_right (by omega)]

theorem lowOfRatio_le (num den : Nat) : lowOfRatio num den ≤ 2047 * 2 ^ 52 := by
  unfold lowOfRatio
  split
  · omega
  · exact Nat.min_le_left _ _

section Quotients

variable {n₁ d₁ n₂ d₂ : Nat}

/-- **The bits of a quotient grow with the quotient.** -/
theorem lowOfRatio_mono (h₁ : 0 < d₁) (h₂ : 0 < d₂) (le : n₁ * d₂ ≤ n₂ * d₁) :
    lowOfRatio n₁ d₁ ≤ lowOfRatio n₂ d₂ := by
  unfold lowOfRatio
  by_cases hn₁ : n₁ = 0
  · rw [if_pos hn₁]
    exact Nat.zero_le _
  have hn₂ : n₂ ≠ 0 := by
    rintro rfl
    have : 0 < n₁ * d₂ := Nat.mul_pos (Nat.pos_of_ne_zero hn₁) h₂
    omega
  rw [if_neg hn₁, if_neg hn₂]
  have few₁ : n₁ * leastPerOne < 2 ^ 53 * (d₁ * 2 ^ doublings (scaleOfRatio n₁ d₁)) :=
    scaleOfRatio_few h₁
  have few₂ : n₂ * leastPerOne < 2 ^ 53 * (d₂ * 2 ^ doublings (scaleOfRatio n₂ d₂)) :=
    scaleOfRatio_few h₂
  have many₁ := scaleOfRatio_many hn₁ h₁
  have many₂ := scaleOfRatio_many hn₂ h₂
  generalize doublings (scaleOfRatio n₁ d₁) = t₁ at *
  generalize doublings (scaleOfRatio n₂ d₂) = t₂ at *
  have le : n₁ * leastPerOne * d₂ ≤ n₂ * leastPerOne * d₁ := by
    calc n₁ * leastPerOne * d₂ = n₁ * d₂ * leastPerOne := by ring
      _ ≤ n₂ * d₁ * leastPerOne := Nat.mul_le_mul_right _ le
      _ = n₂ * leastPerOne * d₁ := by ring
  generalize n₁ * leastPerOne = N₁ at *
  generalize n₂ * leastPerOne = N₂ at *
  have some₁ : 0 < d₁ * 2 ^ t₁ := by positivity
  have some₂ : 0 < d₂ * 2 ^ t₂ := by positivity
  apply min_le_min_left
  rcases Nat.lt_trichotomy t₁ t₂ with less | rfl | greater
  · -- the larger scale leaves room for what rounding adds at the smaller one
    have up := roundHalfEven_le N₁ (d₁ * 2 ^ t₁)
    have few := (Nat.div_lt_iff_lt_mul some₁).2 few₁
    have down := le_roundHalfEven N₂ (d₂ * 2 ^ t₂)
    have many := (Nat.le_div_iff_mul_le some₂).2 (many₂ (by omega))
    omega
  · have order : N₁ * (d₂ * 2 ^ t₁) ≤ N₂ * (d₁ * 2 ^ t₁) := by
      calc N₁ * (d₂ * 2 ^ t₁) = N₁ * d₂ * 2 ^ t₁ := by ring
        _ ≤ N₂ * d₁ * 2 ^ t₁ := Nat.mul_le_mul_right _ le
        _ = N₂ * (d₁ * 2 ^ t₁) := by ring
    have round := roundHalfEven_mono some₁ some₂ order
    omega
  · -- a larger scale is that of a larger quotient
    exfalso
    have raised : 2 ^ (t₂ + 1) ≤ 2 ^ t₁ := Nat.pow_le_pow_right (by decide) greater
    have : N₁ * d₂ < N₁ * d₂ := by
      calc N₁ * d₂ ≤ N₂ * d₁ := le
        _ < 2 ^ 53 * (d₂ * 2 ^ t₂) * d₁ := Nat.mul_lt_mul_of_pos_right few₂ h₁
        _ = 2 ^ 52 * (d₁ * 2 ^ (t₂ + 1)) * d₂ := by ring
        _ ≤ 2 ^ 52 * (d₁ * 2 ^ t₁) * d₂ := by gcongr
        _ ≤ N₁ * d₂ := Nat.mul_le_mul_right _ (many₁ (by omega))
    omega

/-- Quotients that are the same round to the same double. -/
theorem ofRatio_congr (h₁ : 0 < d₁) (h₂ : 0 < d₂) (same : n₁ * d₂ = n₂ * d₁) (negative : Bool) :
    ofRatio negative n₁ d₁ = ofRatio negative n₂ d₂ := by
  rw [ofRatio_eq h₁, ofRatio_eq h₂, Nat.le_antisymm (lowOfRatio_mono h₁ h₂ same.le)
    (lowOfRatio_mono h₂ h₁ same.ge)]

end Quotients

/-! ### The value of a double -/

/-- How many of the least positive doubles the double with these bits and no sign is. -/
def leastsIn (low : Nat) : Nat :=
  if low < 2 ^ 52 then low else (low % 2 ^ 52 + 2 ^ 52) * 2 ^ (low / 2 ^ 52 - 1)

theorem leastsIn_mono {low₁ low₂ : Nat} (le : low₁ ≤ low₂) : leastsIn low₁ ≤ leastsIn low₂ := by
  unfold leastsIn
  by_cases small₁ : low₁ < 2 ^ 52
  · -- a small one is itself, and the factor of the other is one at least
    rw [if_pos small₁]
    split
    · exact le
    · calc low₁ ≤ (low₂ % 2 ^ 52 + 2 ^ 52) * 1 := by omega
        _ ≤ (low₂ % 2 ^ 52 + 2 ^ 52) * 2 ^ (low₂ / 2 ^ 52 - 1) := by
          gcongr
          exact Nat.one_le_two_pow
  · rw [if_neg small₁, if_neg (by omega)]
    rcases Nat.lt_or_ge (low₁ / 2 ^ 52) (low₂ / 2 ^ 52) with less | same
    · -- the exponents differ, so a power of two lies in between
      have raised : low₂ / 2 ^ 52 - 1 = low₂ / 2 ^ 52 - 2 + 1 := by omega
      calc (low₁ % 2 ^ 52 + 2 ^ 52) * 2 ^ (low₁ / 2 ^ 52 - 1)
          ≤ 2 ^ 53 * 2 ^ (low₂ / 2 ^ 52 - 2) := by
            apply Nat.mul_le_mul
            · omega
            · exact Nat.pow_le_pow_right (by decide) (by omega)
        _ = 2 ^ 52 * 2 ^ (low₂ / 2 ^ 52 - 1) := by
          rw [raised]
          ring
        _ ≤ (low₂ % 2 ^ 52 + 2 ^ 52) * 2 ^ (low₂ / 2 ^ 52 - 1) := by
          gcongr
          omega
    · -- the exponents are the same, and the fractions decide
      have same : low₁ / 2 ^ 52 = low₂ / 2 ^ 52 := by omega
      rw [same]
      gcongr
      omega

section Positive

variable {low : Nat} (inside : low < 2 ^ 63)
include inside

theorem bits_assemble : (assemble false low).bits.toNat = low := by
  show (UInt64.ofNat (low + 0)).toNat = low
  rw [UInt64.toNat_ofNat']
  omega

theorem isNegative_assemble : (assemble false low).isNegative = false := by
  unfold isNegative
  rw [bits_assemble inside]
  simpa using inside

theorem significand_assemble : (assemble false low).significand =
    if low < 2 ^ 52 then low else low % 2 ^ 52 + 2 ^ 52 := by
  unfold significand fraction exponentField
  rw [bits_assemble inside]
  simp only [Nat.pow_eq]
  split <;> split <;> omega

theorem scale_assemble :
    (assemble false low).scale = (max (low / 2 ^ 52) 1 : Nat) - (1075 : Int) := by
  have exponent : low / 2 ^ 52 % 2 ^ 11 = low / 2 ^ 52 := by omega
  unfold scale exponentField
  rw [bits_assemble inside]
  simp only [Nat.pow_eq, exponent]
  omega

/-- The value of a double in terms of the least positive one. -/
theorem magnitude_assemble : (assemble false low).magnitude.1 * leastPerOne =
    leastsIn low * (assemble false low).magnitude.2 := by
  have value : leastsIn low =
      (assemble false low).significand * 2 ^ (max (low / 2 ^ 52) 1 - 1) := by
    unfold leastsIn
    rw [significand_assemble inside]
    split
    · -- subnormal
      have least : max (low / 2 ^ 52) 1 = 1 := by omega
      rw [least, Nat.sub_self, pow_zero, Nat.mul_one]
    · have normal : max (low / 2 ^ 52) 1 = low / 2 ^ 52 := by omega
      rw [normal]
  have one_le : 1 ≤ max (low / 2 ^ 52) 1 := le_max_right _ _
  rw [value]
  unfold magnitude
  rw [scale_assemble inside]
  generalize max (low / 2 ^ 52) 1 = e at *
  simp only [Nat.pow_eq]
  split
  · have twice : 2 ^ ((e : Int) - 1075).toNat * leastPerOne = 2 ^ (e - 1) := by
      rw [leastPerOne, ← pow_add]
      congr 1
      omega
    rw [← twice]
    ring
  · have twice : 2 ^ (e - 1) * 2 ^ (-((e : Int) - 1075)).toNat = leastPerOne := by
      rw [leastPerOne, ← pow_add]
      congr 1
      omega
    rw [← twice]
    ring

end Positive

theorem magnitude_pos (x : Double) : 0 < x.magnitude.2 := by
  unfold magnitude
  simp only [Nat.pow_eq]
  split <;> dsimp only <;> positivity

/-- The order of values, of numbers that are not negative. -/
def AtMost (x y : Double) : Prop :=
  x.magnitude.1 * y.magnitude.2 ≤ y.magnitude.1 * x.magnitude.2

theorem AtMost.refl (x : Double) : x.AtMost x := Nat.le_refl _

/-- **The value of a double grows with its bits.** -/
theorem assemble_mono {low₁ low₂ : Nat} (inside : low₂ < 2 ^ 63) (le : low₁ ≤ low₂) :
    (assemble false low₁).AtMost (assemble false low₂) := by
  unfold AtMost
  have inside₁ : low₁ < 2 ^ 63 := by omega
  have value₁ := magnitude_assemble inside₁
  have value₂ := magnitude_assemble inside
  generalize (assemble false low₁).magnitude = m₁ at *
  generalize (assemble false low₂).magnitude = m₂ at *
  refine Nat.le_of_mul_le_mul_right ?_ leastPerOne_pos
  calc m₁.1 * m₂.2 * leastPerOne
      = m₁.1 * leastPerOne * m₂.2 := by ring
    _ = leastsIn low₁ * (m₁.2 * m₂.2) := by rw [value₁, Nat.mul_assoc]
    _ ≤ leastsIn low₂ * (m₁.2 * m₂.2) := Nat.mul_le_mul_right _ (leastsIn_mono le)
    _ = m₂.1 * leastPerOne * m₁.2 := by
      rw [value₂]
      ring
    _ = m₂.1 * m₁.2 * leastPerOne := by ring

theorem magnitude_one : one.magnitude = (2 ^ 52, 2 ^ 52) := by decide

/-! ### Shares -/

theorem lowOfRatio_lt (num den : Nat) : lowOfRatio num den < 2 ^ 63 := by
  have := lowOfRatio_le num den
  omega

/-- Quotients keep their order when they are rounded. -/
theorem ofRatio_mono {n₁ d₁ n₂ d₂ : Nat} (h₁ : 0 < d₁) (h₂ : 0 < d₂) (le : n₁ * d₂ ≤ n₂ * d₁) :
    (ofRatio false n₁ d₁).AtMost (ofRatio false n₂ d₂) := by
  rw [ofRatio_eq h₁, ofRatio_eq h₂]
  exact assemble_mono (lowOfRatio_lt _ _) (lowOfRatio_mono h₁ h₂ le)

theorem isNegative_ofNat (n : Nat) : (ofNat n).isNegative = false := by
  rw [ofNat, ofRatio_eq Nat.one_pos]
  exact isNegative_assemble (lowOfRatio_lt _ _)

theorem ofNat_mono {a b : Nat} (le : a ≤ b) : (ofNat a).AtMost (ofNat b) :=
  ofRatio_mono Nat.one_pos Nat.one_pos (Nat.mul_le_mul_right 1 le)

theorem magnitude_ofNat_pos {n : Nat} (h : 0 < n) : 0 < (ofNat n).magnitude.1 := by
  have least : one.AtMost (ofNat n) := ofNat_mono h
  have some_ := magnitude_pos (ofNat n)
  rw [AtMost, magnitude_one] at least
  omega

/-- The share of a count in another. -/
theorem div_ofNat (a b : Nat) : (ofNat a).div (ofNat b) = ofRatio false
    ((ofNat a).magnitude.1 * (ofNat b).magnitude.2)
    ((ofNat a).magnitude.2 * (ofNat b).magnitude.1) := by
  rw [div, isNegative_ofNat, isNegative_ofNat]
  rfl

section Shares

variable {a b total : Nat} (some_ : 0 < total)
include some_

private theorem share_pos (a : Nat) : 0 < (ofNat a).magnitude.2 * (ofNat total).magnitude.1 :=
  Nat.mul_pos (magnitude_pos _) (magnitude_ofNat_pos some_)

theorem isNegative_share (a : Nat) : ((ofNat a).div (ofNat total)).isNegative = false := by
  rw [div_ofNat, ofRatio_eq (share_pos some_ a)]
  exact isNegative_assemble (lowOfRatio_lt _ _)

/-- Shares of one count keep the order of what they are shares of. -/
theorem share_mono (le : a ≤ b) :
    ((ofNat a).div (ofNat total)).AtMost ((ofNat b).div (ofNat total)) := by
  rw [div_ofNat, div_ofNat]
  refine ofRatio_mono (share_pos some_ a) (share_pos some_ b) ?_
  have order := ofNat_mono le
  unfold AtMost at order
  generalize (ofNat a).magnitude = m₁ at *
  generalize (ofNat b).magnitude = m₂ at *
  generalize (ofNat total).magnitude = m at *
  calc m₁.1 * m.2 * (m₂.2 * m.1) = m₁.1 * m₂.2 * (m.1 * m.2) := by ring
    _ ≤ m₂.1 * m₁.2 * (m.1 * m.2) := Nat.mul_le_mul_right _ order
    _ = m₂.1 * m.2 * (m₁.2 * m.1) := by ring

/-- The share of a count in itself is `1`. -/
theorem share_self : (ofNat total).div (ofNat total) = one := by
  rw [div_ofNat]
  show _ = ofRatio false 1 1
  refine ofRatio_congr (share_pos some_ total) Nat.one_pos ?_ false
  rw [Nat.mul_one, Nat.one_mul, Nat.mul_comm]

/-- A share is not above `1`. -/
theorem share_le_one (le : a ≤ total) : ((ofNat a).div (ofNat total)).AtMost one := by
  have order := share_mono some_ le
  rwa [share_self some_] at order

end Shares

end Workflow.Double
