import Mathlib.Tactic.Ring
import Workflow.Id

/-!
# Workflow.Proofs.Identifiers — the text of an identifier is read back

Twenty-six digits of base 32 hold 130 bits, so none of the 128 bits of an identifier is lost
(`ofUlid_ulid`).
-/

namespace Workflow.Id

variable {kind : IdKind}

theorem digitValue?_alphabet : ∀ d, d < 32 → digitValue? (alphabet.getD d '0') = some d := by
  decide

theorem alphabet_utf8Size : ∀ d, d < 32 → (alphabet.getD d '0').utf8Size = 1 := by decide

/-- The values of the lowest `n` base-32 digits of a number, most significant first. -/
def digitValues : Nat → Nat → List Nat
  | 0, _ => []
  | n + 1, value => value / Nat.pow 32 n % 32 :: digitValues n value

theorem mapM_digitValue? (n value : Nat) :
    (digits n value).mapM digitValue? = some (digitValues n value) := by
  induction n with
  | zero => rfl
  | succ n ih =>
    have first := digitValue?_alphabet (value / Nat.pow 32 n % 32) (Nat.mod_lt _ (by decide))
    rw [digits, List.mapM_cons, first, ih]
    rfl

/-- Digits read from the left carry what was read before to the higher places. -/
theorem foldl_digitValues (n value acc : Nat) :
    (digitValues n value).foldl (fun n d => 32 * n + d) acc = acc * 32 ^ n + value % 32 ^ n := by
  induction n generalizing acc with
  | zero => simp [digitValues, Nat.mod_one]
  | succ n ih =>
    rw [digitValues, List.foldl_cons, ih, Nat.pow_succ, Nat.mod_mul]
    simp only [Nat.pow_eq]
    ring

/-- Every digit is one byte. -/
theorem utf8ByteSize_digits (n value : Nat) :
    (String.ofList (digits n value)).utf8ByteSize = n := by
  induction n with
  | zero => rfl
  | succ n ih =>
    have first := alphabet_utf8Size (value / Nat.pow 32 n % 32) (Nat.mod_lt _ (by decide))
    rw [digits, String.ofList_cons, String.utf8ByteSize_append, String.utf8ByteSize_singleton,
      first, ih, Nat.add_comm]

/-- **The text of an identifier is read back.** -/
theorem ofUlid_ulid (id : Id kind) : ofUlid id.ulid = .ok id := by
  have fits : id.toNat < 2 ^ 128 := id.number.isLt
  have value : (digitValues width id.toNat).foldl (fun n d => 32 * n + d) 0 = id.toNat := by
    rw [foldl_digitValues, Nat.zero_mul, Nat.zero_add]
    exact Nat.mod_eq_of_lt (Nat.lt_of_lt_of_le fits (by decide))
  have same : (ofNat id.toNat : Id kind) = id := by
    obtain ⟨number⟩ := id
    simp only [ofNat, toNat, Id.mk.injEq]
    exact Fin.ext (Nat.mod_eq_of_lt number.isLt)
  rw [ofUlid, ulid, utf8ByteSize_digits, if_neg (by simp), String.toList_ofList, mapM_digitValue?]
  simp only [value, same]

end Workflow.Id
