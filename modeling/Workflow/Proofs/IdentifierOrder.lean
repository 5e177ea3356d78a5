import Workflow.Proofs.Identifiers
import Workflow.Time.Instant

/-!
# Workflow.Proofs.IdentifierOrder — identifiers sort by time

An identifier puts a high part above a low one twice: in its number the time above the random part,
in its text each digit above those behind it.  Numbers of two parts are in the order of their high
parts, and where these agree in that of their low parts (`parts_lt_iff`).  So identifiers are in the
order of the times they were drawn at (`generate_lt_iff`); and as the alphabet is in the order of its
bytes, their texts are in the order of the identifiers (`bytes_text_lt_iff`).
-/

namespace Workflow

/-! ## The bytes of a text -/

namespace Text

/-- The bytes of a text.  Texts are compared by them: the first that differ decide, and a beginning
is in front of the whole. -/
def bytes (s : String) : List UInt8 := s.toByteArray.data.toList

theorem bytes_append (s t : String) : bytes (s ++ t) = bytes s ++ bytes t := by
  simp only [bytes, String.toByteArray_append, ByteArray.data_append, Array.toList_append]

theorem bytes_singleton {c : Char} (one : c.utf8Size = 1) :
    bytes (String.singleton c) = [c.val.toUInt8] := by
  rw [bytes, String.toByteArray_singleton, List.utf8Encode_singleton,
    String.utf8EncodeChar_eq_singleton one, List.toList_data_toByteArray]

/-- Behind a common front the rest decides. -/
theorem append_lt_append_iff (front s t : List UInt8) : front ++ s < front ++ t ↔ s < t := by
  induction front with
  | nil => rfl
  | cons b front ih => rw [List.cons_append, List.cons_append, List.cons_lt_cons_self, ih]

end Text

namespace Id

open Text (bytes)

variable {kind : IdKind}

/-! ## Numbers of two parts -/

/-- Numbers made of a high and a low part are in the order of their high parts, and where these
agree in that of their low parts. -/
theorem parts_lt_iff {base low low' : Nat} (fits : low < base) (fits' : low' < base)
    (high high' : Nat) :
    low + base * high < low' + base * high' ↔ high < high' ∨ high = high' ∧ low < low' := by
  rcases Nat.lt_trichotomy high high' with less | rfl | greater
  · have above : base * (high + 1) ≤ base * high' := Nat.mul_le_mul_left base less
    rw [Nat.mul_succ] at above
    omega
  · omega
  · have above : base * (high' + 1) ≤ base * high := Nat.mul_le_mul_left base greater
    rw [Nat.mul_succ] at above
    omega

/-! ## The order of identifiers -/

theorem eq_of_toNat {a b : Id kind} (same : a.toNat = b.toNat) : a = b := by
  obtain ⟨number⟩ := a
  obtain ⟨number'⟩ := b
  rw [Id.mk.injEq]
  exact Fin.ext same

theorem toNat_ofNat (n : Nat) : (ofNat n : Id kind).toNat = n % 2 ^ 128 := rfl

theorem toNat_ofParts (ms random : Nat) :
    (ofParts ms random : Id kind).toNat = random % 2 ^ 80 + 2 ^ 80 * (ms % 2 ^ 48) := by
  rw [ofParts, toNat_ofNat]
  simp only [Nat.pow_eq]
  omega

/-- The low 48 bits of the times decide, and where these agree the low 80 bits of the random
parts. -/
theorem ofParts_lt_iff (ms ms' random random' : Nat) :
    (ofParts ms random : Id kind) < ofParts ms' random' ↔
      ms % 2 ^ 48 < ms' % 2 ^ 48 ∨
        ms % 2 ^ 48 = ms' % 2 ^ 48 ∧ random % 2 ^ 80 < random' % 2 ^ 80 := by
  show (ofParts ms random : Id kind).toNat < (ofParts ms' random' : Id kind).toNat ↔ _
  rw [toNat_ofParts, toNat_ofParts]
  exact parts_lt_iff (Nat.mod_lt _ (by decide)) (Nat.mod_lt _ (by decide)) _ _

/-- A 64-bit word keeps the low 48 bits of a time, also of one before 1970. -/
theorem low_bits_word (ms : Int) : ((ms % UInt64.size).toNat % 2 ^ 48 : Nat) = ms % 2 ^ 48 := by
  rw [show (UInt64.size : Int) = 2 ^ 64 from rfl]
  omega

/-- Identifiers are in the order of the times they were drawn at, as far as 48 bits hold them. -/
theorem generate_lt_iff (ms ms' : Int) (random random' : Nat) :
    (generate ms random : Id kind) < generate ms' random' ↔
      ms % 2 ^ 48 < ms' % 2 ^ 48 ∨
        ms % 2 ^ 48 = ms' % 2 ^ 48 ∧ random % 2 ^ 80 < random' % 2 ^ 80 := by
  have word := low_bits_word ms
  have word' := low_bits_word ms'
  rw [generate, generate, ofParts_lt_iff]
  omega

/-- The millisecond before 1970 is taken for the last that 48 bits hold. -/
example : (generate 0 0 : FlowId) < generate (-1) 0 := by decide

/-! ## The order of their texts -/

/-- The byte that writes a digit. -/
def digitByte (d : Nat) : UInt8 := (alphabet.getD d '0').val.toUInt8

/-- The alphabet is in the order of its bytes. -/
theorem digitByte_lt_iff : ∀ d < 32, ∀ e < 32, digitByte d < digitByte e ↔ d < e := by decide

theorem digitByte_eq_iff : ∀ d < 32, ∀ e < 32, digitByte d = digitByte e ↔ d = e := by decide

theorem bytes_digits_succ (n value : Nat) :
    bytes (String.ofList (digits (n + 1) value)) =
      digitByte (value / 32 ^ n % 32) :: bytes (String.ofList (digits n value)) := by
  have one := alphabet_utf8Size (value / 32 ^ n % 32) (Nat.mod_lt _ (by decide))
  rw [digits, String.ofList_cons, Text.bytes_append]
  exact congrArg (· ++ _) (Text.bytes_singleton one)

/-- As many digits of two numbers are in the order of what they write. -/
theorem bytes_digits_lt_iff (n value value' : Nat) :
    bytes (String.ofList (digits n value)) < bytes (String.ofList (digits n value')) ↔
      value % 32 ^ n < value' % 32 ^ n := by
  induction n with
  | zero => simp [digits, Nat.mod_one]
  | succ n ih =>
    have digit : value / 32 ^ n % 32 < 32 := Nat.mod_lt _ (by decide)
    have digit' : value' / 32 ^ n % 32 < 32 := Nat.mod_lt _ (by decide)
    have rest : value % 32 ^ n < 32 ^ n := Nat.mod_lt _ (Nat.pow_pos (by decide))
    have rest' : value' % 32 ^ n < 32 ^ n := Nat.mod_lt _ (Nat.pow_pos (by decide))
    -- the first digit writes the high part, the others the low one
    rw [bytes_digits_succ, bytes_digits_succ, List.cons_lt_cons_iff, ih,
      digitByte_lt_iff _ digit _ digit', digitByte_eq_iff _ digit _ digit', Nat.pow_succ, Nat.mod_mul,
      Nat.mod_mul, parts_lt_iff rest rest']

/-- Texts of one kind are in the order of the identifiers. -/
theorem bytes_text_lt_iff (a b : Id kind) : bytes a.text < bytes b.text ↔ a < b := by
  have whole (id : Id kind) : id.toNat % 32 ^ width = id.toNat :=
    Nat.mod_eq_of_lt (Nat.lt_of_lt_of_le id.number.isLt (by decide))
  rw [text, text, Text.bytes_append, Text.bytes_append, Text.append_lt_append_iff, ulid, ulid,
    bytes_digits_lt_iff, whole, whole]
  rfl

theorem bytes_text_eq_iff (a b : Id kind) : bytes a.text = bytes b.text ↔ a = b := by
  refine ⟨fun same => eq_of_toNat ?_, congrArg fun id : Id kind => bytes id.text⟩
  -- neither text is in front of the other, so neither number is less
  have first : ¬ a.toNat < b.toNat := mt (bytes_text_lt_iff a b).2 (same ▸ List.lt_irrefl _)
  have second : ¬ b.toNat < a.toNat := mt (bytes_text_lt_iff b a).2 (same ▸ List.lt_irrefl _)
  omega

/-- **Identifiers sort by time.**  Of two instants whose milliseconds from 1970 fit into 48 bits,
the earlier one gives the lesser identifier and the text in front, whatever the random parts are.
The texts of any two identifiers of one kind are in the order of these. -/
theorem sorted_by_time :
    (∀ (t t' : Instant) (random random' : Nat),
      0 ≤ t.unixMs → t.unixMs < t'.unixMs → t'.unixMs < 2 ^ 48 →
      (generate t.unixMs random : Id kind) < generate t'.unixMs random' ∧
        bytes (generate t.unixMs random : Id kind).text <
          bytes (generate t'.unixMs random' : Id kind).text) ∧
    ∀ a b : Id kind,
      (bytes a.text < bytes b.text ↔ a < b) ∧ (bytes a.text = bytes b.text ↔ a = b) := by
  refine ⟨fun t t' random random' since earlier fits => ?_,
    fun a b => ⟨bytes_text_lt_iff a b, bytes_text_eq_iff a b⟩⟩
  have less : (generate t.unixMs random : Id kind) < generate t'.unixMs random' := by
    rw [generate_lt_iff, Int.emod_eq_of_lt since (by omega), Int.emod_eq_of_lt (by omega) fits]
    exact .inl earlier
  exact ⟨less, (bytes_text_lt_iff _ _).2 less⟩

/-- The greatest identifier of the last millisecond of 2023 is in front of the least of 2024. -/
theorem sorted_at_new_year :
    0 ≤ (Instant.ofUnixMs 1704067199999).unixMs ∧
    (Instant.ofUnixMs 1704067199999).unixMs < (Instant.ofUnixMs 1704067200000).unixMs ∧
    (Instant.ofUnixMs 1704067200000).unixMs < 2 ^ 48 ∧
    (generate (Instant.ofUnixMs 1704067199999).unixMs (2 ^ 80 - 1) : FlowId) <
      generate (Instant.ofUnixMs 1704067200000).unixMs 0 ∧
    bytes (generate (Instant.ofUnixMs 1704067199999).unixMs (2 ^ 80 - 1) : FlowId).text <
      bytes (generate (Instant.ofUnixMs 1704067200000).unixMs 0 : FlowId).text := by
  have since : 0 ≤ (Instant.ofUnixMs 1704067199999).unixMs := by decide
  have earlier : (Instant.ofUnixMs 1704067199999).unixMs <
    (Instant.ofUnixMs 1704067200000).unixMs := by decide
  have fits : (Instant.ofUnixMs 1704067200000).unixMs < 2 ^ 48 := by decide
  exact ⟨since, earlier, fits, sorted_by_time.1 _ _ _ _ since earlier fits⟩

end Id

end Workflow
