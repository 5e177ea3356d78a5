import Workflow.Proofs.Time.Dates
import Workflow.Time.Instant

/-!
# Workflow.Proofs.Time.Instants — the text of an instant is read back

Every number of a time text is written with a known width, or ends before a mark that is no digit,
so its reader stops where it ends (`number?_padded`, `year?_yearText`, `fraction?_fractionText`).
The parts name the instant again (`ofLocal?_parts`), as days and dates name each other.
-/

namespace Workflow.Instant

open Text (digitsValue padded)

/-! ### Runs of digits -/

/-- A run of digits that writes a number. -/
structure Digits (ds : List Char) (n : Nat) : Prop where
  ne_nil : ds ≠ []
  isDigit : ∀ c ∈ ds, c.isDigit
  value : digitsValue ds = n

section Padded

variable (width n : Nat)

theorem toList_padded : (padded width n).toList =
    List.replicate (width - (Nat.toDigits 10 n).length) '0' ++ Nat.toDigits 10 n := by
  rw [padded, Nat.toString_eq_repr, Nat.toList_repr, String.toList_ofList]

theorem digits_padded : Digits (padded width n).toList n := by
  rw [toList_padded]
  refine ⟨List.append_ne_nil_of_right_ne_nil _ Nat.toDigits_ne_nil, fun c hc => ?_, ?_⟩
  · rcases List.mem_append.1 hc with zero | digit
    · rw [(List.mem_replicate.1 zero).2]
      rfl
    · exact Nat.isDigit_of_mem_toDigits (by decide) (by decide) digit
  · change Nat.ofDigitChars 10 _ 0 = n
    rw [Nat.ofDigitChars_append, Nat.ofDigitChars_replicate_zero, Nat.mul_zero,
      Nat.ofDigitChars_toDigits (by decide) (by decide)]

theorem length_padded {width n : Nat} (pos : 0 < width) (h : n < 10 ^ width) :
    (padded width n).toList.length = width := by
  have short := (Nat.length_toDigits_le_iff (b := 10) (by decide) pos).2 h
  rw [toList_padded, List.length_append, List.length_replicate]
  omega

end Padded

theorem skipSpace_cons {c : Char} (h : isWhiteSpace c = false) (cs : List Char) :
    skipSpace (c :: cs) = c :: cs := List.dropWhile_cons_of_neg (by simp [h])

theorem isWhiteSpace_of_isDigit {c : Char} (h : c.isDigit) : isWhiteSpace c = false := by
  have bounds : 48 ≤ c.toNat ∧ c.toNat ≤ 57 := by
    simpa [Char.isDigit, UInt32.le_iff_toNat_le] using h
  simp only [isWhiteSpace, Bool.or_eq_false_iff, Bool.and_eq_false_iff, decide_eq_false_iff_not,
    beq_eq_false_iff_ne]
  omega

section Digits

variable {ds : List Char} {n width : Nat} (h : Digits ds n)
include h

theorem Digits.isEmpty : ds.isEmpty = false := List.isEmpty_eq_false_iff.2 h.ne_nil

theorem Digits.exists_cons : ∃ c cs, ds = c :: cs ∧ c.isDigit := by
  obtain ⟨c, cs, rfl⟩ := List.exists_cons_of_ne_nil h.ne_nil
  exact ⟨c, cs, rfl, h.isDigit c List.mem_cons_self⟩

theorem Digits.skipped (rest : List Char) : skipSpace (ds ++ rest) = ds ++ rest := by
  obtain ⟨c, cs, rfl, digit⟩ := h.exists_cons
  exact skipSpace_cons (isWhiteSpace_of_isDigit digit) _

/-- The digits end at a mark. -/
theorem Digits.run {c : Char} (stops : c.isDigit = false) (rest : List Char) :
    (ds ++ c :: rest).takeWhile Char.isDigit = ds := by
  rw [List.takeWhile_append_of_pos h.isDigit, List.takeWhile_cons_of_neg (by simp [stops]),
    List.append_nil]

/-- The digits end where their number is as long as it may be. -/
theorem Digits.number (full : ds.length = width) (rest : List Char) :
    number? width (ds ++ rest) = some (n, rest) := by
  have read : ((ds ++ rest).take width).takeWhile Char.isDigit = ds := by
    rw [List.take_left' full]
    have all : (ds ++ []).takeWhile Char.isDigit = ds ++ [] :=
      List.takeWhile_append_of_pos h.isDigit
    rwa [List.append_nil] at all
  rw [number?, h.skipped]
  simp only [read, h.isEmpty, Bool.false_eq_true, if_false, h.value, List.drop_left]

end Digits

theorem number?_padded {width n : Nat} (pos : 0 < width) (h : n < 10 ^ width)
    (rest : List Char) : number? width ((padded width n).toList ++ rest) = some (n, rest) :=
  (digits_padded width n).number (length_padded pos h) rest

theorem mark?_cons {c : Char} (h : isWhiteSpace c = false) (rest : List Char) :
    mark? c (c :: rest) = some rest := by
  simp [mark?, skipSpace_cons h]

/-! ### Years -/

section Digits

variable {ds : List Char} {n : Nat} (h : Digits ds n)
include h

/-- Without a sign a year has four digits. -/
theorem Digits.plainYear (full : ds.length = 4) (rest : List Char) :
    year? (ds ++ rest) = some ((n : Int), rest) := by
  have read := h.number full rest
  obtain ⟨c, cs, rfl, digit⟩ := h.exists_cons
  rw [year?, h.skipped]
  split
  · rename_i heq
    injection heq with first
    rw [first] at digit
    cases digit
  · rename_i heq
    injection heq with first
    rw [first] at digit
    cases digit
  · rw [read]
    rfl

/-- Behind a sign a year has as many digits as it needs. -/
theorem Digits.signedYear {c : Char} (stops : c.isDigit = false) (rest : List Char) :
    year? ('-' :: (ds ++ c :: rest)) = some (-(n : Int), c :: rest) ∧
      year? ('+' :: (ds ++ c :: rest)) = some ((n : Int), c :: rest) := by
  constructor <;>
    rw [year?, skipSpace_cons (by decide)] <;>
    simp only [h.run stops, h.isEmpty, Bool.false_eq_true, if_false, h.value,
      List.drop_left, Option.map_some]

end Digits

/-- The mark behind a year ends its digits. -/
theorem year?_yearText (year : Int) (rest : List Char) :
    year? ((yearText year).toList ++ '-' :: rest) = some (year, '-' :: rest) := by
  unfold yearText
  split
  · -- four digits without a sign
    rename_i plain
    have same : (year.toNat : Int) = year := by omega
    rw [(digits_padded 4 year.toNat).plainYear (length_padded (by decide) (by omega)), same]
  · -- as many digits as it takes, behind a sign
    rename_i signed
    have minus : "-".toList = ['-'] := rfl
    have plus : "+".toList = ['+'] := rfl
    have read := (digits_padded 4 year.natAbs).signedYear (c := '-') rfl rest
    by_cases neg : year < 0
    · have same : -(year.natAbs : Int) = year := by omega
      rw [if_pos neg, String.toList_append, minus, List.append_assoc, List.singleton_append, read.1,
        same]
    · have same : (year.natAbs : Int) = year := by omega
      rw [if_neg neg, String.toList_append, plus, List.append_assoc, List.singleton_append, read.2,
        same]

/-! ### The fraction of a second -/

theorem Digits.fraction {ds : List Char} {n : Nat} (h : Digits ds n) (short : ds.length ≤ 9)
    (rest : List Char) : fraction? ('.' :: (ds ++ 'Z' :: rest)) =
      some (n * 10 ^ (9 - ds.length), 'Z' :: rest) := by
  rw [fraction?]
  simp only [h.run (c := 'Z') rfl, List.take_of_length_le short, h.isEmpty,
    Bool.false_eq_true, if_false, h.value, List.drop_left, Nat.pow_eq]

theorem fraction?_padded {width n : Nat} (pos : 0 < width) (short : width ≤ 9)
    (h : n < 10 ^ width) (rest : List Char) :
    fraction? (("." ++ padded width n).toList ++ 'Z' :: rest) =
      some (n * 10 ^ (9 - width), 'Z' :: rest) := by
  have length := length_padded pos h
  have read := (digits_padded width n).fraction (by omega) rest
  have point : ".".toList = ['.'] := rfl
  rw [String.toList_append, point, List.append_assoc, List.singleton_append, read, length]

theorem fraction?_fractionText {nanos : Nat} (h : nanos < 1000000000) (rest : List Char) :
    fraction? ((fractionText nanos).toList ++ 'Z' :: rest) = some (nanos, 'Z' :: rest) := by
  unfold fractionText
  split
  · rename_i zero
    rw [zero]
    rfl
  · split
    · have whole : nanos / 1000000 * 10 ^ (9 - 3) = nanos := by omega
      rw [fraction?_padded (by decide) (by decide) (by omega), whole]
    · split
      · have whole : nanos / 1000 * 10 ^ (9 - 6) = nanos := by omega
        rw [fraction?_padded (by decide) (by decide) (by omega), whole]
      · rw [fraction?_padded (by decide) (by decide) (by omega), Nat.sub_self, Nat.pow_zero,
          Nat.mul_one]

/-! ### The whole text -/

theorem ofUnix_ofDay (day : Int) {second : Nat} (h : second < 86400) :
    ofUnix (day * 86400 + second) 0 = ⟨day, second, 0, h, by decide, nofun⟩ := by
  have whole : Int.fdiv (day * 86400 + second) 86400 = day := by
    rw [Int.fdiv_eq_ediv_of_nonneg _ (by decide)]
    omega
  have rest : (Int.fmod (day * 86400 + second) 86400).toNat = second := by
    rw [Int.fmod_eq_emod_of_nonneg _ (by decide)]
    omega
  simp only [ofUnix, whole, rest, Nat.zero_mod]

/-- The parts of an instant name the instant, a leap second by the sixtieth of its minute. -/
theorem ofLocal?_parts {t : Instant} (h : t.inCalendar) :
    ofLocal? (Date.ofDay t.day) (t.second / 3600) (t.second / 60 % 60)
      (t.second % 60 + if 1000000000 ≤ t.nanos then 1 else 0)
      (if 1000000000 ≤ t.nanos then t.nanos - 1000000000 else t.nanos) 0 = some t := by
  have calendar := h
  obtain ⟨day, second, nanos, hsecond, hnanos, hleap⟩ := t
  obtain ⟨first, last⟩ :
      Date.firstYear ≤ (Date.ofDay day).year ∧ (Date.ofDay day).year ≤ Date.lastYear := by
    simpa [inCalendar] using h
  have hour : second / 3600 < 24 := by omega
  have minute : second / 60 % 60 < 60 := by omega
  have unix (s : Nat) (hs : s = second % 60) :
      day * 86400 + ((second / 3600 * 3600 + second / 60 % 60 * 60 + s : Nat) : Int) - 0 =
        day * 86400 + second := by omega
  by_cases leap : 1000000000 ≤ nanos
  · have ends : second % 60 = 59 := hleap leap
    have below : nanos - 1000000000 < 1000000000 := by omega
    have back : nanos - 1000000000 + 1000000000 = nanos := by omega
    simp only [ofLocal?, Date.isValid_ofDay, Date.toDay_ofDay, first, last, hour, minute, leap,
      ends, below, back, if_true, decide_true, Bool.and_self, Nat.reduceAdd, Nat.le_refl,
      unix 59 ends.symm, ofUnix_ofDay day hsecond, hnanos, and_self, implies_true, dif_pos,
      calendar]
  · have short : second % 60 ≤ 60 := by omega
    have no : ¬ second % 60 = 60 := by omega
    have below : nanos < 1000000000 := by omega
    simp only [ofLocal?, Date.isValid_ofDay, Date.toDay_ofDay, first, last, hour, minute, leap,
      short, no, below, if_true, if_false, decide_true, Bool.and_self, Nat.add_zero,
      unix _ rfl, ofUnix_ofDay day hsecond, hnanos, false_implies, and_self, dif_pos, calendar]

theorem toList_text (t : Instant) : t.text.toList =
    (yearText (Date.ofDay t.day).year).toList ++ '-' ::
      ((padded 2 (Date.ofDay t.day).month).toList ++ '-' ::
        ((padded 2 (Date.ofDay t.day).day).toList ++ 'T' ::
          ((padded 2 (t.second / 3600)).toList ++ ':' ::
            ((padded 2 (t.second / 60 % 60)).toList ++ ':' ::
              ((padded 2 (t.second % 60 + if 1000000000 ≤ t.nanos then 1 else 0)).toList ++
                ((fractionText
                  (if 1000000000 ≤ t.nanos then t.nanos - 1000000000 else t.nanos)).toList ++
                    ['Z'])))))) := by
  have dash : "-".toList = ['-'] := rfl
  have letter : "T".toList = ['T'] := rfl
  have colon : ":".toList = [':'] := rfl
  have zulu : "Z".toList = ['Z'] := rfl
  simp only [text, String.toList_append, dash, letter, colon, zulu, List.append_assoc,
    List.cons_append, List.nil_append]

/-- **The text of an instant of the calendar names the instant.** -/
theorem ofText?_text {t : Instant} (h : t.inCalendar) : ofText? t.text = some t := by
  obtain ⟨month, day⟩ := Date.ofDay_lt t.day
  have hour : t.second / 3600 < 10 ^ 2 := by
    have := t.second_lt
    omega
  have minute : t.second / 60 % 60 < 10 ^ 2 := by omega
  have second : t.second % 60 + (if 1000000000 ≤ t.nanos then 1 else 0) < 10 ^ 2 := by
    split <;> omega
  have nanos : (if 1000000000 ≤ t.nanos then t.nanos - 1000000000 else t.nanos) < 1000000000 := by
    have := t.nanos_lt
    split <;> omega
  rw [ofText?, toList_text]
  refine Option.bind_eq_some_iff.2 ⟨_, year?_yearText .., ?_⟩
  refine Option.bind_eq_some_iff.2 ⟨_, mark?_cons rfl _, ?_⟩
  refine Option.bind_eq_some_iff.2 ⟨_, number?_padded (by decide) month _, ?_⟩
  refine Option.bind_eq_some_iff.2 ⟨_, mark?_cons rfl _, ?_⟩
  refine Option.bind_eq_some_iff.2 ⟨_, number?_padded (by decide) day _, ?_⟩
  -- the letter between date and time
  refine (if_pos (.inl rfl)).trans (Option.bind_eq_some_iff.2 ⟨_, rfl, ?_⟩)
  refine Option.bind_eq_some_iff.2 ⟨_, number?_padded (by decide) hour _, ?_⟩
  refine Option.bind_eq_some_iff.2 ⟨_, mark?_cons rfl _, ?_⟩
  refine Option.bind_eq_some_iff.2 ⟨_, number?_padded (by decide) minute _, ?_⟩
  refine Option.bind_eq_some_iff.2 ⟨_, mark?_cons rfl _, ?_⟩
  refine Option.bind_eq_some_iff.2 ⟨_, number?_padded (by decide) second _, ?_⟩
  refine Option.bind_eq_some_iff.2 ⟨_, fraction?_fractionText nanos _, ?_⟩
  refine Option.bind_eq_some_iff.2 ⟨(0, []), rfl, (if_pos rfl).trans ?_⟩
  exact ofLocal?_parts h

end Workflow.Instant
