import Mathlib.Algebra.Group.Nat.Defs
import Workflow.Time.Calendar

/-!
# Workflow.Proofs.Time.Dates — every day has a date, and only one

Years are counted from March.  An era of 400 years is four centuries of 25 blocks of four years, the
last day of a block being a leap day; in the last block of a century there is one only if the
century is the last.  `EraDay` is a day of an era in these parts, from which both ways of the
conversion are read off (`toDay_ofDay`, `isValid_ofDay`).
-/

namespace Workflow.Date

/-- A day of an era: its century, its block of four years, its year in the block, and its day in
that year. -/
structure EraDay (dayOfEra century block year day : Int) : Prop where
  century_mem : 0 ≤ century ∧ century ≤ 3
  block_mem : 0 ≤ block ∧ block ≤ 24
  year_mem : 0 ≤ year ∧ year ≤ 3
  day_mem : 0 ≤ day ∧ day ≤ 365
  leap : day = 365 → year = 3 ∧ (block < 24 ∨ century = 3)
  sum : dayOfEra = 36524 * century + 1461 * block + 365 * year + day

theorem exists_eraDay {dayOfEra : Int} (h : 0 ≤ dayOfEra ∧ dayOfEra < 146097) :
    ∃ century block year day, EraDay dayOfEra century block year day := by
  obtain ⟨century, rest, hc, hr, hsum, hlast⟩ : ∃ century rest : Int,
      (0 ≤ century ∧ century ≤ 3) ∧ (0 ≤ rest ∧ rest ≤ 36524) ∧
      dayOfEra = 36524 * century + rest ∧ (rest = 36524 → century = 3) :=
    ⟨min (dayOfEra / 36524) 3, dayOfEra - 36524 * min (dayOfEra / 36524) 3, by omega, by omega,
      by omega, by omega⟩
  obtain ⟨year, day, hy, hd, hsum', hleap⟩ : ∃ year day : Int,
      (0 ≤ year ∧ year ≤ 3) ∧ (0 ≤ day ∧ day ≤ 365) ∧
      rest % 1461 = 365 * year + day ∧ (day = 365 → year = 3) :=
    ⟨min (rest % 1461 / 365) 3, rest % 1461 - 365 * min (rest % 1461 / 365) 3, by omega, by omega,
      by omega, by omega⟩
  exact ⟨century, rest / 1461, year, day, hc, by omega, hy, hd, by omega, by omega⟩

section EraDay

variable {dayOfEra century block year day : Int} (h : EraDay dayOfEra century block year day)
include h

/-- Each leap day that has passed is a day more than the years have without them. -/
theorem EraDay.leapDays : ∃ passed : Int,
    dayOfEra - dayOfEra / 1460 + dayOfEra / 36524 - dayOfEra / 146096 =
      365 * (100 * century + 4 * block + year) + (day - passed) ∧
    0 ≤ day - passed ∧ day - passed ≤ 364 := by
  obtain ⟨hc, hb, hy, hd, hleap, hsum⟩ := h
  -- whether the era is over but for its last day
  have ends : dayOfEra / 36524 - dayOfEra / 146096 = century := by
    by_cases last : dayOfEra = 146096
    · omega
    · have inside : dayOfEra / 146096 = 0 := by omega
      have whole : dayOfEra / 36524 = century := by omega
      omega
  by_cases early : 24 * century + block + 365 * year + day < 1460
  · have passed : dayOfEra / 1460 = 25 * century + block := by omega
    exact ⟨0, by omega, by omega, by omega⟩
  · have passed : dayOfEra / 1460 = 25 * century + block + 1 := by omega
    exact ⟨1, by omega, by omega, by omega⟩

theorem EraDay.yearOfEra :
    (dayOfEra - dayOfEra / 1460 + dayOfEra / 36524 - dayOfEra / 146096) / 365 =
      100 * century + 4 * block + year := by
  obtain ⟨passed, sum, low, high⟩ := h.leapDays
  omega

theorem EraDay.dayOfYear {yearOfEra : Int} (hy : yearOfEra = 100 * century + 4 * block + year) :
    dayOfEra - (365 * yearOfEra + yearOfEra / 4 - yearOfEra / 100) = day := by
  obtain ⟨hc, hb, hy', hd, hleap, hsum⟩ := h
  have quarters : yearOfEra / 4 = 25 * century + block := by omega
  have centuries : yearOfEra / 100 = century := by omega
  omega

end EraDay

/-- The date of a day of the year that begins in March. -/
def ofMarch (year day : Int) : Date :=
  let month := (5 * day + 2) / 153
  ⟨if month < 10 then year else year + 1, (if month < 10 then month + 3 else month - 9).toNat,
    (day - (153 * month + 2) / 5 + 1).toNat⟩

/-- The parts of a day that is counted from 1970-01-01. -/
theorem ofDay_eq (n : Int) : ∃ era dayOfEra century block year day,
    EraDay dayOfEra century block year day ∧ n = era * 146097 + dayOfEra - 719468 ∧
    ofDay n = ofMarch (100 * century + 4 * block + year + era * 400) day := by
  have hmod : 0 ≤ (n + 719468) % 146097 ∧ (n + 719468) % 146097 < 146097 := by omega
  obtain ⟨century, block, year, day, parts⟩ := exists_eraDay hmod
  refine ⟨(n + 719468) / 146097, (n + 719468) % 146097, century, block, year, day, parts, by omega,
    ?_⟩
  have months : 0 ≤ (5 * day + 2) / 153 ∧ (5 * day + 2) / 153 ≤ 11 := by
    have := parts.day_mem
    omega
  unfold ofDay ofMarch
  simp only [Int.fdiv_eq_ediv_of_nonneg _ (by decide : (0 : Int) ≤ 146097),
    Int.fmod_eq_emod_of_nonneg _ (by decide : (0 : Int) ≤ 146097), parts.yearOfEra,
    parts.dayOfYear rfl]
  by_cases early : (5 * day + 2) / 153 < 10
  · have late : ¬ (5 * day + 2) / 153 + 3 ≤ 2 := by omega
    simp only [early, late, if_true, if_false, Int.add_zero]
  · have late : (5 * day + 2) / 153 - 9 ≤ 2 := by omega
    simp only [early, late, if_true, if_false]

section OfMarch

variable {year day : Int} (h : 0 ≤ day ∧ day ≤ 365)
include h

/-- The days before a year that begins in March, and those of the year. -/
theorem toDay_ofMarch : (ofMarch year day).toDay =
    Int.fdiv year 400 * 146097 +
      (Int.fmod year 400 * 365 + Int.fmod year 400 / 4 - Int.fmod year 400 / 100 + day) -
      719468 := by
  have months : 0 ≤ (5 * day + 2) / 153 ∧ (5 * day + 2) / 153 ≤ 11 := by omega
  unfold ofMarch toDay
  by_cases early : (5 * day + 2) / 153 < 10
  · have month : ¬ ((5 * day + 2) / 153 + 3).toNat ≤ 2 := by omega
    simp only [early, month, if_true, if_false]
    omega
  · have month : ((5 * day + 2) / 153 - 9).toNat ≤ 2 := by omega
    have same : year + 1 - 1 = year := by omega
    simp only [early, month, if_true, if_false, same]
    omega

/-- A date exists if its leap day does. -/
theorem isValid_ofMarch (leap : day = 365 → isLeapYear (year + 1)) :
    (ofMarch year day).isValid := by
  have named : ∃ month, month = (5 * day + 2) / 153 ∧ 0 ≤ month ∧ month ≤ 11 := by
    refine ⟨_, rfl, ?_⟩
    omega
  obtain ⟨month, hmonth, months⟩ := named
  unfold ofMarch
  simp only [← hmonth]
  by_cases last : month = 11
  · -- February, the last month of the year
    subst last
    have days : (day - (153 * 11 + 2) / 5 + 1).toNat ≤
        if isLeapYear (year + 1) then 29 else 28 := by
      by_cases full : day = 365
      · rw [if_pos (leap full)]
        omega
      · split <;> omega
    have first : 1 ≤ (day - (153 * 11 + 2) / 5 + 1).toNat := by omega
    simpa [isValid, daysInMonth] using And.intro first days
  · have short : month = 0 ∨ month = 1 ∨ month = 2 ∨ month = 3 ∨ month = 4 ∨ month = 5 ∨
        month = 6 ∨ month = 7 ∨ month = 8 ∨ month = 9 ∨ month = 10 := by omega
    obtain rfl | rfl | rfl | rfl | rfl | rfl | rfl | rfl | rfl | rfl | rfl := short
    all_goals
      simp only [isValid, daysInMonth]
      simp
      omega

end OfMarch

/-- **A day is read off its date.** -/
theorem toDay_ofDay (n : Int) : (ofDay n).toDay = n := by
  obtain ⟨era, dayOfEra, century, block, year, day, parts, rfl, heq⟩ := ofDay_eq n
  obtain ⟨hc, hb, hy, hd, -, hsum⟩ := parts
  rw [heq, toDay_ofMarch hd, Int.fdiv_eq_ediv_of_nonneg _ (by decide),
    Int.fmod_eq_emod_of_nonneg _ (by decide)]
  have era' : (100 * century + 4 * block + year + era * 400) / 400 = era := by omega
  have rest : (100 * century + 4 * block + year + era * 400) % 400 =
      100 * century + 4 * block + year := by omega
  rw [era', rest]
  omega

/-- **The date of a day exists.** -/
theorem isValid_ofDay (n : Int) : (ofDay n).isValid := by
  obtain ⟨era, dayOfEra, century, block, year, day, parts, -, heq⟩ := ofDay_eq n
  rw [heq]
  refine isValid_ofMarch parts.day_mem fun last => ?_
  obtain ⟨rfl, before⟩ := parts.leap last
  have := parts.century_mem
  have := parts.block_mem
  have fourth : (100 * century + 4 * block + 3 + era * 400 + 1) % 4 = 0 := by omega
  by_cases inside : block < 24
  · have century' : (100 * century + 4 * block + 3 + era * 400 + 1) % 100 ≠ 0 := by omega
    simp [isLeapYear, fourth, century']
  · have whole : (100 * century + 4 * block + 3 + era * 400 + 1) % 400 = 0 := by omega
    simp [isLeapYear, fourth, whole]

/-- The numbers of a date have two digits. -/
theorem ofDay_lt (n : Int) : (ofDay n).month < 10 ^ 2 ∧ (ofDay n).day < 10 ^ 2 := by
  have valid := isValid_ofDay n
  have days : daysInMonth (ofDay n).year (ofDay n).month ≤ 31 := by
    unfold daysInMonth
    split
    · split <;> decide
    · split <;> decide
  simp only [isValid, Bool.and_eq_true, decide_eq_true_eq] at valid
  omega

end Workflow.Date
