import Mathlib.Algebra.Group.Int.Defs
import Mathlib.Algebra.Group.Nat.Defs
import Mathlib.Order.Basic
import Mathlib.Data.Int.Init

/-!
# The Gregorian calendar

Dates of the proleptic Gregorian calendar and the number of days between a date and the first of
January 1970. The years before the year 1 are numbered on: 0, -1 and so on.

## Key results
- `Date.dayNumber_next`: the day after a date has the next number
- `Date.Valid.ext_dayNumber`: a date is known by its number
-/

namespace Gregorian

/-- Every fourth year is a leap year, except for the centuries that four does not divide. -/
def IsLeap (year : Int) : Prop := year % 4 = 0 ∧ (year % 100 ≠ 0 ∨ year % 400 = 0)

instance (year : Int) : Decidable (IsLeap year) := inferInstanceAs (Decidable (_ ∧ _))

/-- The days of February. -/
def februaryDays (year : Int) : Int := if IsLeap year then 29 else 28

/-- The days of a month. -/
def monthDays (year month : Int) : Int :=
  if month = 2 then februaryDays year
  else if month = 4 ∨ month = 6 ∨ month = 9 ∨ month = 11 then 30
  else 31

/-- A year, a month and a day. -/
structure Date where
  year : Int
  month : Int
  day : Int
deriving DecidableEq, Repr

/-- A date of the calendar. -/
structure Date.Valid (d : Date) : Prop where
  month : 1 ≤ d.month ∧ d.month ≤ 12
  day : 1 ≤ d.day ∧ d.day ≤ monthDays d.year d.month

instance (d : Date) : Decidable d.Valid :=
  decidable_of_iff ((1 ≤ d.month ∧ d.month ≤ 12) ∧ 1 ≤ d.day ∧ d.day ≤ monthDays d.year d.month)
    ⟨fun ⟨h, h'⟩ => ⟨h, h'⟩, fun ⟨h, h'⟩ => ⟨h, h'⟩⟩

/-- The day after a date. -/
def Date.next (d : Date) : Date :=
  if d.day < monthDays d.year d.month then ⟨d.year, d.month, d.day + 1⟩
  else if d.month < 12 then ⟨d.year, d.month + 1, 1⟩
  else ⟨d.year + 1, 1, 1⟩

/-- The days from the first of January of the year 1 to that of another year. -/
def daysBeforeYear (year : Int) : Int :=
  365 * (year - 1) + (year - 1) / 4 - (year - 1) / 100 + (year - 1) / 400

/-- The days from the first of January to the first of a month. -/
def daysBeforeMonth (year month : Int) : Int :=
  if month ≤ 1 then 0
  else if month = 2 then 31
  else if month = 3 then 31 + februaryDays year
  else if month = 4 then 62 + februaryDays year
  else if month = 5 then 92 + februaryDays year
  else if month = 6 then 123 + februaryDays year
  else if month = 7 then 153 + februaryDays year
  else if month = 8 then 184 + februaryDays year
  else if month = 9 then 215 + februaryDays year
  else if month = 10 then 245 + februaryDays year
  else if month = 11 then 276 + februaryDays year
  else 306 + februaryDays year

/-- The days from the first of January 1970 to a date. -/
def Date.dayNumber (d : Date) : Int :=
  daysBeforeYear d.year + daysBeforeMonth d.year d.month + (d.day - 1) - 719162

example : (⟨1970, 1, 1⟩ : Date).dayNumber = 0 := by decide

theorem month_cases {m : Int} (h : 1 ≤ m ∧ m ≤ 12) :
    m = 1 ∨ m = 2 ∨ m = 3 ∨ m = 4 ∨ m = 5 ∨ m = 6 ∨ m = 7 ∨ m = 8 ∨ m = 9 ∨ m = 10 ∨ m = 11 ∨
      m = 12 := by
  omega

theorem februaryDays_cases (year : Int) : februaryDays year = 28 ∨ februaryDays year = 29 := by
  unfold februaryDays
  split <;> simp

/-- The days before the next month. -/
theorem daysBeforeMonth_succ {year month : Int} (h : 1 ≤ month ∧ month < 12) :
    daysBeforeMonth year (month + 1) = daysBeforeMonth year month + monthDays year month := by
  obtain rfl | rfl | rfl | rfl | rfl | rfl | rfl | rfl | rfl | rfl | rfl | rfl :=
    month_cases ⟨h.1, Int.le_of_lt h.2⟩ <;> simp [daysBeforeMonth, monthDays] at h ⊢ <;> omega

/-- The days before the next year. -/
theorem daysBeforeYear_succ (year : Int) :
    daysBeforeYear (year + 1) =
      daysBeforeYear year + daysBeforeMonth year 12 + monthDays year 12 := by
  have hmonth : daysBeforeMonth year 12 + monthDays year 12 = 337 + februaryDays year := by
    simp [daysBeforeMonth, monthDays]
    omega
  rw [Int.add_assoc, hmonth]
  unfold daysBeforeYear februaryDays
  split
  · rename_i hleap
    unfold IsLeap at hleap
    omega
  · rename_i hleap
    unfold IsLeap at hleap
    omega

theorem monthDays_pos (year month : Int) : 28 ≤ monthDays year month := by
  have := februaryDays_cases year
  unfold monthDays
  split
  · omega
  · split <;> decide

theorem monthDays_le (year month : Int) : monthDays year month ≤ 31 := by
  have := februaryDays_cases year
  unfold monthDays
  split
  · omega
  · split <;> decide

namespace Date

theorem Valid.next {d : Date} (h : d.Valid) : d.next.Valid := by
  obtain ⟨⟨hm1, hm12⟩, hd1, hd⟩ := h
  unfold Date.next
  split
  · exact ⟨⟨hm1, hm12⟩, by dsimp only; omega, by dsimp only; omega⟩
  · split
    · have := monthDays_pos d.year (d.month + 1)
      exact ⟨⟨by dsimp only; omega, by dsimp only; omega⟩, Int.le_refl 1, by dsimp only; omega⟩
    · have := monthDays_pos (d.year + 1) 1
      exact ⟨⟨Int.le_refl 1, show (1 : Int) ≤ 12 by decide⟩, Int.le_refl 1, by dsimp only; omega⟩

/-- The day after a date has the next number. -/
theorem dayNumber_next {d : Date} (h : d.Valid) : d.next.dayNumber = d.dayNumber + 1 := by
  obtain ⟨⟨hm1, hm12⟩, hd1, hd⟩ := h
  unfold Date.next
  split
  · unfold dayNumber
    dsimp only
    omega
  · split
    · rename_i hlast hmonth
      unfold dayNumber
      dsimp only
      rw [daysBeforeMonth_succ ⟨hm1, hmonth⟩]
      omega
    · rename_i hlast hmonth
      have hm : d.month = 12 := by omega
      rw [hm] at hd hlast
      unfold dayNumber
      dsimp only
      rw [daysBeforeYear_succ, hm]
      have hfirst : daysBeforeMonth (d.year + 1) 1 = 0 := rfl
      omega

/-- A day lies in its month. -/
theorem Valid.inMonth {d : Date} (h : d.Valid) :
    daysBeforeYear d.year + daysBeforeMonth d.year d.month ≤ d.dayNumber + 719162 ∧
      d.dayNumber + 719162 <
        daysBeforeYear d.year + daysBeforeMonth d.year d.month + monthDays d.year d.month := by
  obtain ⟨hmonth, hd1, hd⟩ := h
  unfold dayNumber
  omega

end Date

/-- The days before a month, in the order of the months. -/
theorem daysBeforeMonth_mono (year : Int) {m m' : Int} (h : 1 ≤ m) (hlt : m < m') (h' : m' ≤ 12) :
    daysBeforeMonth year m + monthDays year m ≤ daysBeforeMonth year m' := by
  induction m', (show m + 1 ≤ m' from hlt) using Int.leInduction with
  | base => exact Int.le_of_eq (daysBeforeMonth_succ ⟨h, h'⟩).symm
  | succ k hk ih =>
    have hsucc := @daysBeforeMonth_succ year k ⟨by omega, by omega⟩
    have := ih (by omega) (by omega)
    have := monthDays_pos year k
    omega

theorem daysBeforeYear_mono {y y' : Int} (h : y ≤ y') : daysBeforeYear y ≤ daysBeforeYear y' := by
  unfold daysBeforeYear
  omega

namespace Date

/-- A day lies in its year. -/
theorem Valid.inYear {d : Date} (h : d.Valid) :
    daysBeforeYear d.year ≤ d.dayNumber + 719162 ∧
      d.dayNumber + 719162 < daysBeforeYear (d.year + 1) := by
  obtain ⟨hfirst, hlast⟩ := h.inMonth
  have hzero : daysBeforeMonth d.year 1 = 0 := rfl
  have hpos := monthDays_pos d.year 1
  rw [daysBeforeYear_succ]
  constructor
  · by_cases hm : d.month = 1
    · rw [hm] at hfirst
      omega
    · have := daysBeforeMonth_mono d.year (Int.le_refl 1) (by have := h.month; omega) h.month.2
      omega
  · by_cases hm : d.month = 12
    · rw [hm] at hlast
      omega
    · have := daysBeforeMonth_mono d.year h.month.1 (by have := h.month; omega) (Int.le_refl 12)
      have := monthDays_pos d.year 12
      omega

/-- A date is known by its number. -/
theorem Valid.ext_dayNumber {d d' : Date} (h : d.Valid) (h' : d'.Valid)
    (heq : d.dayNumber = d'.dayNumber) : d = d' := by
  have hyear : d.year = d'.year := by
    by_contra hne
    obtain hlt | hlt := Int.lt_or_gt_of_ne hne
    · have := daysBeforeYear_mono (show d.year + 1 ≤ d'.year from hlt)
      have := h.inYear
      have := h'.inYear
      omega
    · have := daysBeforeYear_mono (show d'.year + 1 ≤ d.year from hlt)
      have := h.inYear
      have := h'.inYear
      omega
  have hmonth : d.month = d'.month := by
    have hin := h.inMonth
    have hin' := h'.inMonth
    rw [← hyear] at hin'
    by_contra hne
    obtain hlt | hlt := Int.lt_or_gt_of_ne hne
    · have := daysBeforeMonth_mono d.year h.month.1 hlt h'.month.2
      omega
    · have := daysBeforeMonth_mono d.year h'.month.1 hlt h.month.2
      omega
  have hday : d.day = d'.day := by
    unfold dayNumber at heq
    rw [hyear, hmonth] at heq
    omega
  cases d
  cases d'
  simp_all

end Date

end Gregorian
