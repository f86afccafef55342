import Asx.ForStd.Gregorian
import Asx.Native.Calendar

/-!
# Calendar arithmetic

The algorithm counts years and days from the first of March of the year 0, in eras of 400 years.
`yearOfEra` gives the year that a day of an era lies in, for every day but the last one of a
leap year: that day is counted to the next year.

## Key results
- `calendarToDays_eq`: the number of a date's day
- `calendarExact_iff`: where the calendar of a clock reading is exact
-/

namespace Asx

open Gregorian

/-! ## Eras -/

/-- The days of an era before a year of it. -/
def daysBeforeYearOfEra (yoe : Int) : Int := 365 * yoe + yoe / 4 - yoe / 100

/-- The days of an era in centuries, groups of four years, years and days. -/
theorem exists_dayOfEra {doe : Int} (h0 : 0 ≤ doe) (h : doe < 146097) :
    ∃ c f k j : Int, doe = 36524 * c + 1461 * f + 365 * k + j ∧ (0 ≤ c ∧ c ≤ 3) ∧
      (0 ≤ f ∧ f ≤ 24) ∧ (0 ≤ k ∧ k ≤ 3) ∧ 0 ≤ j ∧
        (j ≤ 364 ∨ j = 365 ∧ k = 3 ∧ (f < 24 ∨ c = 3)) := by
  obtain ⟨c, hc, hlow, hhigh⟩ : ∃ c : Int, (0 ≤ c ∧ c ≤ 3) ∧ 36524 * c ≤ doe ∧
      (doe < 36524 * (c + 1) ∨ c = 3 ∧ doe = 146096) := by
    by_cases hlast : doe = 146096
    · exact ⟨3, by omega, by omega, .inr ⟨rfl, hlast⟩⟩
    · exact ⟨doe / 36524, by omega, by omega, .inl (by omega)⟩
  obtain ⟨f, hf, hlowf, hhighf⟩ : ∃ f : Int, (0 ≤ f ∧ f ≤ 24) ∧ 1461 * f ≤ doe - 36524 * c ∧
      doe - 36524 * c < 1461 * (f + 1) :=
    ⟨(doe - 36524 * c) / 1461, by omega, by omega, by omega⟩
  obtain ⟨k, hk, hlowk, hhighk⟩ : ∃ k : Int, (0 ≤ k ∧ k ≤ 3) ∧
      365 * k ≤ doe - 36524 * c - 1461 * f ∧
        (doe - 36524 * c - 1461 * f < 365 * (k + 1) ∨
          k = 3 ∧ doe - 36524 * c - 1461 * f = 1460) := by
    by_cases hlast : doe - 36524 * c - 1461 * f = 1460
    · exact ⟨3, by omega, by omega, .inr ⟨rfl, hlast⟩⟩
    · exact ⟨(doe - 36524 * c - 1461 * f) / 365, by omega, by omega, .inl (by omega)⟩
  exact ⟨c, f, k, doe - 36524 * c - 1461 * f - 365 * k, by omega, hc, hf, hk, by omega, by omega⟩

/-- The value of `yoe`. -/
def yearOfEraOf (doe : Int) : Int := (doe - doe / 1461 + doe / 36524 - doe / 146096) / 365

/-- The year is the right one, except on the last day of a leap year. -/
theorem yearOfEraOf_cases {doe : Int} (h0 : 0 ≤ doe) (h : doe < 146097) :
    (0 ≤ yearOfEraOf doe ∧ yearOfEraOf doe ≤ 399 ∧
        daysBeforeYearOfEra (yearOfEraOf doe) ≤ doe ∧
          doe ≤ daysBeforeYearOfEra (yearOfEraOf doe) + 364) ∨
      ∃ yoe, 0 ≤ yoe ∧ yoe ≤ 399 ∧ IsLeap (yoe + 1) ∧ doe = daysBeforeYearOfEra yoe + 365 ∧
        yearOfEraOf doe = yoe + 1 := by
  obtain ⟨c, f, k, j, hdoe, hc, hf, hk, hj0, hj⟩ := exists_dayOfEra h0 h
  have hyear4 : (100 * c + 4 * f + k) / 4 = 25 * c + f := by omega
  have hyear100 : (100 * c + 4 * f + k) / 100 = c := by omega
  have hbefore : daysBeforeYearOfEra (100 * c + 4 * f + k) =
      36524 * c + 1461 * f + 365 * k := by
    unfold daysBeforeYearOfEra
    omega
  obtain hj | ⟨rfl, rfl, hleap⟩ := hj
  · have hcentury : doe / 36524 = c := by omega
    have hera : doe / 146096 = 0 := by omega
    have hyear : yearOfEraOf doe = 100 * c + 4 * f + k := by
      unfold yearOfEraOf
      rw [hcentury, hera]
      obtain hgroup | ⟨hgroup, hk0, hjc⟩ :
          doe / 1461 = 25 * c + f ∨ doe / 1461 = 25 * c + f - 1 ∧ k = 0 ∧ j < c := by
        omega
      · rw [hgroup]
        omega
      · rw [hgroup]
        omega
    left
    rw [hyear, hbefore]
    omega
  · right
    have hyear : yearOfEraOf doe = 100 * c + 4 * f + 4 := by
      unfold yearOfEraOf
      obtain hf24 | ⟨rfl, rfl⟩ : f < 24 ∨ f = 24 ∧ c = 3 := by omega
      · rw [show doe / 36524 = c by omega, show doe / 146096 = 0 by omega,
          show doe / 1461 = 25 * c + f by omega]
        omega
      · subst hdoe
        decide
    refine ⟨100 * c + 4 * f + 3, by omega, by omega, ?_, by rw [hbefore]; omega, by omega⟩
    unfold IsLeap
    omega

/-! ## Days -/

/-- The days before a year, counted in eras from the year 1. -/
theorem daysBeforeYear_era (y : Int) :
    daysBeforeYear (y + 1) = y / 400 * 146097 + daysBeforeYearOfEra (y % 400) := by
  have h4 : y / 4 = 100 * (y / 400) + y % 400 / 4 := by omega
  have h100 : y / 100 = 4 * (y / 400) + y % 400 / 100 := by omega
  unfold daysBeforeYear daysBeforeYearOfEra
  rw [Int.add_sub_cancel, h4, h100]
  omega

/-- A day's number, with the years counted from March. -/
theorem calendarToDays_march (y m d : Int) :
    calendarToDays y m d =
      daysBeforeYear ((if m ≤ 2 then y - 1 else y) + 1) +
        ((153 * (if m ≤ 2 then m + 9 else m - 3) + 2).tdiv 5 + d - 1) - 719468 := by
  have hdiv : ∀ x : Int, x.ediv 400 = x / 400 := fun _ => rfl
  have hmod : ∀ x : Int, x.emod 400 = x % 400 := fun _ => rfl
  have hpos : ∀ x : Int, 0 ≤ x % 400 := fun x => Int.emod_nonneg x (by decide)
  rw [daysBeforeYear_era]
  unfold calendarToDays daysBeforeYearOfEra
  simp only [hdiv, hmod, Int.tdiv_eq_ediv_of_nonneg (hpos _)]
  omega

/-- `calendar_to_days` counts the days from the epoch. -/
theorem calendarToDays_eq {y m : Int} (h : 1 ≤ m ∧ m ≤ 12) (d : Int) :
    calendarToDays y m d = (⟨y, m, d⟩ : Date).dayNumber := by
  have hlast : daysBeforeMonth y 12 + monthDays y 12 = 337 + februaryDays y := by
    simp [daysBeforeMonth, monthDays]
    omega
  have hsucc := daysBeforeYear_succ y
  rw [calendarToDays_march, Date.dayNumber]
  obtain rfl | rfl | rfl | rfl | rfl | rfl | rfl | rfl | rfl | rfl | rfl | rfl := month_cases h <;>
    simp [daysBeforeMonth] <;> omega

/-! ## Integer types -/

theorem checked_of_holds {t : IntType} {x : Int} (h : t.Holds x) : checked t x = some x := if_pos h

theorem checked_eq_some {t : IntType} {x y : Int} : checked t x = some y ↔ t.Holds x ∧ x = y := by
  unfold checked
  split <;> simp [*]

theorem IntType.wrap_of_holds {t : IntType} {x : Int} (h : t.Holds x) : t.wrap x = x := by
  obtain ⟨hleast, hcount⟩ := h
  rw [wrap, Int.emod_eq_of_lt (by omega) (by omega)]
  omega

theorem IntType.holds_u64 {x : Int} (h0 : 0 ≤ x) (h : x < 2 ^ 64) : IntType.u64.Holds x := by
  simpa [Holds, least, count] using ⟨h0, h⟩

theorem IntType.holds_u8 {x : Int} (h0 : 0 ≤ x) (h : x < 2 ^ 8) : IntType.u8.Holds x := by
  simpa [Holds, least, count] using ⟨h0, h⟩

theorem IntType.holds_i64 {x : Int} (h0 : -2 ^ 63 ≤ x) (h : x < 2 ^ 63) : IntType.i64.Holds x := by
  simpa [Holds, least, count] using ⟨h0, h⟩

theorem IntType.holds_i32 {x : Int} : IntType.i32.Holds x ↔ -2 ^ 31 ≤ x ∧ x < 2 ^ 31 := by
  simp [Holds, least, count]

/-- An operation whose result fits its type goes on with it. -/
theorem checked_bind {t : IntType} {x : Int} {β : Type} (h : t.Holds x) (f : Int → Option β) :
    (checked t x >>= f) = f x := by
  rw [checked_of_holds h]
  rfl

/-! ## Parts of the algorithm -/

/-- The year of the era needs no more than 64 bits. -/
theorem yearOfEra_checked {doe : Int} (h0 : 0 ≤ doe) (h : doe < 146097) :
    yearOfEra checked doe = some (yearOfEraOf doe) := by
  unfold yearOfEra yearOfEraOf
  rw [checked_bind (IntType.holds_u64 (by omega) (by omega)),
    checked_bind (IntType.holds_u64 (by omega) (by omega)),
    checked_bind (IntType.holds_u64 (by omega) (by omega))]
  rfl

/-- The day of the year underflows where the day stands before the year that was found. -/
theorem dayOfYear_checked {doe yoe : Int} (hy0 : 0 ≤ yoe) (hy : yoe ≤ 400) :
    dayOfYear checked doe yoe = checked .u64 (doe - daysBeforeYearOfEra yoe) := by
  unfold dayOfYear daysBeforeYearOfEra
  rw [checked_bind (IntType.holds_u64 (by omega) (by omega)),
    checked_bind (IntType.holds_u64 (by omega) (by omega)),
    checked_bind (IntType.holds_u64 (by omega) (by omega))]

/-- The months from March on that are over on a day of the year. -/
def monthsSinceMarch (doy : Int) : Int := (5 * doy + 2) / 153

/-- The month with that many months since March. -/
def monthOf (mp : Int) : Int := if mp < 10 then mp + 3 else mp - 9

/-- Month and day fit eight bits. -/
theorem monthAndDay_checked {doy : Int} (h0 : 0 ≤ doy) (h : doy ≤ 365) :
    monthAndDay checked doy =
      some (monthOf (monthsSinceMarch doy), doy - (153 * monthsSinceMarch doy + 2) / 5 + 1) := by
  have hmp : IntType.u8.wrap ((5 * doy + 2) / 153) = (5 * doy + 2) / 153 :=
    IntType.wrap_of_holds (IntType.holds_u8 (by omega) (by omega))
  have hday : IntType.u8.wrap (doy - (153 * ((5 * doy + 2) / 153) + 2) / 5 + 1) =
      doy - (153 * ((5 * doy + 2) / 153) + 2) / 5 + 1 :=
    IntType.wrap_of_holds (IntType.holds_u8 (by omega) (by omega))
  unfold monthAndDay monthOf monthsSinceMarch
  rw [checked_bind (IntType.holds_u64 (by omega) (by omega)),
    checked_bind (IntType.holds_u64 (by omega) (by omega))]
  dsimp only
  rw [checked_bind (IntType.holds_u64 (by omega) (by omega)),
    checked_bind (IntType.holds_u64 (by omega) (by omega)),
    checked_bind (IntType.holds_u64 (by omega) (by omega)),
    checked_bind (IntType.holds_u64 (by omega) (by omega)), hmp, hday]
  split
  · rw [checked_bind (IntType.holds_u8 (by omega) (by omega))]
    rfl
  · rw [checked_bind (IntType.holds_u8 (by omega) (by omega))]
    rfl

/-! ## Clock readings -/

/-- The date part. -/
def CalendarTime.date (c : CalendarTime) : Date := ⟨c.year, c.month, c.day⟩

/-- The date and the time of day of an instant. -/
structure CalendarTime.IsOf (c : CalendarTime) (secs : Int) : Prop where
  valid : c.date.Valid
  date : c.date.dayNumber = secs / 86400
  hour : 0 ≤ c.hour ∧ c.hour ≤ 23
  min : 0 ≤ c.min ∧ c.min ≤ 59
  sec : 0 ≤ c.sec ∧ c.sec ≤ 59
  time : c.hour * 3600 + c.min * 60 + c.sec = secs % 86400

/-- A time has one date and time of the day. -/
theorem CalendarTime.IsOf.unique {c c' : CalendarTime} {secs : Int} (h : c.IsOf secs)
    (h' : c'.IsOf secs) : c = c' := by
  have hdate := h.valid.ext_dayNumber h'.valid (h.date.trans h'.date.symm)
  obtain ⟨-, -, hhour, hmin, hsec, htime⟩ := h
  obtain ⟨-, -, hhour', hmin', hsec', htime'⟩ := h'
  cases c
  cases c'
  simp only [CalendarTime.date, Date.mk.injEq] at hdate
  obtain ⟨rfl, rfl, rfl⟩ := hdate
  simp only [CalendarTime.mk.injEq, true_and]
  dsimp only at *
  omega

/-- The days whose `era * 400` and year are held by an `i32`. -/
def InYears (day : Int) : Prop :=
  (⟨-2147483600, 3, 1⟩ : Date).dayNumber ≤ day ∧ day < (⟨2147483648, 1, 1⟩ : Date).dayNumber

/-- The last day of a February of a leap year. -/
def LeapDay (day : Int) : Prop := ∃ y, IsLeap y ∧ (⟨y, 2, 29⟩ : Date).dayNumber = day

theorem valid_leapDay {y : Int} (h : IsLeap y) : (⟨y, 2, 29⟩ : Date).Valid :=
  ⟨⟨show (1 : Int) ≤ 2 by decide, show (2 : Int) ≤ 12 by decide⟩,
    show (1 : Int) ≤ 29 by decide, by simp [monthDays, februaryDays, h]⟩

/-- The number of 29 February, counted from March. -/
theorem dayNumber_leapDay {y : Int} : (⟨y, 2, 29⟩ : Date).dayNumber =
    (y - 1) / 400 * 146097 + daysBeforeYearOfEra ((y - 1) % 400) + 365 - 719468 := by
  have hera := daysBeforeYear_era (y - 1)
  rw [Int.sub_add_cancel] at hera
  rw [Date.dayNumber, ← hera]
  simp [daysBeforeMonth]
  omega

/-- The leap days of an era. -/
theorem leapDay_iff {day era doe : Int} (hday : day + 719468 = era * 146097 + doe) (h0 : 0 ≤ doe)
    (h : doe < 146097) :
    LeapDay day ↔ ∃ yoe, 0 ≤ yoe ∧ yoe ≤ 399 ∧ IsLeap (yoe + 1) ∧
      doe = daysBeforeYearOfEra yoe + 365 := by
  constructor
  · rintro ⟨y, hleap, hnumber⟩
    rw [dayNumber_leapDay] at hnumber
    refine ⟨(y - 1) % 400, by omega, by omega, ?_, ?_⟩
    · unfold IsLeap at hleap ⊢
      omega
    · have hlt : daysBeforeYearOfEra ((y - 1) % 400) + 365 < 146097 := by
        unfold IsLeap at hleap
        unfold daysBeforeYearOfEra
        omega
      have hpos : 0 ≤ daysBeforeYearOfEra ((y - 1) % 400) := by
        unfold daysBeforeYearOfEra
        omega
      omega
  · rintro ⟨yoe, hy0, hy, hleap, hdoe⟩
    refine ⟨400 * era + yoe + 1, ?_, ?_⟩
    · unfold IsLeap at hleap ⊢
      omega
    · have hdiv : (400 * era + yoe + 1 - 1) / 400 = era := by omega
      have hmod : (400 * era + yoe + 1 - 1) % 400 = yoe := by omega
      rw [dayNumber_leapDay, hdiv, hmod]
      omega

/-- The date of a day of a year that starts in March. -/
def marchDate (year doy : Int) : Date :=
  let mo := monthOf (monthsSinceMarch doy)
  ⟨if mo ≤ 2 then year + 1 else year, mo, doy - (153 * monthsSinceMarch doy + 2) / 5 + 1⟩

/-- A day of a year that begins in March is a date. -/
theorem marchDate_valid (year : Int) {doy : Int} (h0 : 0 ≤ doy) (h : doy ≤ 364) :
    (marchDate year doy).Valid := by
  have hmp : 0 ≤ monthsSinceMarch doy ∧ monthsSinceMarch doy ≤ 11 := by
    unfold monthsSinceMarch
    omega
  have hday : (153 * monthsSinceMarch doy + 2) / 5 ≤ doy ∧
      doy < (153 * (monthsSinceMarch doy + 1) + 2) / 5 := by
    unfold monthsSinceMarch
    omega
  unfold marchDate
  generalize monthsSinceMarch doy = mp at hmp hday ⊢
  have hmonth : 1 ≤ monthOf mp ∧ monthOf mp ≤ 12 := by
    unfold monthOf
    split <;> omega
  refine ⟨hmonth, by dsimp only; omega, ?_⟩
  dsimp only
  generalize (if monthOf mp ≤ 2 then year + 1 else year) = y
  have hfeb := februaryDays_cases y
  obtain rfl | rfl | rfl | rfl | rfl | rfl | rfl | rfl | rfl | rfl | rfl | rfl :
      mp = 0 ∨ mp = 1 ∨ mp = 2 ∨ mp = 3 ∨ mp = 4 ∨ mp = 5 ∨ mp = 6 ∨ mp = 7 ∨ mp = 8 ∨ mp = 9 ∨
        mp = 10 ∨ mp = 11 := by omega
  all_goals
    simp [monthOf, monthDays]
    omega

/-- And its number is counted in eras, years and days. -/
theorem dayNumber_marchDate (year : Int) {doy : Int} (h0 : 0 ≤ doy) (h : doy ≤ 364) :
    (marchDate year doy).dayNumber =
      year / 400 * 146097 + daysBeforeYearOfEra (year % 400) + doy - 719468 := by
  have hmp : 0 ≤ monthsSinceMarch doy ∧ monthsSinceMarch doy ≤ 11 := by
    unfold monthsSinceMarch
    omega
  have hyear : (if (marchDate year doy).month ≤ 2 then (marchDate year doy).year - 1
      else (marchDate year doy).year) = year := by
    unfold marchDate
    dsimp only
    split <;> omega
  have hmonth : (if (marchDate year doy).month ≤ 2 then (marchDate year doy).month + 9
      else (marchDate year doy).month - 3) = monthsSinceMarch doy := by
    unfold marchDate monthOf
    dsimp only
    split <;> split <;> omega
  have hnumber := calendarToDays_eq (y := (marchDate year doy).year)
    (marchDate_valid year h0 h).month (marchDate year doy).day
  have hpos : 0 ≤ 153 * monthsSinceMarch doy + 2 := by omega
  rw [calendarToDays_march, hyear, hmonth, daysBeforeYear_era,
    Int.tdiv_eq_ediv_of_nonneg hpos] at hnumber
  refine hnumber.symm.trans ?_
  unfold marchDate
  dsimp only
  omega

/-- The calendar is exact on every day that is held, but for the leap days. -/
theorem epochSecsToCalendar_of_inYears {secs : Int} (hlow : -2 ^ 63 ≤ secs) (hhigh : secs < 2 ^ 63)
    (hyears : InYears (secs / 86400)) (hleap : ¬ LeapDay (secs / 86400)) :
    ∃ c, epochSecsToCalendar checked secs = some c ∧ c.IsOf secs := by
  obtain ⟨era, hera⟩ : ∃ era, (secs / 86400 + 719468) / 146097 = era := ⟨_, rfl⟩
  obtain ⟨doe, hdoe⟩ : ∃ doe, (secs / 86400 + 719468) % 146097 = doe := ⟨_, rfl⟩
  have hday : secs / 86400 + 719468 = era * 146097 + doe := by omega
  have hdoe0 : 0 ≤ doe := by omega
  have hdoe1 : doe < 146097 := by omega
  rw [leapDay_iff hday hdoe0 hdoe1] at hleap
  obtain ⟨hy0, hy, hbefore, hdays⟩ | ⟨yoe, hy0, hy, hlast, hdays, -⟩ := yearOfEraOf_cases hdoe0 hdoe1
  case inr => exact absurd ⟨yoe, hy0, hy, hlast, hdays⟩ hleap
  obtain ⟨yoe, hyoe⟩ : ∃ yoe, yearOfEraOf doe = yoe := ⟨_, rfl⟩
  rw [hyoe] at hy0 hy hbefore hdays
  obtain ⟨doy, hdoy⟩ : ∃ doy, doe - daysBeforeYearOfEra yoe = doy := ⟨_, rfl⟩
  have hdoy0 : 0 ≤ doy := by omega
  have hdoy1 : doy ≤ 364 := by omega
  -- the date, before its types
  have hvalid := marchDate_valid (yoe + era * 400) hdoy0 hdoy1
  have hnumber : (marchDate (yoe + era * 400) doy).dayNumber = secs / 86400 := by
    have hdiv : (yoe + era * 400) / 400 = era := by omega
    have hmod : (yoe + era * 400) % 400 = yoe := by omega
    rw [dayNumber_marchDate _ hdoy0 hdoy1, hdiv, hmod]
    omega
  -- the types hold the year and the years before its era
  obtain ⟨hfirst, hend⟩ := hyears
  have hfirst' : -5368709 * 146097 - 719468 ≤ secs / 86400 := hfirst
  have hend' : daysBeforeYear 2147483648 - 719162 = (⟨2147483648, 1, 1⟩ : Date).dayNumber := rfl
  have hyear := hvalid.inYear
  have hyear31 : (marchDate (yoe + era * 400) doy).year < 2 ^ 31 := by
    by_contra hge
    have := daysBeforeYear_mono (show 2147483648 ≤ (marchDate (yoe + era * 400) doy).year by omega)
    omega
  have hyear_le : yoe + era * 400 ≤ (marchDate (yoe + era * 400) doy).year := by
    unfold marchDate
    dsimp only
    split <;> omega
  refine ⟨⟨(marchDate (yoe + era * 400) doy).year, (marchDate (yoe + era * 400) doy).month,
    (marchDate (yoe + era * 400) doy).day, secs % 86400 / 3600, secs % 86400 % 3600 / 60,
    secs % 86400 % 60⟩, ?_, hvalid, hnumber, by dsimp only; omega,
    by dsimp only; omega, by dsimp only; omega, by dsimp only; omega⟩
  · unfold epochSecsToCalendar
    rw [checked_bind (IntType.holds_i64 (by omega) (by omega)), hera, hdoe,
      IntType.wrap_of_holds (IntType.holds_i32.mpr (by omega)),
      IntType.wrap_of_holds (IntType.holds_u64 hdoe0 (by omega))]
    dsimp only
    rw [yearOfEra_checked hdoe0 hdoe1, hyoe]
    change (checked .i32 (era * 400) >>= _ : Option _) = _
    rw [checked_bind (IntType.holds_i32.mpr (by omega)),
      IntType.wrap_of_holds (IntType.holds_i32.mpr (by omega)),
      checked_bind (IntType.holds_i32.mpr (by omega)), dayOfYear_checked hy0 (by omega), hdoy,
      checked_bind (IntType.holds_u64 hdoy0 (by omega)), monthAndDay_checked hdoy0 (by omega)]
    have htod : ∀ x, 0 ≤ x → x < 86400 → IntType.u64.wrap x = x := fun x h0 h =>
      IntType.wrap_of_holds (IntType.holds_u64 h0 (by omega))
    have hu8 : ∀ x, 0 ≤ x → x < 60 → IntType.u8.wrap x = x := fun x h0 h =>
      IntType.wrap_of_holds (IntType.holds_u8 h0 (by omega))
    rw [htod _ (by omega) (by omega), hu8 _ (by omega) (by omega), hu8 _ (by omega) (by omega),
      hu8 _ (by omega) (by omega)]
    unfold marchDate at hyear31 ⊢
    dsimp only at hyear31 ⊢
    dsimp only [bind, Option.bind]
    by_cases hmonth : monthOf (monthsSinceMarch doy) ≤ 2
    · rw [if_pos hmonth] at hyear31
      simp only [if_pos hmonth]
      rw [checked_of_holds (IntType.holds_i32.mpr (by omega))]
      rfl
    · simp only [if_neg hmonth]
      rfl

/-- The days before a leap year of an era. -/
theorem daysBeforeYearOfEra_leap {yoe : Int} (hy0 : 0 ≤ yoe) (hy : yoe < 399)
    (h : IsLeap (yoe + 1)) : daysBeforeYearOfEra (yoe + 1) = daysBeforeYearOfEra yoe + 366 := by
  unfold IsLeap at h
  unfold daysBeforeYearOfEra
  omega

/-- Later years begin later. -/
theorem daysBeforeYearOfEra_mono {y y' : Int} (h : y ≤ y') :
    daysBeforeYearOfEra y ≤ daysBeforeYearOfEra y' := by
  unfold daysBeforeYearOfEra
  omega

/-- A leap day is counted to the next year: either the day of the year is negative, or the era is
    over and it is the first of March. -/
theorem leapDay_next {doe doy : Int} {md : Int × Int} (h0 : 0 ≤ doe) (h : doe < 146097)
    (hleap : ∃ yoe, 0 ≤ yoe ∧ yoe ≤ 399 ∧ IsLeap (yoe + 1) ∧ doe = daysBeforeYearOfEra yoe + 365)
    (hdoy : dayOfYear checked doe (yearOfEraOf doe) = some doy)
    (hmd : monthAndDay checked doy = some md) :
    doe = 146096 ∧ yearOfEraOf doe = 400 ∧ md = (3, 1) := by
  obtain ⟨yoe, hy0, hy, hlast, hdays⟩ := hleap
  obtain ⟨hq0, hq, hbefore, hdays'⟩ | ⟨yoe', hy0', hy', hlast', hdays', hyear⟩ :=
    yearOfEraOf_cases h0 h
  · exfalso
    by_cases hle : yearOfEraOf doe ≤ yoe
    · have := daysBeforeYearOfEra_mono hle
      omega
    · have hlt : yoe < 399 := by omega
      have hnext := daysBeforeYearOfEra_leap hy0 hlt hlast
      have := daysBeforeYearOfEra_mono (show yoe + 1 ≤ yearOfEraOf doe by omega)
      omega
  · rw [hyear, dayOfYear_checked (by omega) (by omega), checked_eq_some] at hdoy
    obtain ⟨⟨hpos, -⟩, rfl⟩ := hdoy
    have hpos : 0 ≤ doe - daysBeforeYearOfEra (yoe' + 1) := hpos
    obtain hlt | rfl : yoe' < 399 ∨ yoe' = 399 := by omega
    · have hnext := daysBeforeYearOfEra_leap hy0' hlt hlast'
      omega
    · have hend : daysBeforeYearOfEra 399 = 145731 := by decide
      have hover : daysBeforeYearOfEra (399 + 1) = 146096 := by decide
      have hzero : doe - daysBeforeYearOfEra (399 + 1) = 0 := by omega
      rw [hzero, monthAndDay_checked (by decide) (by decide)] at hmd
      exact ⟨by omega, by omega, (Option.some.inj hmd).symm⟩

/-- What a calendar that is given tells of the algorithm. -/
theorem epochSecsToCalendar_some {secs era doe : Int} {c : CalendarTime} (hlow : -2 ^ 63 ≤ secs)
    (hhigh : secs < 2 ^ 63) (hera : (secs / 86400 + 719468) / 146097 = era)
    (hdoe : (secs / 86400 + 719468) % 146097 = doe)
    (h : epochSecsToCalendar checked secs = some c) :
    IntType.i32.Holds (era * 400) ∧ IntType.i32.Holds c.year ∧
      ∃ doy, dayOfYear checked doe (yearOfEraOf doe) = some doy ∧
        monthAndDay checked doy = some (c.month, c.day) ∧
          (c.year = if c.month ≤ 2 then yearOfEraOf doe + era * 400 + 1
            else yearOfEraOf doe + era * 400) ∧
            c.hour = secs % 86400 / 3600 ∧ c.min = secs % 86400 % 3600 / 60 ∧
              c.sec = secs % 86400 % 60 := by
  have htod : ∀ x, 0 ≤ x → x < 86400 → IntType.u64.wrap x = x := fun x h0 h =>
    IntType.wrap_of_holds (IntType.holds_u64 h0 (by omega))
  have hu8 : ∀ x, 0 ≤ x → x < 60 → IntType.u8.wrap x = x := fun x h0 h =>
    IntType.wrap_of_holds (IntType.holds_u8 h0 (by omega))
  have hyoe : 0 ≤ yearOfEraOf doe ∧ yearOfEraOf doe ≤ 400 := by
    obtain hyear | ⟨yoe, hyear⟩ := @yearOfEraOf_cases doe (by omega) (by omega) <;> omega
  unfold epochSecsToCalendar at h
  rw [checked_bind (IntType.holds_i64 (by omega) (by omega)), hera, hdoe,
    @IntType.wrap_of_holds .i32 era (IntType.holds_i32.mpr (by omega)),
    @IntType.wrap_of_holds .u64 doe (IntType.holds_u64 (by omega) (by omega))] at h
  dsimp only at h
  rw [yearOfEra_checked (by omega) (by omega), htod _ (by omega) (by omega),
    hu8 _ (by omega) (by omega), hu8 _ (by omega) (by omega), hu8 _ (by omega) (by omega)] at h
  simp only [Option.bind_eq_bind, Option.bind_some, Option.bind_eq_some_iff, checked_eq_some,
    IntType.wrap_of_holds (IntType.holds_i32.mpr (show _ ∧ yearOfEraOf doe < 2 ^ 31 by omega))] at h
  obtain ⟨_, ⟨hfirst, rfl⟩, _, ⟨hyear, rfl⟩, doy, hdoy, md, hmd, h⟩ := h
  split at h
  · rename_i hmonth
    obtain ⟨y, hy, hc⟩ := Option.bind_eq_some_iff.mp h
    obtain ⟨hnext, rfl⟩ := checked_eq_some.mp hy
    obtain rfl := Option.some.inj hc
    exact ⟨hfirst, hnext, doy, hdoy, hmd, (if_pos hmonth).symm, rfl, rfl, rfl⟩
  · rename_i hmonth
    obtain rfl := Option.some.inj h
    exact ⟨hfirst, hyear, doy, hdoy, hmd, (if_neg hmonth).symm, rfl, rfl, rfl⟩

/-- On a leap day the calendar, if there is one, is that of the next day. -/
theorem epochSecsToCalendar_leapDay {secs y : Int} {c : CalendarTime} (hlow : -2 ^ 63 ≤ secs)
    (hhigh : secs < 2 ^ 63) (hy : IsLeap y) (hday : (⟨y, 2, 29⟩ : Date).dayNumber = secs / 86400)
    (h : epochSecsToCalendar checked secs = some c) :
    c.date = ⟨y, 3, 1⟩ ∧ c.IsOf (secs + 86400) := by
  obtain ⟨-, -, doy, hdoy, hmd, hyear, hhour, hmin, hsec⟩ :=
    epochSecsToCalendar_some hlow hhigh rfl rfl h
  have hleap := (@leapDay_iff (secs / 86400) ((secs / 86400 + 719468) / 146097)
    ((secs / 86400 + 719468) % 146097) (by omega) (by omega) (by omega)).mp ⟨y, hy, hday⟩
  obtain ⟨hdoe, hyoe, hmd⟩ := leapDay_next (by omega) (by omega) hleap hdoy hmd
  rw [Prod.mk.injEq] at hmd
  obtain ⟨hmonth, hdayOne⟩ := hmd
  rw [hmonth, if_neg (by decide), hyoe] at hyear
  have hnumber := dayNumber_leapDay (y := y)
  have hyear' : c.year = y := by
    have hdays : daysBeforeYearOfEra ((y - 1) % 400) + 365 ≤ 146096 := by
      unfold IsLeap at hy
      unfold daysBeforeYearOfEra
      omega
    have hpos : 0 ≤ daysBeforeYearOfEra ((y - 1) % 400) := by
      unfold daysBeforeYearOfEra
      omega
    have hmarch : daysBeforeYearOfEra ((y - 1) % 400) + 365 + 146097 * ((y - 1) / 400) =
        secs / 86400 + 719468 := by
      rw [← hday, hnumber]
      omega
    have hdoeMarch := ((Int.ediv_emod_unique (by decide)).mpr ⟨hmarch, by omega, by omega⟩).2
    have hlast : daysBeforeYearOfEra ((y - 1) % 400) = 145731 := by omega
    have hmod : (y - 1) % 400 = 399 := by
      unfold daysBeforeYearOfEra at hlast
      omega
    omega
  have hdate : c.date = ⟨y, 3, 1⟩ := by
    rw [CalendarTime.date, hyear', hmonth, hdayOne]
  refine ⟨hdate, ?_, ?_, by omega, by omega, by omega, by omega⟩
  · rw [hdate]
    exact ⟨⟨show (1 : Int) ≤ 3 by decide, show (3 : Int) ≤ 12 by decide⟩,
      show (1 : Int) ≤ 1 by decide, show (1 : Int) ≤ 31 by decide⟩
  · rw [hdate]
    have hfeb : februaryDays y = 29 := if_pos hy
    have hmarch : (⟨y, 3, 1⟩ : Date).dayNumber = (⟨y, 2, 29⟩ : Date).dayNumber + 1 := by
      simp [Date.dayNumber, daysBeforeMonth, hfeb]
      omega
    rw [hmarch]
    omega

/-! ## Exactness -/

/-- The inverse conversion stays inside 64 bits for all years that fit 32. -/
theorem marchToDaysChecked_eq {y m d : Int} (hy : -2 ^ 32 ≤ y ∧ y ≤ 2 ^ 32)
    (hm : 0 ≤ m ∧ m ≤ 11) (hd : 1 ≤ d ∧ d ≤ 31) :
    marchToDaysChecked y m d =
      some (daysBeforeYear (y + 1) + ((153 * m + 2).tdiv 5 + d - 1) - 719468) := by
  have hdiv : y.ediv 400 = y / 400 := rfl
  have hmod : y.emod 400 = y % 400 := rfl
  have hpos : 0 ≤ y % 400 := Int.emod_nonneg y (by decide)
  have hi64 : ∀ x : Int, -2 ^ 62 ≤ x → x < 2 ^ 62 → IntType.i64.Holds x := fun x h h' =>
    IntType.holds_i64 (by omega) (by omega)
  have hmarch : 0 ≤ (153 * m + 2).tdiv 5 ∧ (153 * m + 2).tdiv 5 ≤ 400 := by
    rw [Int.tdiv_eq_ediv_of_nonneg (by omega)]
    omega
  rw [daysBeforeYear_era]
  unfold marchToDaysChecked daysBeforeYearOfEra
  simp only [hdiv, hmod, Int.tdiv_eq_ediv_of_nonneg hpos]
  rw [checked_bind (hi64 _ (by omega) (by omega)), checked_bind (hi64 _ (by omega) (by omega)),
    checked_bind (hi64 _ (by omega) (by omega)), checked_bind (hi64 _ (by omega) (by omega)),
    checked_bind (hi64 _ (by omega) (by omega)), checked_bind (hi64 _ (by omega) (by omega)),
    checked_bind (hi64 _ (by omega) (by omega)), checked_bind (hi64 _ (by omega) (by omega)),
    checked_bind (hi64 _ (by omega) (by omega)), checked_bind (hi64 _ (by omega) (by omega)),
    checked_of_holds (hi64 _ (by omega) (by omega))]
  exact congrArg some (by omega)

/-- `calendar_to_days` does not overflow on the years of an `i32`. -/
theorem calendarToDaysChecked_eq {y m d : Int} (hy : IntType.i32.Holds y) (hm : 1 ≤ m ∧ m ≤ 12)
    (hd : 1 ≤ d ∧ d ≤ 31) : calendarToDaysChecked y m d = some (calendarToDays y m d) := by
  rw [IntType.holds_i32] at hy
  rw [calendarToDays_march]
  unfold calendarToDaysChecked
  by_cases hm2 : m ≤ 2
  · simp only [if_pos hm2]
    rw [checked_bind (IntType.holds_i64 (by omega) (by omega)),
      checked_bind (IntType.holds_i64 (by omega) (by omega)),
      marchToDaysChecked_eq (by omega) (by omega) hd]
  · simp only [if_neg hm2]
    rw [checked_bind (IntType.holds_i64 (by omega) (by omega)),
      marchToDaysChecked_eq (by omega) (by omega) hd]

/-- The calendar of a clock reading is its date and time of day, without an overflow, and both
    directions agree on it. -/
structure CalendarExact (secs : Int) : Prop where
  calendar : ∃ c, epochSecsToCalendar checked secs = some c ∧ c.IsOf secs
  identity : ∀ c : CalendarTime, c.IsOf secs →
    calendarToDaysChecked c.year c.month c.day = some (secs / 86400) ∧
      epochSecsToCalendar checked secs = some c

/-- The calendar arithmetic is exact from March of the year -2147483600 to the end of the year
    2147483647, except on every leap day. -/
theorem calendarExact_iff (secs : Int64) :
    CalendarExact secs.toInt ↔ InYears (secs.toInt / 86400) ∧ ¬ LeapDay (secs.toInt / 86400) := by
  have hlow : -2 ^ 63 ≤ secs.toInt := secs.le_toInt
  have hhigh : secs.toInt < 2 ^ 63 := secs.toInt_lt
  generalize secs.toInt = secs at hlow hhigh
  constructor
  · rintro ⟨⟨c, hrun, hc⟩, -⟩
    obtain ⟨hfirst, hyear, -⟩ := epochSecsToCalendar_some hlow hhigh rfl rfl hrun
    rw [IntType.holds_i32] at hfirst hyear
    have hdate := hc.date
    refine ⟨⟨?_, ?_⟩, ?_⟩
    · change -5368709 * 146097 - 719468 ≤ secs / 86400
      omega
    · have hend : (⟨2147483648, 1, 1⟩ : Date).dayNumber = daysBeforeYear 2147483648 - 719162 := rfl
      have hin := hc.valid.inYear
      have := daysBeforeYear_mono (show c.date.year + 1 ≤ 2147483648 from hyear.2)
      omega
    · rintro ⟨y, hy, hnumber⟩
      have hnext := epochSecsToCalendar_leapDay hlow hhigh hy hnumber hrun
      have heq := hc.valid.ext_dayNumber (valid_leapDay hy) (hdate.trans hnumber.symm)
      exact absurd (congrArg Date.month (hnext.1.symm.trans heq)) (by simp)
  · rintro ⟨hyears, hleap⟩
    obtain ⟨c, hrun, hc⟩ := epochSecsToCalendar_of_inYears hlow hhigh hyears hleap
    refine ⟨⟨c, hrun, hc⟩, fun c' hc' => ?_⟩
    obtain rfl := hc.unique hc'
    refine ⟨?_, hrun⟩
    have hday := hc.valid.day
    have hmax := monthDays_le c.date.year c.date.month
    have hchecked := calendarToDaysChecked_eq (epochSecsToCalendar_some hlow hhigh rfl rfl hrun).2.1
      hc.valid.month ⟨hday.1, by omega⟩
    rw [calendarToDays_eq hc.valid.month] at hchecked
    exact hchecked.trans (congrArg some hc.date)

/-- On the 29th of February 2024 the day of the year is negative. -/
theorem not_calendarExact_leapDay : ¬ CalendarExact (1709164800 : Int64).toInt := by
  rintro ⟨⟨c, hrun, -⟩, -⟩
  have hpanic : epochSecsToCalendar checked (1709164800 : Int64).toInt = none := by decide
  rw [hpanic] at hrun
  exact absurd hrun (by simp)

/-- The first seconds of an `i64` are in an era that an `i32` holds no year of. -/
example : epochSecsToCalendar checked Int64.minValue.toInt = none := by decide

end Asx
