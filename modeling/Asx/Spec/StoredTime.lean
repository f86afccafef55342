import Asx.ForStd.Ascii
import Asx.Spec.Rfc3339

/-!
# The stored form of a time

The audit record keeps `recorded_at` with three digits after the point. The parser of this form
goes through the one of timestamps, and so it passes what the formatter never writes; and the
formatter has no date for a leap day.

## Key results
- `formatRfc3339Millis_isOf`: what the formatter writes
- `parseRfc3339Millis_iff`: what the parser accepts
- `storedTimeExact_iff`: the strings and the times on which one inverts the other
-/

namespace Asx

open Gregorian

/-! ## Digits -/

theorem showNat_of_lt {n : Nat} (h : n < 10) : showNat n = [Nat.digitChar n] := by
  rw [showNat, Nat.toString_eq_repr, Nat.repr, String.toList_ofList, Nat.toDigits_of_lt_base h]

/-- A number is written digit by digit. -/
theorem showNat_step {n : Nat} (h : 10 ≤ n) :
    showNat n = showNat (n / 10) ++ [Nat.digitChar (n % 10)] := by
  have hmod : n % 10 < 10 := Nat.mod_lt _ (by decide)
  have hstep := Nat.toDigits_append_toDigits (b := 10) (n := n / 10) (d := n % 10) (by decide)
    (by omega) hmod
  rw [Nat.toDigits_of_lt_base hmod, Nat.div_add_mod] at hstep
  rw [showNat, showNat, Nat.toString_eq_repr, Nat.toString_eq_repr, Nat.repr, Nat.repr,
    String.toList_ofList, String.toList_ofList, hstep]

theorem utf8_digitChar {d : Nat} (h : d < 10) :
    Str.utf8 [Nat.digitChar d] = [.ofNat (48 + d)] := by
  have hall : ∀ d : Fin 10, Str.utf8 [Nat.digitChar d] = [.ofNat (48 + d)] := by decide
  exact hall ⟨d, h⟩

theorem fixedDigits_zero (k : Nat) : fixedDigits k 0 = List.replicate k 48 := by
  induction k with
  | zero => rfl
  | succ k ih => rw [fixedDigits, ih, List.replicate_succ']; rfl

theorem utf8_replicate_zero (k : Nat) :
    Str.utf8 (List.replicate k '0') = List.replicate k 48 := by
  induction k with
  | zero => rfl
  | succ k ih =>
    rw [List.replicate_succ, List.replicate_succ, ← ih, ← List.singleton_append, Str.utf8_append]
    rfl

/-- A number with leading zeros. -/
theorem utf8_leftpad {k n : Nat} (h : n < 10 ^ (k + 1)) :
    Str.utf8 (List.leftpad (k + 1) '0' (showNat n)) = fixedDigits (k + 1) n := by
  induction k generalizing n with
  | zero =>
    have hn : n < 10 := by simpa using h
    rw [showNat_of_lt hn, fixedDigits, Nat.mod_eq_of_lt hn]
    exact utf8_digitChar hn
  | succ k ih =>
    have hmod : n % 10 < 10 := Nat.mod_lt _ (by decide)
    rw [fixedDigits]
    by_cases hn : n < 10
    · rw [showNat_of_lt hn, List.leftpad, List.length_singleton, Str.utf8_append,
        utf8_replicate_zero, utf8_digitChar hn, Nat.div_eq_of_lt hn, fixedDigits_zero,
        Nat.mod_eq_of_lt hn, Nat.add_sub_cancel]
    · have hdiv : n / 10 < 10 ^ (k + 1) := by
        rw [Nat.pow_succ] at h
        omega
      have hpad : List.leftpad (k + 1 + 1) '0' (showNat n) =
          List.leftpad (k + 1) '0' (showNat (n / 10)) ++ [Nat.digitChar (n % 10)] := by
        rw [showNat_step (by omega), List.leftpad, List.leftpad, List.length_append,
          List.length_singleton, Nat.add_sub_add_right, List.append_assoc]
      rw [hpad, Str.utf8_append, ih hdiv, utf8_digitChar hmod]

/-- A padded number is its digits at that width. -/
theorem utf8_paddedInt {k : Nat} {x : Int} (h0 : 0 ≤ x) (h : x < 10 ^ (k + 1)) :
    Str.utf8 (paddedInt (k + 1) x) = fixedDigits (k + 1) x.toNat := by
  rw [paddedInt, if_neg (by omega), show x.natAbs = x.toNat by omega]
  exact utf8_leftpad ((Int.toNat_lt h0).mpr (by rwa [Int.natCast_pow]))

/-! ## The stored form -/

/-- The fields and the milliseconds, as they are stored. -/
def storedText (f : Fields) (ms : Nat) : Bytes := f.bytes ++ 46 :: (fixedDigits 3 ms ++ [90])

/-- The instant of a stored text. -/
def storedTime (f : Fields) (ms : Nat) : Int := f.seconds * nanosPerSec + ms * 1000000

/-- The digits of a list of three bytes and what surrounds them. -/
theorem stored_tail {t : Bytes} {ms : Int} (hlength : t.length = 5) (hpoint : t[0]? = some 46)
    (hzone : t[4]? = some 90) (h : parseFixed 3 ((t.drop 1).take 3) = some ms) :
    ∃ n : Nat, n < 1000 ∧ ms = n ∧ t = 46 :: (fixedDigits 3 n ++ [90]) := by
  obtain ⟨n, hn, hms, hdigits⟩ := parseFixed_eq_some.mp h
  refine ⟨n, hn, hms, ?_⟩
  obtain _ | ⟨a, _ | ⟨b, _ | ⟨c, _ | ⟨d, _ | ⟨e, t⟩⟩⟩⟩⟩ := t
  iterate 5 exact absurd hlength (by simp)
  obtain rfl : t = [] := by simpa using hlength
  obtain rfl : a = 46 := by simpa using hpoint
  obtain rfl : e = 90 := by simpa using hzone
  rw [← hdigits]
  rfl

/-- What the parser of the stored form accepts. -/
theorem parseRfc3339Millis_iff {s : Str} {t : SystemTime} :
    parseRfc3339Millis s = some t ↔ ∃ f ms, s.utf8 = storedText f ms ∧ Fields.InRange f ∧
      ms < 1000 ∧ 0 ≤ f.seconds ∧ t = storedTime f ms := by
  have hparse : ∀ {f : Fields} {ms : Nat}, s.utf8 = storedText f ms → f.InRange → ms < 1000 →
      parseRfc3339ToUnixSecs s = some f.seconds := by
    intro f ms hs hf hms
    refine parseRfc3339ToUnixSecs_iff.mpr
      ⟨f, 46 :: fixedDigits 3 ms, [90], 0, [], ⟨?_, hf, ?_, .utc (.inl rfl)⟩, by omega⟩
    · rw [hs, storedText, List.append_nil, List.cons_append]
    · exact .digits fun c hc => isDigit_of_mem_fixedDigits hc
  unfold parseRfc3339Millis
  dsimp only
  constructor
  · intro h
    split at h
    · rw [bind_none_eq_some] at h
      exact h.elim
    rename_i hshape
    obtain ⟨v, hv, h⟩ := Option.bind_eq_some_iff.mp h
    obtain ⟨ms, hms, h⟩ := Option.bind_eq_some_iff.mp h
    split at h
    · rw [bind_none_eq_some] at h
      exact h.elim
    rename_i hpos
    obtain ⟨f, t', offset, hs, hf, -, -⟩ := parseRfc3339ToUnixSecs_eq_some.mp hv
    rw [not_or, not_or, not_not, not_not, not_not, hs] at hshape
    obtain ⟨hlength, hpoint, hzone⟩ := hshape
    rw [List.length_append, Fields.length_bytes] at hlength
    rw [List.getElem?_append_right (by simp), Fields.length_bytes] at hpoint hzone
    rw [hs, List.drop_append, List.drop_eq_nil_of_le (by simp), Fields.length_bytes,
      List.nil_append] at hms
    obtain ⟨n, hn, rfl, rfl⟩ := stored_tail (by omega) hpoint hzone hms
    have hstored : s.utf8 = storedText f n := hs
    rw [hparse hstored hf hn, Option.some.injEq] at hv
    subst hv
    exact ⟨f, n, hstored, hf, hn, by omega, (Option.some.inj h).symm⟩
  · rintro ⟨f, ms, hs, hf, hms, hpos, rfl⟩
    have hlength : (storedText f ms).length = 24 := by simp [storedText]
    have hpoint : (storedText f ms)[19]? = some 46 := by
      rw [storedText, List.getElem?_append_right (by simp), Fields.length_bytes]
      rfl
    have hzone : (storedText f ms)[23]? = some 90 := by
      rw [storedText, List.getElem?_append_right (by simp), Fields.length_bytes]
      rfl
    have hdigits : ((storedText f ms).drop 20).take 3 = fixedDigits 3 ms := by
      rw [storedText, List.drop_append, List.drop_eq_nil_of_le (by simp), Fields.length_bytes]
      exact List.take_left' (length_fixedDigits 3 ms)
    rw [hs, hlength, hpoint, hzone, if_neg (by simp), hparse hs hf hms, hdigits,
      parseFixed_fixedDigits hms]
    simp only [Option.bind_eq_bind, Option.bind_some]
    rw [if_neg (by omega)]
    rfl

/-! ## Formatting -/

/-- The seconds from the epoch to the end of the year 9999. -/
def endOfYears : Int := 253402300800

/-- The fields of a calendar time, as the formatter writes them. -/
def CalendarTime.fields (c : CalendarTime) : Fields :=
  ⟨c.year.toNat, c.month.toNat, c.day.toNat, 84, c.hour.toNat, c.min.toNat, c.sec.toNat⟩

/-- The years of the instants from the epoch to the end of the year 9999. -/
theorem Date.Valid.year_of_dayNumber {d : Date} (h : d.Valid) (h0 : 0 ≤ d.dayNumber)
    (hend : d.dayNumber < endOfYears / 86400) : 1970 ≤ d.year ∧ d.year ≤ 9999 := by
  obtain ⟨hlow, hhigh⟩ := h.inYear
  have hfirst : daysBeforeYear 1970 = 719162 := by decide
  have hlast : daysBeforeYear 10000 = 719162 + endOfYears / 86400 := by decide
  constructor
  · by_contra hlt
    have := daysBeforeYear_mono (show d.year + 1 ≤ 1970 by omega)
    omega
  · by_contra hlt
    have := daysBeforeYear_mono (show 10000 ≤ d.year by omega)
    omega

namespace CalendarTime.IsOf

variable {c : CalendarTime} {secs : Int}

/-- Every time until the year 9999 has a year of four digits. -/
theorem ranges (h : c.IsOf secs) (h0 : 0 ≤ secs) (hend : secs < endOfYears) :
    (1970 ≤ c.year ∧ c.year ≤ 9999) ∧ (1 ≤ c.month ∧ c.month ≤ 12) ∧ (1 ≤ c.day ∧ c.day ≤ 31) := by
  have hdate := h.date
  have hday := h.valid.day
  have hmax := monthDays_le c.date.year c.date.month
  have hend' : endOfYears = endOfYears / 86400 * 86400 := by decide
  exact ⟨Date.Valid.year_of_dayNumber h.valid (by omega) (by omega), h.valid.month, hday.1,
    Int.le_trans hday.2 hmax⟩

/-- The fields of such a time are in the ranges of the grammar. -/
theorem fields_inRange (h : c.IsOf secs) (h0 : 0 ≤ secs) (hend : secs < endOfYears) :
    c.fields.InRange := by
  obtain ⟨hyear, hmonth, hday⟩ := h.ranges h0 hend
  obtain ⟨-, -, hhour, hmin, hsec, -⟩ := h
  unfold fields
  exact ⟨by dsimp only; omega, by dsimp only; omega, by dsimp only; omega, .inl rfl,
    by dsimp only; omega, by dsimp only; omega, by dsimp only; omega⟩

/-- The fields of a time stand for its second. -/
theorem fields_seconds (h : c.IsOf secs) (h0 : 0 ≤ secs) (hend : secs < endOfYears) :
    c.fields.seconds = secs := by
  obtain ⟨hyear, hmonth, hday⟩ := h.ranges h0 hend
  obtain ⟨-, hdate, hhour, hmin, hsec, htime⟩ := h
  unfold Fields.seconds fields
  dsimp only
  rw [Int.toNat_of_nonneg (by omega), Int.toNat_of_nonneg (by omega),
    Int.toNat_of_nonneg (by omega), Int.toNat_of_nonneg hhour.1, Int.toNat_of_nonneg hmin.1,
    Int.toNat_of_nonneg hsec.1]
  change c.date.dayNumber * 86400 + _ + _ + _ = _
  omega

/-- The text of a time is that of its fields. -/
theorem utf8_text (h : c.IsOf secs) (h0 : 0 ≤ secs) (hend : secs < endOfYears) :
    c.text.utf8 = c.fields.bytes := by
  obtain ⟨hyear, hmonth, hday⟩ := h.ranges h0 hend
  obtain ⟨-, -, hhour, hmin, hsec, -⟩ := h
  unfold text Fields.bytes fields
  simp only [Str.utf8_append]
  rw [utf8_paddedInt (k := 3) (by omega) (by omega), utf8_paddedInt (k := 1) (by omega) (by omega),
    utf8_paddedInt (k := 1) (by omega) (by omega), utf8_paddedInt (k := 1) hhour.1 (by omega),
    utf8_paddedInt (k := 1) hmin.1 (by omega), utf8_paddedInt (k := 1) hsec.1 (by omega)]
  simp [show Str.utf8 ['-'] = [45] from rfl, show Str.utf8 ['T'] = [84] from rfl,
    show Str.utf8 [':'] = [58] from rfl]

end CalendarTime.IsOf

/-- What the formatter writes for the calendar of an instant. -/
theorem formatRfc3339Millis_isOf {t : Int} {c : CalendarTime} {shift : Int} (h0 : 0 ≤ t)
    (hrun : epochSecsToCalendar checked (t / nanosPerSec) = some c)
    (hc : c.IsOf (t / nanosPerSec + shift)) (hshift : 0 ≤ shift)
    (hend' : t / nanosPerSec + shift < endOfYears) :
    ∃ s, formatRfc3339Millis t = some s ∧
      s.utf8 = storedText c.fields (t % nanosPerSec / 1000000).toNat := by
  have hsecs0 : 0 ≤ t / nanosPerSec := Int.ediv_nonneg h0 (by decide)
  have hyears : endOfYears = 253402300800 := rfl
  have hms : 0 ≤ t % nanosPerSec / 1000000 ∧ t % nanosPerSec / 1000000 < 1000 := by
    rw [show nanosPerSec = 1000000000 from rfl]
    omega
  have hmax : max t 0 = t := by omega
  have hsecs : epochSecs t = t / nanosPerSec := by
    rw [epochSecs, hmax]
    exact IntType.wrap_of_holds (IntType.holds_i64 (by omega) (by omega))
  refine ⟨c.text ++ ['.'] ++ paddedInt 3 (t % nanosPerSec / 1000000) ++ ['Z'], ?_, ?_⟩
  · rw [formatRfc3339Millis, hsecs, hrun, hmax]
    rfl
  · simp only [Str.utf8_append]
    rw [hc.utf8_text (by omega) hend', utf8_paddedInt (k := 2) hms.1 hms.2, storedText]
    simp [show Str.utf8 ['.'] = [46] from rfl, show Str.utf8 ['Z'] = [90] from rfl]

/-- The formatter on an instant before the year 10000. -/
theorem formatRfc3339Millis_cases {t : Int} (h0 : 0 ≤ t) (hend : t / nanosPerSec < endOfYears) :
    (¬ LeapDay (t / nanosPerSec / 86400) ∧ ∃ (c : CalendarTime) (s : Str),
        c.IsOf (t / nanosPerSec) ∧ formatRfc3339Millis t = some s ∧
          s.utf8 = storedText c.fields (t % nanosPerSec / 1000000).toNat) ∨
      LeapDay (t / nanosPerSec / 86400) ∧ (formatRfc3339Millis t = none ∨
        ∃ (c : CalendarTime) (s : Str), c.IsOf (t / nanosPerSec + 86400) ∧
          t / nanosPerSec + 86400 < endOfYears ∧ formatRfc3339Millis t = some s ∧
            s.utf8 = storedText c.fields (t % nanosPerSec / 1000000).toNat) := by
  have hsecs0 : 0 ≤ t / nanosPerSec := Int.ediv_nonneg h0 (by decide)
  have hyears : endOfYears = 253402300800 := rfl
  have hlow : -2 ^ 63 ≤ t / nanosPerSec := by omega
  have hhigh : t / nanosPerSec < 2 ^ 63 := by omega
  by_cases hleap : LeapDay (t / nanosPerSec / 86400)
  · refine .inr ⟨hleap, ?_⟩
    cases hrun : epochSecsToCalendar checked (t / nanosPerSec) with
    | none =>
      left
      have hmax : max t 0 = t := by omega
      have hsecs : epochSecs t = t / nanosPerSec := by
        rw [epochSecs, hmax]
        exact IntType.wrap_of_holds (IntType.holds_i64 (by omega) (by omega))
      rw [formatRfc3339Millis, hsecs, hrun]
      rfl
    | some c =>
      right
      obtain ⟨y, hy, hday⟩ := hleap
      obtain ⟨hdate, hc⟩ := epochSecsToCalendar_leapDay hlow hhigh hy hday hrun
      have hend' : t / nanosPerSec + 86400 < endOfYears := by
        by_contra hge
        have hlast : (⟨9999, 12, 31⟩ : Date).dayNumber = endOfYears / 86400 - 1 := by decide
        have heq := @Date.Valid.ext_dayNumber _ ⟨9999, 12, 31⟩ (valid_leapDay hy) (by decide) (by omega)
        exact absurd (congrArg Date.month heq) (by simp)
      obtain ⟨s, hs, htext⟩ := formatRfc3339Millis_isOf h0 hrun hc (by omega) hend'
      exact ⟨c, s, hc, hend', hs, htext⟩
  · refine .inl ⟨hleap, ?_⟩
    have hyears : InYears (t / nanosPerSec / 86400) := by
      have hfirst : (⟨-2147483600, 3, 1⟩ : Date).dayNumber ≤ 0 := by decide
      have hlast : endOfYears / 86400 < (⟨2147483648, 1, 1⟩ : Date).dayNumber := by decide
      constructor <;> omega
    obtain ⟨c, hrun, hc⟩ := epochSecsToCalendar_of_inYears hlow hhigh hyears hleap
    have hc0 : c.IsOf (t / nanosPerSec + 0) := by rwa [Int.add_zero]
    obtain ⟨s, hs, htext⟩ := formatRfc3339Millis_isOf h0 hrun hc0 (by omega) (by omega)
    exact ⟨c, s, hc, hs, htext⟩

/-! ## Exactness -/

theorem append_cons_inj {p p' t t' : Bytes} {x x' : UInt8} (hlength : p.length = p'.length)
    (h : p ++ x :: t = p' ++ x' :: t') : p = p' ∧ x = x' ∧ t = t' := by
  obtain ⟨hp, ht⟩ := List.append_inj h hlength
  exact ⟨hp, List.cons.inj ht⟩

/-- Fields are read off their text. -/
theorem Fields.bytes_inj {f f' : Fields} (hf : f.InRange) (hf' : f'.InRange)
    (h : f.bytes = f'.bytes) : f = f' := by
  obtain ⟨hyear, -, h⟩ := append_cons_inj (by simp) h
  obtain ⟨hmonth, -, h⟩ := append_cons_inj (by simp) h
  obtain ⟨hday, hsep, h⟩ := append_cons_inj (by simp) h
  obtain ⟨hhour, -, h⟩ := append_cons_inj (by simp) h
  obtain ⟨hmin, -, hsec⟩ := append_cons_inj (by simp) h
  obtain ⟨ryear, rmonth, rday, -, rhour, rmin, rsec⟩ := hf
  obtain ⟨ryear', rmonth', rday', -, rhour', rmin', rsec'⟩ := hf'
  cases f
  cases f'
  dsimp only at *
  rw [Fields.mk.injEq]
  exact ⟨fixedDigits_inj (by omega) (by omega) hyear, fixedDigits_inj (by omega) (by omega) hmonth,
    fixedDigits_inj (by omega) (by omega) hday, hsep,
    fixedDigits_inj (by omega) (by omega) hhour, fixedDigits_inj (by omega) (by omega) hmin,
    fixedDigits_inj (by omega) (by omega) hsec⟩

/-- Stored texts tell seconds apart. -/
theorem storedText_inj {f f' : Fields} {ms ms' : Nat} (hf : f.InRange) (hf' : f'.InRange)
    (h : storedText f ms = storedText f' ms') : f = f' :=
  Fields.bytes_inj hf hf' (append_cons_inj (by simp) h).1

/-- A stored text that the parser passes and the formatter does not write: the letter is small,
    the second is the sixtieth, the month has no such day, or the day is a 29th of February. -/
def Misread (s : Str) : Prop :=
  ∃ f ms, s.utf8 = storedText f ms ∧ Fields.InRange f ∧ ms < 1000 ∧ 0 ≤ f.seconds ∧
    (f.sep = 116 ∨ f.sec = 60 ∨ monthDays f.year f.month < f.day ∨ f.month = 2 ∧ f.day = 29)

/-- A stored time has the seconds of its fields, and its milliseconds. -/
theorem storedTime_div (f : Fields) {ms : Nat} (h : ms < 1000) :
    storedTime f ms / nanosPerSec = f.seconds ∧
      (storedTime f ms % nanosPerSec / 1000000).toNat = ms := by
  rw [storedTime, show nanosPerSec = 1000000000 from rfl]
  constructor <;> omega

/-- The fields of the grammar end with the year 9999. -/
theorem Fields.InRange.seconds_le {f : Fields} (h : f.InRange) : f.seconds ≤ endOfYears := by
  have hlast : daysBeforeYear 10000 = 719162 + endOfYears / 86400 := by decide
  have hyears : endOfYears = endOfYears / 86400 * 86400 := by decide
  obtain ⟨ryear, rmonth, rday, -, rhour, rmin, rsec⟩ := h
  have hmonth : daysBeforeMonth f.year f.month ≤ daysBeforeMonth f.year 12 := by
    obtain hlt | heq : (f.month : Int) < 12 ∨ (f.month : Int) = 12 := by omega
    · have := daysBeforeMonth_mono f.year (by omega) hlt (Int.le_refl 12)
      have := monthDays_pos f.year f.month
      omega
    · rw [heq]
  have hnext := daysBeforeYear_succ f.year
  have hdec : monthDays f.year 12 = 31 := rfl
  have hten := daysBeforeYear_mono (show (f.year : Int) + 1 ≤ 10000 by omega)
  unfold Fields.seconds Date.dayNumber
  dsimp only
  omega

/-- The first second of the year 10000 takes a place more. -/
theorem formatRfc3339Millis_endOfYears {t : Int} {s : Str} (ht : t / nanosPerSec = endOfYears)
    (h : formatRfc3339Millis t = some s) : s.utf8[4]? = some 48 := by
  have hpos : 0 < t := by
    by_contra hneg
    rw [show nanosPerSec = 1000000000 from rfl, show endOfYears = 253402300800 from rfl] at ht
    omega
  have hmax : max t 0 = t := by omega
  have hsecs : epochSecs t = endOfYears := by
    rw [epochSecs, hmax, ht]
    rfl
  have hrun : epochSecsToCalendar checked endOfYears = some ⟨10000, 1, 1, 0, 0, 0⟩ := by decide
  rw [formatRfc3339Millis, hsecs, hrun, Option.bind_eq_bind, Option.bind_some] at h
  obtain rfl := Option.some.inj h
  have hyear : (paddedInt 4 10000).utf8 = [49, 48, 48, 48, 48] := by decide
  unfold CalendarTime.text
  simp only [Str.utf8_append, hyear, List.append_assoc]
  rfl

/-- A text that is misread is not what the formatter writes. -/
theorem formatRfc3339Millis_ne_of_misread {s : Str} {f : Fields} {ms : Nat}
    (hs : s.utf8 = storedText f ms) (hf : f.InRange) (hms : ms < 1000) (h0 : 0 ≤ f.seconds)
    (hflaw : f.sep = 116 ∨ f.sec = 60 ∨ monthDays f.year f.month < f.day ∨
      f.month = 2 ∧ f.day = 29) : formatRfc3339Millis (storedTime f ms) ≠ some s := by
  intro hformat
  obtain ⟨hdiv, hmod⟩ := storedTime_div f hms
  have hpos : 0 ≤ storedTime f ms := by
    rw [storedTime, show nanosPerSec = 1000000000 from rfl]
    omega
  by_cases hend : f.seconds < endOfYears
  · obtain ⟨hleap, c, s', hc, hs', htext⟩ | ⟨-, hnone | ⟨c, s', hc, hend', hs', htext⟩⟩ :=
      formatRfc3339Millis_cases hpos (by rwa [hdiv])
    · rw [hdiv] at hleap hc
      obtain rfl := Option.some.inj (hformat.symm.trans hs')
      obtain rfl := storedText_inj hf (hc.fields_inRange h0 hend) (hs.symm.trans htext)
      obtain ⟨hyear, hmonth, hday⟩ := hc.ranges h0 hend
      have hy : (c.year.toNat : Int) = c.year := Int.toNat_of_nonneg (by omega)
      have hm : (c.month.toNat : Int) = c.month := Int.toNat_of_nonneg (by omega)
      have hd : (c.day.toNat : Int) = c.day := Int.toNat_of_nonneg (by omega)
      have hvalid := hc.valid.day
      have hsec := hc.sec
      unfold CalendarTime.fields at hflaw
      dsimp only at hflaw
      rw [hy, hm, hd] at hflaw
      obtain hsep | hsec' | hlong | ⟨hfeb, hlast⟩ := hflaw
      · exact absurd hsep (by decide)
      · omega
      · exact absurd hvalid.2 (Int.not_le.mpr hlong)
      · have hm2 : c.month = 2 := by omega
        have hd29 : c.day = 29 := by omega
        have hdate : c.date = ⟨c.year, 2, 29⟩ := by rw [CalendarTime.date, hm2, hd29]
        refine hleap ⟨c.year, ?_, ?_⟩
        · by_contra hnot
          rw [hdate] at hvalid
          simp [monthDays, februaryDays, hnot] at hvalid
        · rw [← hdate, hc.date]
    · exact absurd (hformat.symm.trans hnone) (by simp)
    · rw [hdiv] at hc hend'
      obtain rfl := Option.some.inj (hformat.symm.trans hs')
      obtain rfl := storedText_inj hf (hc.fields_inRange (by omega) hend') (hs.symm.trans htext)
      have hshift := hc.fields_seconds (by omega) hend'
      omega
  · have hlast : f.seconds = endOfYears := Int.le_antisymm hf.seconds_le (Int.not_lt.mp hend)
    have hzero := formatRfc3339Millis_endOfYears (hdiv.trans hlast) hformat
    obtain ⟨b0, b1, b2, b3, b5, b6, b8, b9, b11, b12, b14, b15, b17, b18, hbytes, -⟩ := f.bytes_eq
    rw [hs, storedText, hbytes] at hzero
    exact absurd hzero (by simp)

/-- The stored form is read and written back exactly, except for a text that is misread. -/
theorem parseRfc3339Millis_written_iff (s : Str) :
    (∀ t, parseRfc3339Millis s = some t → formatRfc3339Millis t = some s) ↔ ¬ Misread s := by
  constructor
  · rintro hexact ⟨f, ms, hs, hf, hms, h0, hflaw⟩
    exact formatRfc3339Millis_ne_of_misread hs hf hms h0 hflaw
      (hexact _ (parseRfc3339Millis_iff.mpr ⟨f, ms, hs, hf, hms, h0, rfl⟩))
  · intro hread t ht
    obtain ⟨f, ms, hs, hf, hms, h0, rfl⟩ := parseRfc3339Millis_iff.mp ht
    obtain ⟨hdiv, hmod⟩ := storedTime_div f hms
    have hpos : 0 ≤ storedTime f ms := by
      rw [storedTime, show nanosPerSec = 1000000000 from rfl]
      omega
    have hflaw : ¬ (f.sep = 116 ∨ f.sec = 60 ∨ monthDays f.year f.month < f.day ∨
        f.month = 2 ∧ f.day = 29) := fun hflaw => hread ⟨f, ms, hs, hf, hms, h0, hflaw⟩
    rw [not_or, not_or, not_or] at hflaw
    obtain ⟨hsep, hsec, hday, hfeb⟩ := hflaw
    obtain ⟨ryear, rmonth, rday, rsep, rhour, rmin, rsec⟩ := hf
    have hsep' : f.sep = 84 := rsep.resolve_right hsep
    -- the calendar that was written
    have hvalid : (⟨f.year, f.month, f.day⟩ : Date).Valid :=
      ⟨⟨by dsimp only; omega, by dsimp only; omega⟩, by dsimp only; omega, Int.not_lt.mp hday⟩
    have hc : (⟨f.year, f.month, f.day, f.hour, f.min, f.sec⟩ : CalendarTime).IsOf f.seconds := by
      unfold Fields.seconds
      exact ⟨hvalid, by dsimp only [CalendarTime.date]; omega, by dsimp only; omega,
        by dsimp only; omega, by dsimp only; omega, by dsimp only; omega⟩
    have hend : f.seconds < endOfYears := by
      have hyear := hvalid.inYear.2
      have hlast : daysBeforeYear 10000 = 719162 + endOfYears / 86400 := by decide
      have hyears : endOfYears = endOfYears / 86400 * 86400 := by decide
      have := daysBeforeYear_mono (show (f.year : Int) + 1 ≤ 10000 by omega)
      have hdate := hc.date
      dsimp only [CalendarTime.date] at hdate hyear
      omega
    have hleap : ¬ LeapDay (f.seconds / 86400) := by
      rintro ⟨y, hy, hnumber⟩
      have hdate := @Date.Valid.ext_dayNumber _ ⟨y, 2, 29⟩ hvalid (valid_leapDay hy)
        (hc.date.trans hnumber.symm)
      rw [Date.mk.injEq] at hdate
      exact hfeb ⟨by omega, by omega⟩
    obtain ⟨-, c, s', hc', hs', htext⟩ | ⟨hleap', -⟩ :=
      formatRfc3339Millis_cases hpos (by rwa [hdiv])
    · rw [hdiv] at hc'
      obtain rfl := hc.unique hc'
      rw [hs', Option.some.injEq]
      apply Str.utf8_injective
      rw [htext, hs, hmod]
      congr 1
      cases f
      dsimp only at hsep'
      rw [hsep']
      rfl
    · rw [hdiv] at hleap'
      exact absurd hleap' hleap

/-- Whole seconds may be added before or after the truncation. -/
theorem truncate_add (t shift : Int) : t / 1000000 * 1000000 + shift * nanosPerSec =
    (t / nanosPerSec + shift) * nanosPerSec + t % nanosPerSec / 1000000 * 1000000 := by
  rw [show nanosPerSec = 1000000000 from rfl]
  omega

/-- A time is stored and read back to its milliseconds, except on a leap day. -/
theorem formatRfc3339Millis_read_iff {t : Int} (h0 : 0 ≤ t) (hend : t / nanosPerSec < endOfYears) :
    (formatRfc3339Millis t).bind parseRfc3339Millis = some (t / 1000000 * 1000000) ↔
      ¬ LeapDay (t / nanosPerSec / 86400) := by
  have hsecs0 : 0 ≤ t / nanosPerSec := Int.ediv_nonneg h0 (by decide)
  have hms : 0 ≤ t % nanosPerSec / 1000000 ∧ t % nanosPerSec / 1000000 < 1000 := by
    rw [show nanosPerSec = 1000000000 from rfl]
    omega
  have hread : ∀ {c : CalendarTime} {s : Str} {shift : Int},
      c.IsOf (t / nanosPerSec + shift) → 0 ≤ shift → t / nanosPerSec + shift < endOfYears →
        s.utf8 = storedText c.fields (t % nanosPerSec / 1000000).toNat →
          parseRfc3339Millis s = some (t / 1000000 * 1000000 + shift * nanosPerSec) := by
    intro c s shift hc hshift hshiftEnd htext
    have hseconds := hc.fields_seconds (by omega) hshiftEnd
    refine parseRfc3339Millis_iff.mpr ⟨c.fields, _, htext, hc.fields_inRange (by omega) hshiftEnd,
      by omega, by omega, ?_⟩
    rw [storedTime, hseconds, Int.toNat_of_nonneg hms.1]
    exact truncate_add t shift
  obtain ⟨hleap, c, s, hc, hs, htext⟩ | ⟨hleap, hnone | ⟨c, s, hc, hend', hs, htext⟩⟩ :=
    formatRfc3339Millis_cases h0 hend
  · have hc0 : c.IsOf (t / nanosPerSec + 0) := by rwa [Int.add_zero]
    rw [hs, Option.bind_some, hread hc0 (by omega) (by omega) htext]
    simp [hleap]
  · rw [hnone]
    simp [hleap]
  · rw [hs, Option.bind_some, hread hc (by omega) hend' htext]
    refine iff_of_false (fun hsame => ?_) (not_not.mpr hleap)
    have hshift := Option.some.inj hsame
    have hzero : 86400 * nanosPerSec = 0 := by
      have : ∀ x d : Int, x + d = x → d = 0 := fun x d h => by omega
      exact this _ _ hshift
    exact absurd hzero (by decide)

/-- Reading the stored form and writing it again gives the same text, and a time that is written
    and read again is cut to milliseconds: the first holds exactly for a text that is not misread,
    the second exactly for a time that is not on a leap day. -/
theorem storedTimeExact_iff (s : Str) (t : SystemTime) (h0 : 0 ≤ t)
    (hend : t / nanosPerSec < endOfYears) :
    ((∀ u, parseRfc3339Millis s = some u → formatRfc3339Millis u = some s) ↔ ¬ Misread s) ∧
      ((formatRfc3339Millis t).bind parseRfc3339Millis = some (t / 1000000 * 1000000) ↔
        ¬ LeapDay (t / nanosPerSec / 86400)) :=
  ⟨parseRfc3339Millis_written_iff s, formatRfc3339Millis_read_iff h0 hend⟩

/-- A stored time, and the moment it names with some microseconds more. -/
theorem storedTimeExact_march :
    ((∀ u, parseRfc3339Millis (Str.lit "2026-03-05T12:34:56.789Z") = some u →
        formatRfc3339Millis u = some (Str.lit "2026-03-05T12:34:56.789Z")) ↔
      ¬ Misread (Str.lit "2026-03-05T12:34:56.789Z")) ∧
    ((formatRfc3339Millis 1772714096789012345).bind parseRfc3339Millis =
        some 1772714096789000000 ↔ ¬ LeapDay 20517) :=
  storedTimeExact_iff (Str.lit "2026-03-05T12:34:56.789Z") 1772714096789012345 (by decide)
    (by decide)

/-- A day that February does not have is read, and written as a day of March. -/
theorem not_storedTimeExact_february :
    ¬ ∀ t, parseRfc3339Millis (Str.lit "2026-02-31T00:00:00.000Z") = some t →
      formatRfc3339Millis t = some (Str.lit "2026-02-31T00:00:00.000Z") := by
  intro hexact
  refine @formatRfc3339Millis_ne_of_misread _ ⟨2026, 2, 31, 84, 0, 0, 0⟩ 0 (by decide)
    (by constructor <;> decide) (by decide) (by decide) (by decide)
    (hexact _ (parseRfc3339Millis_iff.mpr ⟨⟨2026, 2, 31, 84, 0, 0, 0⟩, 0, by decide,
      by constructor <;> decide, by decide, by decide, rfl⟩))

end Asx
