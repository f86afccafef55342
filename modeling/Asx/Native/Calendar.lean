import Asx.Native.Core
import Asx.Native.Time

/-!
# The calendar of a clock reading

`epoch_secs_to_calendar` and what goes through it: the two formatters of `time_utils.rs` and the
parser of the stored form. The function mixes four integer types; what an operation does with a
value that its type does not hold is an argument. With overflow checks it panics, without them the
value wraps. A cast wraps in both.
-/

namespace Asx

/-! ## Integer types -/

/-- The integer types of the calendar. -/
inductive IntType where
  | i64
  | i32
  | u64
  | u8
deriving DecidableEq, Repr

/-- The least value of a type. -/
def IntType.least : IntType → Int
  | .i64 => -2 ^ 63
  | .i32 => -2 ^ 31
  | .u64 => 0
  | .u8 => 0

/-- The number of the values of a type. -/
def IntType.count : IntType → Int
  | .i64 => 2 ^ 64
  | .i32 => 2 ^ 32
  | .u64 => 2 ^ 64
  | .u8 => 2 ^ 8

/-- A value that the type holds. -/
def IntType.Holds (t : IntType) (x : Int) : Prop := t.least ≤ x ∧ x < t.least + t.count

instance (t : IntType) (x : Int) : Decidable (t.Holds x) := inferInstanceAs (Decidable (_ ∧ _))

/-- `x as t`. -/
def IntType.wrap (t : IntType) (x : Int) : Int := (x - t.least) % t.count + t.least

/-- The result of an operation with overflow checks: `none` is a panic. -/
def checked (t : IntType) (x : Int) : Option Int := if t.Holds x then some x else none

/-- The result of an operation without overflow checks. -/
def wrapping (t : IntType) (x : Int) : Id Int := t.wrap x

/-! ## Calendar arithmetic -/

/-- A date and a time of day, as `epoch_secs_to_calendar` gives them. -/
structure CalendarTime where
  year : Int
  month : Int
  day : Int
  hour : Int
  min : Int
  sec : Int
deriving DecidableEq, Repr

section

variable {m : Type → Type} [Monad m] (fit : IntType → Int → m Int)

/-- `yoe`, from a `doe` of the type `u64`. -/
def yearOfEra (doe : Int) : m Int := do
  let a ← fit .u64 (doe - doe / 1461)
  let b ← fit .u64 (a + doe / 36524)
  let c ← fit .u64 (b - doe / 146096)
  pure (c / 365)

/-- `doy`. -/
def dayOfYear (doe yoe : Int) : m Int := do
  let a ← fit .u64 (365 * yoe)
  let b ← fit .u64 (a + yoe / 4)
  let c ← fit .u64 (b - yoe / 100)
  fit .u64 (doe - c)

/-- `mo` and `d`. -/
def monthAndDay (doy : Int) : m (Int × Int) := do
  let a ← fit .u64 (5 * doy)
  let b ← fit .u64 (a + 2)
  let mp := b / 153
  let e ← fit .u64 (153 * mp)
  let f ← fit .u64 (e + 2)
  let g ← fit .u64 (doy - f / 5)
  let d ← fit .u64 (g + 1)
  let mo ← if mp < 10 then fit .u8 (IntType.u8.wrap mp + 3) else fit .u8 (IntType.u8.wrap mp - 9)
  pure (mo, IntType.u8.wrap d)

/-- `epoch_secs_to_calendar`, for seconds of the type `i64`. -/
def epochSecsToCalendar (secs : Int) : m CalendarTime := do
  let z ← fit .i64 (secs / 86400 + 719468)
  let era := IntType.i32.wrap (z / 146097)
  let doe := IntType.u64.wrap (z % 146097)
  let yoe ← yearOfEra fit doe
  let first ← fit .i32 (era * 400)
  let y ← fit .i32 (IntType.i32.wrap yoe + first)
  let doy ← dayOfYear fit doe yoe
  let md ← monthAndDay fit doy
  let y ← if md.1 ≤ 2 then fit .i32 (y + 1) else pure y
  let tod := IntType.u64.wrap (secs % 86400)
  pure ⟨y, md.1, md.2, IntType.u8.wrap (tod / 3600), IntType.u8.wrap (tod % 3600 / 60),
    IntType.u8.wrap (tod % 60)⟩

end

/-- `calendar_to_days` after the shift of the year to March, with overflow checks. -/
def marchToDaysChecked (y m d : Int) : Option Int := do
  let era := y.ediv 400
  let yoe := y.emod 400
  let a ← checked .i64 (153 * m)
  let b ← checked .i64 (a + 2)
  let c ← checked .i64 (b.tdiv 5 + d)
  let doy ← checked .i64 (c - 1)
  let e ← checked .i64 (yoe * 365)
  let f ← checked .i64 (e + yoe.tdiv 4)
  let g ← checked .i64 (f - yoe.tdiv 100)
  let doe ← checked .i64 (g + doy)
  let h ← checked .i64 (era * 146097)
  let z ← checked .i64 (h + doe)
  checked .i64 (z - 719468)

/-- `calendar_to_days` with overflow checks. -/
def calendarToDaysChecked (y m d : Int) : Option Int :=
  if m ≤ 2 then do
    let y ← checked .i64 (y - 1)
    let m ← checked .i64 (m + 9)
    marchToDaysChecked y m d
  else do
    let m ← checked .i64 (m - 3)
    marchToDaysChecked y m d

/-! ## Formatting -/

/-- `{x:0k}`; a sign stands before the zeros and counts as one of the `k` places. -/
def paddedInt (k : Nat) (x : Int) : Str :=
  if x < 0 then '-' :: List.leftpad (k - 1) '0' (showNat x.natAbs)
  else List.leftpad k '0' (showNat x.natAbs)

/-- `{y:04}-{mo:02}-{d:02}T{h:02}:{mi:02}:{s:02}`. -/
def CalendarTime.text (c : CalendarTime) : Str :=
  paddedInt 4 c.year ++ ['-'] ++ paddedInt 2 c.month ++ ['-'] ++ paddedInt 2 c.day ++ ['T'] ++
    paddedInt 2 c.hour ++ [':'] ++ paddedInt 2 c.min ++ [':'] ++ paddedInt 2 c.sec

/-- The seconds since the epoch that a formatter shows; a time before the epoch is the epoch. -/
def epochSecs (t : SystemTime) : Int := IntType.i64.wrap (max t 0 / nanosPerSec)

/-- `format_rfc3339_secs` without overflow checks. -/
def formatRfc3339Secs (t : SystemTime) : Str :=
  (epochSecsToCalendar wrapping (epochSecs t)).run.text ++ ['Z']

/-- `format_rfc3339_millis` with overflow checks. -/
def formatRfc3339Millis (t : SystemTime) : Option Str := do
  let c ← epochSecsToCalendar checked (epochSecs t)
  let ms := max t 0 % nanosPerSec / 1000000
  pure (c.text ++ ['.'] ++ paddedInt 3 ms ++ ['Z'])

/-- `parse_rfc3339_millis`. -/
def parseRfc3339Millis (s : Str) : Option SystemTime := do
  let b := s.utf8
  if b.length ≠ 24 ∨ b[19]? ≠ some 46 ∨ b[23]? ≠ some 90 then none
  let secs ← parseRfc3339ToUnixSecs s
  let ms ← parseFixed 3 ((b.drop 20).take 3)
  if secs < 0 then none
  some (secs * nanosPerSec + ms * 1000000)

end Asx
