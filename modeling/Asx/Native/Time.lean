import Asx.ForStd.Bytes

/-!
# RFC 3339 timestamps

`time_utils.rs`: the parser of inbound timestamps and its calendar arithmetic. A
`SystemTime` is a number of nanoseconds since the Unix epoch. The parsed fields have at
most four digits, so no `i64` operation of the parser can overflow and `Int` computes the
same values.
-/

namespace Asx

/-- A `SystemTime`, in nanoseconds since the Unix epoch. -/
abbrev SystemTime := Int

/-- Nanoseconds in a second. -/
def nanosPerSec : Int := 1000000000

/-- `unix_secs`: whole seconds, rounded towards the epoch. -/
def unixSecs (t : SystemTime) : Int := t.tdiv nanosPerSec

/-- `parse_fixed::<N>`: exactly `n` ASCII digits. -/
def parseFixed (n : Nat) (b : Bytes) : Option Int :=
  if b.length ≠ n then none
  else b.foldl (fun acc c => acc.bind fun v =>
    if 48 ≤ c ∧ c ≤ 57 then some (v * 10 + (c - 48).toNat) else none) (some 0)

/-- `calendar_to_days`. -/
def calendarToDays (y m d : Int) : Int :=
  let y := if m ≤ 2 then y - 1 else y
  let m := if m ≤ 2 then m + 9 else m - 3
  let era := y.ediv 400
  let yoe := y.emod 400
  let doy := (153 * m + 2).tdiv 5 + d - 1
  let doe := yoe * 365 + yoe.tdiv 4 - yoe.tdiv 100 + doy
  let z := era * 146097 + doe
  z - 719468

/-- The position after the optional fraction that may stand at `pos`. -/
def skipFraction (b : Bytes) (pos : Nat) : Nat :=
  if b[pos]? = some 46 then
    pos + 1 + ((b.drop (pos + 1)).takeWhile fun c => 48 ≤ c ∧ c ≤ 57).length
  else pos

/-- The offset in seconds that the zone designator at `pos` states. -/
def parseOffset (b : Bytes) (pos : Nat) : Option Int :=
  match b[pos]? with
  | some 90 | some 122 => some 0
  | some 43 | some 45 => do
    if b.length < pos + 6 then none
    let sign : Int := if b[pos]? = some 43 then 1 else -1
    let oh ← parseFixed 2 ((b.drop (pos + 1)).take 2)
    if b[pos + 3]? ≠ some 58 then none
    let om ← parseFixed 2 ((b.drop (pos + 4)).take 2)
    if oh > 23 ∨ om > 59 then none
    some (sign * (oh * 3600 + om * 60))
  | _ => none

/-- `parse_rfc3339_to_unix_secs`. -/
def parseRfc3339ToUnixSecs (s : Str) : Option Int := do
  let b := s.utf8
  if b.length < 20 then none
  if b[4]? ≠ some 45 ∨ b[7]? ≠ some 45 ∨ b[13]? ≠ some 58 ∨ b[16]? ≠ some 58 then none
  if b[10]? ≠ some 84 ∧ b[10]? ≠ some 116 then none
  let year ← parseFixed 4 (b.take 4)
  let month ← parseFixed 2 ((b.drop 5).take 2)
  let day ← parseFixed 2 ((b.drop 8).take 2)
  let hour ← parseFixed 2 ((b.drop 11).take 2)
  let min ← parseFixed 2 ((b.drop 14).take 2)
  let sec ← parseFixed 2 ((b.drop 17).take 2)
  let offsetSecs ← parseOffset b (skipFraction b 19)
  if ¬ (1 ≤ year ∧ year ≤ 9999) ∨ ¬ (1 ≤ month ∧ month ≤ 12) ∨ ¬ (1 ≤ day ∧ day ≤ 31) then none
  if hour > 23 ∨ min > 59 ∨ sec > 60 then none
  let days := calendarToDays year month day
  some (days * 86400 + hour * 3600 + min * 60 + sec - offsetSecs)

end Asx
