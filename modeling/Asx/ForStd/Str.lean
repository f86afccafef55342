import Mathlib.Data.List.Lex
import Mathlib.Data.Char

/-!
# Text as lists of characters

A `str` is the list of its Unicode scalar values. Its byte order is the lexicographic
order of these lists, since UTF-8 keeps the order of code points, so the `LinearOrder`
instance of `List Char` is the order of `str::cmp`.

The functions below follow the documented behaviour of the `str` and `char` methods
whose names they carry.
-/

/-- A text, as the list of its characters. -/
abbrev Str := List Char

instance : LawfulBEq Str := inferInstance

namespace Str

/-- A text that is written out, as the characters of its own literal. -/
def written (l : Str) : { m : Str // (String.ofList l).toList = m } := ⟨l, String.toList_ofList⟩

/-- A literal. It stands for its list of characters, which is written out when the literal
    is elaborated, so that evaluating it takes no decoding. -/
def lit (s : String) (chars : { l : Str // s.toList = l } := by exact Str.written _) : Str :=
  chars.1

/-! ## Characters -/

/-- `char::is_whitespace`: the Unicode property `White_Space`. -/
def isWhitespace (c : Char) : Bool :=
  let n := c.toNat
  (0x09 ≤ n && n ≤ 0x0D) || n == 0x20 || n == 0x85 || n == 0xA0 || n == 0x1680 ||
    (0x2000 ≤ n && n ≤ 0x200A) || n == 0x2028 || n == 0x2029 || n == 0x202F ||
    n == 0x205F || n == 0x3000

/-- `char::is_control`: the general category `Cc`. -/
def isControl (c : Char) : Bool :=
  let n := c.toNat
  n ≤ 0x1F || (0x7F ≤ n && n ≤ 0x9F)

/-- `char::is_ascii_control`. -/
def isAsciiControl (c : Char) : Bool :=
  let n := c.toNat
  n ≤ 0x1F || n == 0x7F

/-- `char::is_ascii`. -/
def isAscii (c : Char) : Bool := c.toNat < 0x80

/-- `char::is_ascii_whitespace`. -/
def isAsciiWhitespace (c : Char) : Bool :=
  c == ' ' || c == '\t' || c == '\n' || c == '\x0c' || c == '\r'

/-- `char::is_ascii_alphabetic`. -/
def isAsciiAlphabetic (c : Char) : Bool :=
  ('a' ≤ c && c ≤ 'z') || ('A' ≤ c && c ≤ 'Z')

/-- `char::is_ascii_digit`. -/
def isAsciiDigit (c : Char) : Bool := '0' ≤ c && c ≤ '9'

/-- `char::is_ascii_alphanumeric`. -/
def isAsciiAlphanumeric (c : Char) : Bool := isAsciiAlphabetic c || isAsciiDigit c

/-- `char::to_ascii_lowercase`. -/
def toAsciiLower (c : Char) : Char :=
  if 'A' ≤ c && c ≤ 'Z' then Char.ofNat (c.toNat + 32) else c

/-- `str::eq_ignore_ascii_case`. -/
def eqIgnoreAsciiCase (s t : Str) : Bool := s.map toAsciiLower == t.map toAsciiLower

/-! ## Trimming and splitting -/

/-- `str::trim_start`. -/
def trimStart (s : Str) : Str := s.dropWhile isWhitespace

/-- `str::trim_end`. -/
def trimEnd (s : Str) : Str := (s.reverse.dropWhile isWhitespace).reverse

/-- `str::trim`: without leading and trailing white space. -/
def trim (s : Str) : Str := trimEnd (trimStart s)

/-- `str::strip_prefix`. -/
def stripPrefix (p s : Str) : Option Str := if p.isPrefixOf s then some (s.drop p.length) else none

/-- `str::strip_suffix`. -/
def stripSuffix (p s : Str) : Option Str :=
  if p.isSuffixOf s then some (s.take (s.length - p.length)) else none

/-- `str::trim_start_matches` with a text: the text is removed as often as it stands at the
    start. It is not empty at any use, so every removal shortens the rest. -/
def trimStartMatches (p s : Str) : Str := go s.length s
where
  go : Nat → Str → Str
    | 0, s => s
    | n + 1, s =>
      match stripPrefix p s with
      | some r => go n r
      | none => s

/-- `str::trim_end_matches` with a character. -/
def trimEndChar (c : Char) (s : Str) : Str := (s.reverse.dropWhile (· == c)).reverse

/-- `str::split_ascii_whitespace`: `word` holds the characters of the current word, last
    first. -/
def splitAsciiWhitespace (s : Str) : List Str := go [] s
where
  go (word : Str) : Str → List Str
    | [] => if word = [] then [] else [word.reverse]
    | c :: s =>
      if isAsciiWhitespace c then
        if word = [] then go [] s else word.reverse :: go [] s
      else go (c :: word) s

/-- `str::split` with a character: the pieces between its occurrences, at least one. -/
def splitChar (c : Char) : Str → List Str
  | [] => [[]]
  | x :: s =>
    if x = c then [] :: splitChar c s
    else
      match splitChar c s with
      | [] => [[x]]
      | piece :: pieces => (x :: piece) :: pieces

/-- `str::split_once` with a character. -/
def splitOnce (c : Char) : Str → Option (Str × Str)
  | [] => none
  | x :: s => if x = c then some ([], s) else (splitOnce c s).map fun r => (x :: r.1, r.2)

/-- `str::lines`. -/
def lines (s : Str) : List Str :=
  let pieces := splitChar '\n' s
  let ended := pieces.dropLast.map fun l => (stripSuffix ['\r'] l).getD l
  match pieces.getLast? with
  | none | some [] => ended
  | some l => ended ++ [l]

/-- `str::trim_matches` with a character. -/
def trimChar (c : Char) (s : Str) : Str := trimEndChar c (s.dropWhile (· == c))

/-- `str::to_ascii_lowercase`. -/
def toAsciiLowercase (s : Str) : Str := s.map toAsciiLower

/-- `str::to_ascii_uppercase`. -/
def toAsciiUppercase (s : Str) : Str :=
  s.map fun c => if 'a' ≤ c && c ≤ 'z' then Char.ofNat (c.toNat - 32) else c

/-- The hexadecimal digits of a number, without leading zeros. -/
def hexNat (n : Nat) : Str := Nat.toDigits 16 n

/-- One character of a `Debug` text. Characters beyond ASCII are taken as printable. -/
def debugChar (c : Char) : Str :=
  if c = '\x00' then ['\\', '0']
  else if c = '\t' then ['\\', 't']
  else if c = '\n' then ['\\', 'n']
  else if c = '\r' then ['\\', 'r']
  else if c = '"' then ['\\', '"']
  else if c = '\\' then ['\\', '\\']
  else if isControl c then ['\\', 'u', '\x7b'] ++ hexNat c.toNat ++ ['\x7d']
  else [c]

/-- The `Debug` form of a text. -/
def debug (s : Str) : Str := ['"'] ++ s.flatMap debugChar ++ ['"']

/-- `str::split_whitespace` followed by `collect` into one text: every white space character
    is dropped. -/
def withoutWhitespace (s : Str) : Str := s.filter fun c => !isWhitespace c

/-- The part of `s` before the last occurrence of `c`, as `&s[..i]` for
    `s.rfind(c) = Some(i)`; `none` when `c` does not occur. -/
def beforeLast (c : Char) : Str → Option Str
  | [] => none
  | x :: xs =>
    match beforeLast c xs with
    | some r => some (x :: r)
    | none => if x = c then some [] else none

/-- Without the character there is nothing before its last occurrence. -/
theorem beforeLast_eq_none {c : Char} {s : Str} (h : c ∉ s) : beforeLast c s = none := by
  induction s with
  | nil => rfl
  | cons x xs ih =>
    simp only [List.mem_cons, not_or] at h
    simp only [beforeLast, ih h.2, if_neg (Ne.symm h.1)]

/-- The last occurrence is the one that the rest does not follow with another. -/
theorem beforeLast_append_cons {c : Char} (s : Str) {t : Str} (h : c ∉ t) :
    beforeLast c (s ++ c :: t) = some s := by
  induction s with
  | nil => simp [beforeLast, beforeLast_eq_none h]
  | cons x xs ih => simp [beforeLast, ih]

end Str
