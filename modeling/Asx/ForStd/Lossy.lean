import Asx.ForStd.Bytes

/-!
# Reading bytes as text without failing

`String::from_utf8_lossy`: a byte sequence that no character has is replaced by U+FFFD, one
for each longest beginning of a character.
-/

namespace Utf8

/-- Whether `b` can be the second byte of a character that starts with `a` and has three or four
    bytes. -/
def second (a b : Nat) : Bool :=
  if a = 0xE0 then 0xA0 ≤ b && b < 0xC0
  else if a = 0xED then 0x80 ≤ b && b < 0xA0
  else if a = 0xF0 then 0x90 ≤ b && b < 0xC0
  else if a = 0xF4 then 0x80 ≤ b && b < 0x90
  else 0x80 ≤ b && b < 0xC0

/-- The number of bytes that one replacement character stands for, at the front of bytes that do
    not start with a character. -/
def brokenSize : Bytes → Nat
  | a :: b :: rest =>
    if 0xE0 ≤ a.toNat ∧ a.toNat < 0xF5 ∧ second a.toNat b.toNat then
      if 0xF0 ≤ a.toNat ∧ (rest.head?.bind continuation).isSome then 3 else 2
    else 1
  | _ => 1

/-- The characters of a byte string, with replacements; every round takes a byte. -/
def decodeLossy : Nat → Bytes → Str
  | _, [] => []
  | 0, _ :: _ => []
  | rounds + 1, b :: bs =>
    match decodeChar (b :: bs) with
    | some (c, size) => c :: decodeLossy rounds ((b :: bs).drop size)
    | none => Char.ofNat 0xFFFD :: decodeLossy rounds ((b :: bs).drop (brokenSize (b :: bs)))

/-- Where decoding succeeds nothing is replaced. -/
theorem decodeLossy_of_decode {rounds : Nat} {bs : Bytes} {s : Str}
    (h : decode rounds bs = some s) : decodeLossy rounds bs = s := by
  induction rounds generalizing bs s with
  | zero =>
    cases bs with
    | nil =>
      cases h
      rfl
    | cons b bs => cases h
  | succ rounds ih =>
    cases bs with
    | nil =>
      cases h
      rfl
    | cons b bs =>
      simp only [decode, Option.bind_eq_bind, Option.bind_eq_some_iff] at h
      obtain ⟨r, hr, rest, hrest, heq⟩ := h
      cases heq
      simp only [decodeLossy, hr, ih hrest]

end Utf8

/-- `String::from_utf8_lossy`. -/
def Str.fromUtf8Lossy (b : Bytes) : Str := Utf8.decodeLossy b.length b

theorem Str.fromUtf8Lossy_utf8 (s : Str) : Str.fromUtf8Lossy (Str.utf8 s) = s :=
  Utf8.decodeLossy_of_decode (Str.fromUtf8_utf8 s)
