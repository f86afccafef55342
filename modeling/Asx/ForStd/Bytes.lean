import Mathlib.Algebra.Group.Int.Defs
import Mathlib.Algebra.Group.Nat.Defs
import Asx.ForStd.Str

/-!
# Octets

Byte strings, the UTF-8 encoding of a text and the standard base64 encoding with
canonical padding.
-/

/-- A byte string. -/
abbrev Bytes := List UInt8

instance : LawfulBEq Bytes := inferInstance

/-- `str::as_bytes`: the UTF-8 encoding. -/
def Str.utf8 (s : Str) : Bytes := s.flatMap String.utf8EncodeChar

namespace Utf8

/-- The six bits of a continuation byte. -/
def continuation (b : UInt8) : Option Nat :=
  if 0x80 ≤ b.toNat ∧ b.toNat < 0xC0 then some (b.toNat - 0x80) else none

/-- The character at the front of a byte string and the number of its bytes. Overlong forms,
    surrogates and numbers beyond the last code point are refused. -/
def decodeChar : Bytes → Option (Char × Nat)
  | a :: rest =>
    let x := a.toNat
    if x < 0x80 then some (Char.ofNat x, 1)
    else if x < 0xC0 then none
    else if x < 0xE0 then do
      let b ← continuation (← rest[0]?)
      let n := (x - 0xC0) * 64 + b
      if 0x80 ≤ n then some (Char.ofNat n, 2) else none
    else if x < 0xF0 then do
      let b ← continuation (← rest[0]?)
      let c ← continuation (← rest[1]?)
      let n := ((x - 0xE0) * 64 + b) * 64 + c
      if 0x800 ≤ n ∧ ¬ (0xD800 ≤ n ∧ n < 0xE000) then some (Char.ofNat n, 3) else none
    else if x < 0xF8 then do
      let b ← continuation (← rest[0]?)
      let c ← continuation (← rest[1]?)
      let d ← continuation (← rest[2]?)
      let n := (((x - 0xF0) * 64 + b) * 64 + c) * 64 + d
      if 0x10000 ≤ n ∧ n < 0x110000 then some (Char.ofNat n, 4) else none
    else none
  | [] => none

/-- The characters of a byte string; every one takes a byte, so its length bounds the number
    of rounds. -/
def decode : Nat → Bytes → Option Str
  | _, [] => some []
  | 0, _ :: _ => none
  | rounds + 1, b :: bs => do
    let (c, size) ← decodeChar (b :: bs)
    let rest ← decode rounds ((b :: bs).drop size)
    some (c :: rest)

theorem continuation_ofNat {n : Nat} (h : n < 64) : continuation (.ofNat (n + 0x80)) = some n := by
  have hv : (UInt8.ofNat (n + 0x80)).toNat = n + 0x80 := by
    rw [UInt8.toNat_ofNat']
    omega
  simp only [continuation, hv]
  rw [if_pos (by omega)]
  simp

/-- The encoding of a character is decoded to it. -/
theorem decodeChar_encode (c : Char) (rest : Bytes) :
    decodeChar (String.utf8EncodeChar c ++ rest) =
      some (c, (String.utf8EncodeChar c).length) := by
  have hlt : c.toNat < 0x110000 := by
    have := c.valid
    simp only [UInt32.isValidChar, Nat.isValidChar] at this
    show c.val.toNat < 0x110000
    omega
  have hsur : ¬ (0xD800 ≤ c.toNat ∧ c.toNat < 0xE000) := by
    have := c.valid
    simp only [UInt32.isValidChar, Nat.isValidChar] at this
    show ¬ (0xD800 ≤ c.val.toNat ∧ c.val.toNat < 0xE000)
    omega
  have hofNat : Char.ofNat c.toNat = c := Char.ofNat_toNat c
  unfold String.utf8EncodeChar
  rw [show c.val.toNat = c.toNat from rfl]
  generalize c.toNat = n at hlt hsur hofNat
  have hsmall : ∀ m, m < 0x100 → (UInt8.ofNat m).toNat = m := by
    intro m hm
    rw [UInt8.toNat_ofNat']
    omega
  dsimp only
  split
  · simp only [List.cons_append, List.nil_append, decodeChar, hsmall n (by omega)]
    rw [if_pos (by omega), hofNat]
    rfl
  · split
    · simp only [List.cons_append, List.nil_append, decodeChar,
        hsmall (n / 64 % 32 + 192) (by omega), List.getElem?_cons_zero, Option.bind_eq_bind,
        Option.bind_some, continuation_ofNat (Nat.mod_lt n (by omega : 0 < 64))]
      rw [if_neg (by omega), if_neg (by omega), if_pos (by omega),
        show (n / 64 % 32 + 192 - 192) * 64 + n % 64 = n by omega, if_pos (by omega), hofNat]
      rfl
    · split
      · simp only [List.cons_append, List.nil_append, decodeChar,
          hsmall (n / 4096 % 16 + 224) (by omega), List.getElem?_cons_zero,
          List.getElem?_cons_succ, Option.bind_eq_bind, Option.bind_some,
          continuation_ofNat (Nat.mod_lt n (by omega : 0 < 64)),
          continuation_ofNat (Nat.mod_lt (n / 64) (by omega : 0 < 64))]
        rw [if_neg (by omega), if_neg (by omega), if_neg (by omega), if_pos (by omega),
          show ((n / 4096 % 16 + 224 - 224) * 64 + n / 64 % 64) * 64 + n % 64 = n by omega,
          if_pos ⟨by omega, hsur⟩, hofNat]
        rfl
      · simp only [List.cons_append, List.nil_append, decodeChar,
          hsmall (n / 262144 % 8 + 240) (by omega), List.getElem?_cons_zero,
          List.getElem?_cons_succ, Option.bind_eq_bind, Option.bind_some,
          continuation_ofNat (Nat.mod_lt n (by omega : 0 < 64)),
          continuation_ofNat (Nat.mod_lt (n / 64) (by omega : 0 < 64)),
          continuation_ofNat (Nat.mod_lt (n / 4096) (by omega : 0 < 64))]
        rw [if_neg (by omega), if_neg (by omega), if_neg (by omega), if_neg (by omega),
          if_pos (by omega),
          show (((n / 262144 % 8 + 240 - 240) * 64 + n / 4096 % 64) * 64 + n / 64 % 64) * 64 +
            n % 64 = n by omega,
          if_pos (by omega), hofNat]
        rfl

theorem decode_utf8 {s : Str} {rounds : Nat} (h : (Str.utf8 s).length ≤ rounds) :
    decode rounds (Str.utf8 s) = some s := by
  induction s generalizing rounds with
  | nil => cases rounds <;> rfl
  | cons c s ih =>
    rw [Str.utf8, List.flatMap_cons] at h ⊢
    obtain ⟨b, bs, hbs⟩ := List.exists_cons_of_ne_nil (String.utf8EncodeChar_ne_nil (c := c))
    have hchar := decodeChar_encode c (s.flatMap String.utf8EncodeChar)
    rw [List.length_append] at h
    rw [hbs, List.cons_append] at hchar ⊢
    rw [hbs, List.length_cons] at h
    obtain ⟨rounds, rfl⟩ : ∃ k, rounds = k + 1 := ⟨rounds - 1, by omega⟩
    have hdrop : (b :: (bs ++ s.flatMap String.utf8EncodeChar)).drop (b :: bs).length = Str.utf8 s := by
      rw [← List.cons_append, List.drop_left]
      rfl
    simp only [decode, hchar, Option.bind_eq_bind, Option.bind_some, hdrop]
    rw [ih (by rw [Str.utf8]; omega)]
    rfl

end Utf8

/-- `str::from_utf8`. -/
def Str.fromUtf8 (b : Bytes) : Option Str := Utf8.decode b.length b

/-- Decoding gives back the encoded text. -/
theorem Str.fromUtf8_utf8 (s : Str) : Str.fromUtf8 (Str.utf8 s) = some s :=
  Utf8.decode_utf8 le_rfl

/-- The lower-case hexadecimal digit of a number below 16. -/
def hexDigit (n : Nat) : Char := Char.ofNat (if n < 10 then n + 48 else n + 87)

/-- Two lower-case hexadecimal digits for each byte. -/
def hexLower (b : Bytes) : Str := b.flatMap fun x => [hexDigit (x.toNat / 16), hexDigit (x.toNat % 16)]

namespace Base64

/-- The character of a six-bit group. -/
def symbol (n : Nat) : Char :=
  if n < 26 then Char.ofNat (n + 65)
  else if n < 52 then Char.ofNat (n + 71)
  else if n < 62 then Char.ofNat (n - 4)
  else if n = 62 then '+' else '/'

/-- The six-bit group of a character. -/
def value (c : Char) : Option Nat :=
  if 'A' ≤ c && c ≤ 'Z' then some (c.toNat - 65)
  else if 'a' ≤ c && c ≤ 'z' then some (c.toNat - 71)
  else if '0' ≤ c && c ≤ '9' then some (c.toNat + 4)
  else if c = '+' then some 62
  else if c = '/' then some 63
  else none

/-- Encode with padding. -/
def encode : Bytes → Str
  | [] => []
  | [a] => [symbol (a.toNat / 4), symbol (a.toNat % 4 * 16), '=', '=']
  | [a, b] =>
    [symbol (a.toNat / 4), symbol (a.toNat % 4 * 16 + b.toNat / 16),
      symbol (b.toNat % 16 * 4), '=']
  | a :: b :: c :: rest =>
    symbol (a.toNat / 4) :: symbol (a.toNat % 4 * 16 + b.toNat / 16) ::
      symbol (b.toNat % 16 * 4 + c.toNat / 64) :: symbol (c.toNat % 64) :: encode rest

/-- Decode. Padding must be canonical and the unused bits of the last group zero. -/
def decode : Str → Option Bytes
  | [] => some []
  | [a, b, '=', '='] => do
    let x ← value a
    let y ← value b
    if y % 16 = 0 then some [.ofNat (x * 4 + y / 16)] else none
  | [a, b, c, '='] => do
    let x ← value a
    let y ← value b
    let z ← value c
    if z % 4 = 0 then
      some [.ofNat (x * 4 + y / 16), .ofNat (y % 16 * 16 + z / 4)]
    else none
  | a :: b :: c :: d :: rest => do
    let x ← value a
    let y ← value b
    let z ← value c
    let w ← value d
    let bytes ← decode rest
    some (.ofNat (x * 4 + y / 16) :: .ofNat (y % 16 * 16 + z / 4) ::
      .ofNat (z % 4 * 64 + w) :: bytes)
  | _ => none

end Base64
