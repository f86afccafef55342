import Mathlib.Data.List.Induction
import Asx.ForStd.Bytes

/-!
# Hexadecimal text

Octets written with two hexadecimal digits each, in either case. `IsHex` relates such a text to
its octets: a text has at most one reading, and every text of an even number of digits has one.

## Key results
- `exists_isHex_iff`: the texts that can be read
- `isHex_hexLower`, `hexLower_injective`: the lower-case form
-/

/-- The value of a hexadecimal digit. -/
def hexValue (b : UInt8) : Option Nat :=
  let n := b.toNat
  if 48 ≤ n ∧ n ≤ 57 then some (n - 48)
  else if 97 ≤ n ∧ n ≤ 102 then some (n - 87)
  else if 65 ≤ n ∧ n ≤ 70 then some (n - 55)
  else none

/-- A text of hexadecimal digits and the octets it writes. -/
inductive IsHex : Bytes → Bytes → Prop
  | nil : IsHex [] []
  | cons {a b : UInt8} {x y : Nat} {text octets : Bytes} (ha : hexValue a = some x)
      (hb : hexValue b = some y) (rest : IsHex text octets) :
      IsHex (a :: b :: text) (.ofNat (x * 16 + y) :: octets)

/-! ## Reading -/

/-- A text has one reading. -/
theorem IsHex.unique {text octets octets' : Bytes} (h : IsHex text octets)
    (h' : IsHex text octets') : octets = octets' := by
  induction h generalizing octets' with
  | nil =>
    cases h'
    rfl
  | cons ha hb _ ih =>
    cases h' with
    | cons ha' hb' rest' =>
      -- the digits have one value each
      obtain rfl := Option.some.inj (ha.symm.trans ha')
      obtain rfl := Option.some.inj (hb.symm.trans hb')
      rw [ih rest']

theorem IsHex.length {text octets : Bytes} (h : IsHex text octets) :
    text.length = 2 * octets.length := by
  induction h with
  | nil => rfl
  | cons _ _ _ ih =>
    simp only [List.length_cons, ih]
    omega

theorem IsHex.digits {text octets : Bytes} (h : IsHex text octets) :
    ∀ b ∈ text, (hexValue b).isSome := by
  induction h with
  | nil => simp
  | cons ha hb _ ih =>
    intro c hc
    rcases List.mem_cons.mp hc with rfl | hc
    · simp [ha]
    rcases List.mem_cons.mp hc with rfl | hc
    · simp [hb]
    · exact ih c hc

/-- The texts that can be read are those of an even number of digits. -/
theorem exists_isHex_iff {text : Bytes} :
    (∃ octets, IsHex text octets) ↔ text.length % 2 = 0 ∧ ∀ b ∈ text, (hexValue b).isSome := by
  constructor
  · rintro ⟨octets, h⟩
    refine ⟨?_, h.digits⟩
    rw [h.length]
    omega
  · rintro ⟨heven, hdigits⟩
    -- in steps of two digits, as the text is read
    induction text using List.twoStepInduction with
    | nil => exact ⟨[], .nil⟩
    | singleton a => simp at heven
    | cons_cons a b text ih _ =>
      obtain ⟨x, hx⟩ := Option.isSome_iff_exists.mp (hdigits a (by simp))
      obtain ⟨y, hy⟩ := Option.isSome_iff_exists.mp (hdigits b (by simp))
      have heven' : text.length % 2 = 0 := by
        rw [List.length_cons, List.length_cons] at heven
        omega
      obtain ⟨octets, h⟩ := ih heven' fun c hc => hdigits c (by simp [hc])
      exact ⟨_, .cons hx hy h⟩

theorem hexValue_lt {b : UInt8} {x : Nat} (h : hexValue b = some x) : x < 16 := by
  unfold hexValue at h
  dsimp only at h
  split_ifs at h <;> have := Option.some.inj h <;> omega

theorem hexValue_eq_zero {b : UInt8} : hexValue b = some 0 ↔ b = 0x30 := by
  constructor
  · intro h
    unfold hexValue at h
    dsimp only at h
    have hvalue : b.toNat = 0x30 := by
      split_ifs at h <;> have := Option.some.inj h <;> omega
    exact UInt8.toNat_inj.mp hvalue
  · rintro rfl
    rfl

/-- A text whose first octet is zero starts with two zeros. -/
theorem isHex_zero_cons_iff {text octets : Bytes} :
    IsHex text (0 :: octets) ↔ ∃ rest, text = 0x30 :: 0x30 :: rest ∧ IsHex rest octets := by
  constructor
  · intro h
    generalize hzero : (0 : UInt8) :: octets = all at h
    cases h with
    | nil => cases hzero
    | @cons a b x y text octets' ha hb rest =>
      obtain ⟨hvalue, rfl⟩ := List.cons.inj hzero
      -- both digits are below 16, so nothing wraps and both are zero
      have hx := hexValue_lt ha
      have hy := hexValue_lt hb
      have hnat := congrArg UInt8.toNat hvalue
      rw [UInt8.toNat_ofNat', UInt8.toNat_zero, Nat.mod_eq_of_lt (by omega)] at hnat
      obtain rfl : x = 0 := by omega
      obtain rfl : y = 0 := by omega
      rw [hexValue_eq_zero.mp ha, hexValue_eq_zero.mp hb]
      exact ⟨text, rfl, rest⟩
  · rintro ⟨rest, rfl, h⟩
    exact .cons (hexValue_eq_zero.mpr rfl) (hexValue_eq_zero.mpr rfl) h

/-! ## The lower-case form -/

/-- A digit takes one byte, which has the digit's value. -/
theorem utf8EncodeChar_hexDigit {n : Nat} (h : n < 16) :
    ∃ b, String.utf8EncodeChar (hexDigit n) = [b] ∧ hexValue b = some n := by
  -- the sixteen digits
  have hall : ∀ n < 16, String.utf8EncodeChar (hexDigit n) =
      [.ofNat (hexDigit n).toNat] ∧ hexValue (.ofNat (hexDigit n).toNat) = some n := by
    decide +kernel
  exact ⟨_, hall n h⟩

/-- The lower-case form is read back. -/
theorem isHex_hexLower (s : Bytes) : IsHex (Str.utf8 (hexLower s)) s := by
  induction s with
  | nil => exact .nil
  | cons b s ih =>
    obtain ⟨high, hhigh, hx⟩ := utf8EncodeChar_hexDigit (n := b.toNat / 16) (by
      have := b.toNat_lt
      omega)
    obtain ⟨low, hlow, hy⟩ := utf8EncodeChar_hexDigit (n := b.toNat % 16) (by omega)
    have htext : Str.utf8 (hexLower (b :: s)) = high :: low :: Str.utf8 (hexLower s) := by
      simp only [hexLower, List.flatMap_cons, Str.utf8, List.cons_append, List.nil_append, hhigh,
        hlow]
    have hvalue : UInt8.ofNat (b.toNat / 16 * 16 + b.toNat % 16) = b := by
      rw [Nat.div_add_mod', UInt8.ofNat_toNat]
    -- the two digits write the byte again
    rw [htext]
    exact hvalue ▸ .cons hx hy ih

/-- Different octets have different lower-case forms. -/
theorem hexLower_injective : Function.Injective hexLower := by
  intro s t h
  have hs := isHex_hexLower s
  rw [h] at hs
  exact hs.unique (isHex_hexLower t)
