import Mathlib.Data.Nat.Digits.Lemmas
import Asx.ForStd.Bytes

/-!
# Numbers written in octets

The number that octets write, most significant first, with a sign (two's complement) and
without. Leading zero octets make no difference to the number without sign, and nothing else
does.

## Key results
- `octetsNat_eq_iff`: two texts write one number exactly when they are equal without their
  leading zeros
-/

/-- The number without sign that octets write. -/
def octetsNat (b : Bytes) : Nat := Nat.ofDigits 256 (b.reverse.map UInt8.toNat)

/-- The number in two's complement that octets write. -/
def octetsInt (b : Bytes) : Int :=
  if b.head?.any (· ≥ 0x80) then octetsNat b - 256 ^ b.length else octetsNat b

theorem octetsNat_zero_cons (b : Bytes) : octetsNat (0 :: b) = octetsNat b := by
  rw [octetsNat, octetsNat, List.reverse_cons, List.map_append, Nat.ofDigits_append]
  simp

theorem octetsNat_dropWhile (b : Bytes) : octetsNat (b.dropWhile (· == 0)) = octetsNat b := by
  induction b with
  | nil => rfl
  | cons x b ih =>
    by_cases hx : x = 0
    · subst hx
      rw [List.dropWhile_cons_of_pos (by simp), ih, octetsNat_zero_cons]
    · rw [List.dropWhile_cons_of_neg (by simpa using hx)]

/-- Without leading zeros the octets are the digits of their number. -/
theorem digits_octetsNat {b : Bytes} (h : b.head? ≠ some 0) :
    Nat.digits 256 (octetsNat b) = b.reverse.map UInt8.toNat := by
  refine Nat.digits_ofDigits 256 (by decide) _ ?_ ?_
  · intro d hd
    obtain ⟨x, -, rfl⟩ := List.mem_map.mp hd
    exact x.toNat_lt
  · intro hne hlast
    cases b with
    | nil => simp at hne
    | cons x b =>
      simp only [List.reverse_cons, List.map_append, List.map_cons, List.map_nil,
        List.getLast_append_singleton] at hlast
      exact h (by simpa using UInt8.toNat_inj.mp hlast)

/-- Two texts write one number exactly when they are equal without their leading zeros. -/
theorem octetsNat_eq_iff {a b : Bytes} :
    octetsNat a = octetsNat b ↔ a.dropWhile (· == 0) = b.dropWhile (· == 0) := by
  constructor
  · intro h
    have hhead : ∀ c : Bytes, (c.dropWhile (· == 0)).head? ≠ some 0 := by
      intro c hc
      have := List.head?_dropWhile_not (· == 0) c
      rw [hc] at this
      simp at this
    have hdigits := congrArg (Nat.digits 256) h
    rw [← octetsNat_dropWhile a, ← octetsNat_dropWhile b, digits_octetsNat (hhead a),
      digits_octetsNat (hhead b)] at hdigits
    have hmap := (List.map_inj_right fun x y => UInt8.toNat_inj.mp).mp hdigits
    exact List.reverse_injective hmap
  · intro h
    rw [← octetsNat_dropWhile a, ← octetsNat_dropWhile b, h]
