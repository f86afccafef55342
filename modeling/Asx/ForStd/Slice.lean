import Mathlib.Algebra.Group.Nat.Defs
import Mathlib.Logic.Function.Basic

/-!
# Slices with their bounds

An index, a range and a sum that are not within their bounds stop the program: `none`.
-/

variable {α : Type}

/-- `&s[i..j]`: `none` unless the range lies within `s`. -/
def slice? (s : List α) (i j : Nat) : Option (List α) :=
  if i ≤ j ∧ j ≤ s.length then some ((s.drop i).take (j - i)) else none

/-- The sum of two `usize` of 64 bits: `none` when it overflows. -/
def usizeAdd? (a b : Nat) : Option Nat := if a + b < 2 ^ 64 then some (a + b) else none

/-- The difference of two `usize`: `none` when it is negative. -/
def usizeSub? (a b : Nat) : Option Nat := if b ≤ a then some (a - b) else none

theorem slice?_eq_some {s : List α} {i j : Nat} (hi : i ≤ j) (hj : j ≤ s.length) :
    slice? s i j = some ((s.drop i).take (j - i)) := if_pos ⟨hi, hj⟩

theorem slice?_to_end {s : List α} {i : Nat} (h : i ≤ s.length) :
    slice? s i s.length = some (s.drop i) := by
  rw [slice?_eq_some h (Nat.le_refl _), ← List.length_drop, List.take_length]

theorem slice?_eq_none {s : List α} {i j : Nat} (h : s.length < j) : slice? s i j = none :=
  if_neg (by omega)

theorem usizeAdd?_eq_some {a b : Nat} (h : a + b < 2 ^ 64) : usizeAdd? a b = some (a + b) :=
  if_pos h

theorem usizeSub?_eq_some {a b : Nat} (h : b ≤ a) : usizeSub? a b = some (a - b) := if_pos h
