import Asx.ForStd.Except

/-!
# What a computation fails with

A set of errors contains every error of a `do` block if it contains those of its steps. Each
operation has one rule, so that a block is followed step by step, and a step that replaces the
errors of a call makes the call irrelevant.

## Key results
- `Except.FailsIn.bind`, `rejectIf`, `okOr`, `mapError`, `foldlM`, `forM`: the rules
-/

namespace Except

variable {ε ε' α β : Type}

/-- Every error of a computation satisfies `P`. -/
def FailsIn (P : ε → Prop) (x : Except ε α) : Prop := ∀ e, x = .error e → P e

namespace FailsIn

variable {P : ε → Prop}

theorem ok (a : α) : FailsIn P (.ok a : Except ε α) := by
  intro e h
  cases h

theorem pure (a : α) : FailsIn P (Pure.pure a : Except ε α) := ok a

theorem error {e : ε} (h : P e) : FailsIn P (.error e : Except ε α) := by
  intro e' he
  cases he
  exact h

theorem throw {e : ε} (h : P e) : FailsIn P (MonadExcept.throw e : Except ε α) := error h

/-- `?`: the errors of the first computation and those of the second. -/
theorem bind {x : Except ε α} {f : α → Except ε β} (hx : FailsIn P x)
    (hf : ∀ a, FailsIn P (f a)) : FailsIn P (x >>= f) := by
  intro e h
  rcases bind_eq_error.mp h with h | ⟨a, -, h⟩
  · exact hx e h
  · exact hf a e h

theorem rejectIf {c : Prop} [Decidable c] {e : ε} (h : P e) : FailsIn P (Except.rejectIf c e) := by
  intro e' he
  obtain ⟨-, rfl⟩ := rejectIf_eq_error.mp he
  exact h

theorem okOr {o : Option α} {e : ε} (h : P e) : FailsIn P (Except.okOr o e) := by
  intro e' he
  obtain ⟨-, rfl⟩ := okOr_eq_error.mp he
  exact h

/-- Errors that are replaced do not matter. -/
theorem mapError {x : Except ε' α} {g : ε' → ε} (h : ∀ e, P (g e)) :
    FailsIn P (x.mapError g) := by
  intro e he
  obtain ⟨e', -, rfl⟩ := mapError_eq_error.mp he
  exact h e'

/-- A loop fails as its rounds do. -/
theorem foldlM {f : β → α → Except ε β} (hf : ∀ b a, FailsIn P (f b a)) (l : List α) (b : β) :
    FailsIn P (l.foldlM f b) := by
  induction l generalizing b with
  | nil => exact ok b
  | cons a l ih =>
    rw [List.foldlM_cons]
    exact (hf b a).bind ih

theorem forM {f : α → Except ε Unit} (hf : ∀ a, FailsIn P (f a)) (l : List α) :
    FailsIn P (ForM.forM l f) := by
  induction l with
  | nil => exact ok ()
  | cons a l ih =>
    rw [List.forM_cons]
    exact (hf a).bind fun _ => ih

end FailsIn

end Except
