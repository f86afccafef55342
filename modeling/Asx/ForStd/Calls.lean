import Asx.ForStd.Interact

/-!
# What a program may call

`Calls P p` says that every call that `p` can make, whatever the answers before it were, meets
`P`. It is the part of `Meets` that does not look at the history. A path is also read from its
first call on, and one run is read off for fixed answers.
-/

namespace Interact

variable {C : Type} {A : C → Type} {R : Type} {P : C → Prop}

/-- Every call of the program meets `P`. -/
def Calls (P : C → Prop) : Prog C A R → Prop
  | .ret _ => True
  | .call c k => P c ∧ ∀ a, Calls P (k a)

@[simp] theorem calls_ret (r : R) : Calls P (.ret r : Prog C A R) ↔ True := Iff.rfl

@[simp] theorem calls_call (c : C) (k : A c → Prog C A R) :
    Calls P (.call c k) ↔ P c ∧ ∀ a, Calls P (k a) := Iff.rfl

/-! ## Paths from the front -/

theorem Path.front {p q : Prog C A R} {h : List (Event C A)} (hp : Path p h q) :
    (h = [] ∧ q = p) ∨
      ∃ c k a t, p = .call c k ∧ h = ⟨c, a⟩ :: t ∧ Path (k a) t q := by
  induction hp with
  | nil => exact .inl ⟨rfl, rfl⟩
  | @snoc h c k path a ih =>
    rcases ih with ⟨rfl, heq⟩ | ⟨c', k', a', t, rfl, rfl, hpath⟩
    · exact .inr ⟨c, k, a, [], heq.symm, rfl, .nil⟩
    · exact .inr ⟨c', k', a', t ++ [⟨c, a⟩], rfl, rfl, .snoc hpath a⟩

/-- A program that has returned made its first call. -/
theorem Path.of_call {c : C} {k : A c → Prog C A R} {r : R} {h : List (Event C A)}
    (hp : Path (.call c k) h (.ret r)) : ∃ a t, h = ⟨c, a⟩ :: t ∧ Path (k a) t (.ret r) := by
  rcases hp.front with ⟨-, heq⟩ | ⟨c', k', a, t, heq, rfl, hpath⟩
  · cases heq
  · cases heq
    exact ⟨a, t, rfl, hpath⟩

theorem Path.of_ret {r r' : R} {h : List (Event C A)} (hp : Path (.ret r : Prog C A R) h (.ret r')) :
    h = [] ∧ r' = r := by
  rcases hp.front with ⟨rfl, heq⟩ | ⟨c, k, a, t, heq, -⟩
  · cases heq
    exact ⟨rfl, rfl⟩
  · cases heq

/-! ## Runs with given answers -/

/-- The run in which every call gets the answer that `σ` has for it. -/
def Prog.answered (σ : (c : C) → A c) : Prog C A R → List (Event C A) × R
  | .ret r => ([], r)
  | .call c k => (⟨c, σ c⟩ :: (answered σ (k (σ c))).1, (answered σ (k (σ c))).2)

theorem Prog.path_answered (σ : (c : C) → A c) (p : Prog C A R) :
    Path p (p.answered σ).1 (.ret (p.answered σ).2) := by
  induction p with
  | ret r => exact .nil
  | call c k ih => exact .cons (ih (σ c))

end Interact
