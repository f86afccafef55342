import Mathlib.Logic.Function.Basic

/-!
# Programs that make calls

A program here is a tree: it returns, or it makes a call and goes on with the answer. Any
number of programs run side by side, and a run interleaves their calls in any order with any
answers. What a program does at a call is said over the calls it has made before
(`Meets`), and what is proved of one program holds of it in every run (`Run.meets`,
`Run.before`).
-/

namespace Interact

variable {C : Type} {A : C → Type} {R ι : Type}

/-- A program: it returns, or makes a call and goes on with the answer. -/
inductive Prog (C : Type) (A : C → Type) (R : Type) where
  | ret (r : R)
  | call (c : C) (k : A c → Prog C A R)

/-- A call with its answer. -/
structure Event (C : Type) (A : C → Type) where
  call : C
  answer : A call

/-- `Path p h q`: the program `p` becomes `q` with the calls `h`. -/
inductive Path (p : Prog C A R) : List (Event C A) → Prog C A R → Prop
  | nil : Path p [] p
  | snoc {h : List (Event C A)} {c : C} {k : A c → Prog C A R} (path : Path p h (.call c k))
      (a : A c) : Path p (h ++ [⟨c, a⟩]) (k a)

/-- A path from its first call on. -/
theorem Path.cons {c : C} {k : A c → Prog C A R} {a : A c} {h : List (Event C A)}
    {q : Prog C A R} (hp : Path (k a) h q) : Path (.call c k) (⟨c, a⟩ :: h) q := by
  induction hp with
  | nil => exact .snoc .nil a
  | snoc _ b ih => exact .snoc ih b

/-- After the calls `h` every further call meets `pre` and every result meets `post`, both
    over the calls made until then. -/
def Meets (pre : List (Event C A) → C → Prop) (post : List (Event C A) → R → Prop) :
    List (Event C A) → Prog C A R → Prop
  | h, .ret r => post h r
  | h, .call c k => pre h c ∧ ∀ a, Meets pre post (h ++ [⟨c, a⟩]) (k a)

section Meets

variable {pre : List (Event C A) → C → Prop} {post : List (Event C A) → R → Prop}
  {p q : Prog C A R} {h : List (Event C A)}

theorem Meets.mono {pre' : List (Event C A) → C → Prop} {post' : List (Event C A) → R → Prop}
    (hm : Meets pre post h p) (hpre : ∀ h c, pre h c → pre' h c)
    (hpost : ∀ h r, post h r → post' h r) : Meets pre' post' h p := by
  induction p generalizing h with
  | ret r => exact hpost h r hm
  | call c k ih => exact ⟨hpre h c hm.1, fun a => ih a (hm.2 a)⟩

theorem Meets.path (hm : Meets pre post [] p) (hp : Path p h q) : Meets pre post h q := by
  induction hp with
  | nil => exact hm
  | snoc _ a ih => exact ih.2 a

/-- Every call on a path met its condition when it was made. -/
theorem Meets.before (hm : Meets pre post [] p) (hp : Path p h q) :
    ∀ h₁ e h₂, h = h₁ ++ e :: h₂ → pre h₁ e.call := by
  induction hp with
  | nil => simp
  | @snoc h c k path a ih =>
    intro h₁ e h₂ hsplit
    rcases List.eq_nil_or_concat h₂ with rfl | ⟨h₂', e', rfl⟩
    · obtain ⟨rfl, he⟩ := List.append_inj' hsplit rfl
      obtain rfl : ⟨c, a⟩ = e := by simpa using he
      exact (hm.path path).1
    · have hsplit' : h ++ [⟨c, a⟩] = (h₁ ++ e :: h₂') ++ [e'] := by simpa using hsplit
      exact ih h₁ e h₂' (List.append_inj' hsplit' rfl).1

end Meets

/-! ## Runs of many programs -/

/-- A call in a run: when it was made and by which program. -/
structure Occurrence (ι C : Type) (A : C → Type) where
  now : Nat
  who : ι
  event : Event C A

variable [DecidableEq ι]

/-- The runs of the programs `init`: the calls made so far and what the programs have become. -/
inductive Run (init : ι → Prog C A R) :
    List (Occurrence ι C A) → (ι → Prog C A R) → Prop
  | nil : Run init [] init
  | step {σ : List (Occurrence ι C A)} {progs : ι → Prog C A R} (run : Run init σ progs) (i : ι)
      {c : C} {k : A c → Prog C A R} (h : progs i = .call c k) (now : Nat) (a : A c) :
      Run init (σ ++ [⟨now, i, ⟨c, a⟩⟩]) (Function.update progs i (k a))

/-- The calls of one program in a run. -/
def callsOf (i : ι) (σ : List (Occurrence ι C A)) : List (Event C A) :=
  (σ.filter (·.who = i)).map Occurrence.event

@[simp] theorem callsOf_append (i : ι) (σ τ : List (Occurrence ι C A)) :
    callsOf i (σ ++ τ) = callsOf i σ ++ callsOf i τ := by
  simp [callsOf]

theorem callsOf_cons_self (o : Occurrence ι C A) (τ : List (Occurrence ι C A)) :
    callsOf o.who (o :: τ) = o.event :: callsOf o.who τ := by
  simp [callsOf]

theorem mem_callsOf {i : ι} {σ : List (Occurrence ι C A)} {e : Event C A} :
    e ∈ callsOf i σ ↔ ∃ o ∈ σ, o.who = i ∧ o.event = e := by
  simp only [callsOf, List.mem_map, List.mem_filter, decide_eq_true_eq, and_assoc]

variable {init progs : ι → Prog C A R} {σ : List (Occurrence ι C A)}

/-- In a run every program follows a path of its own. -/
theorem Run.path (hrun : Run init σ progs) (i : ι) : Path (init i) (callsOf i σ) (progs i) := by
  induction hrun with
  | nil => exact .nil
  | step run j h now a ih =>
    rw [callsOf_append]
    by_cases hij : j = i
    · subst hij
      rw [Function.update_self, callsOf_cons_self ⟨now, j, _⟩]
      exact .snoc (h ▸ ih) a
    · rw [Function.update_of_ne (Ne.symm hij)]
      simpa [callsOf, hij] using ih

variable {pre : ι → List (Event C A) → C → Prop} {post : ι → List (Event C A) → R → Prop}

/-- What every program meets alone it meets in every run. -/
theorem Run.meets (hrun : Run init σ progs) (hm : ∀ i, Meets (pre i) (post i) [] (init i)) (i : ι) :
    Meets (pre i) (post i) (callsOf i σ) (progs i) :=
  (hm i).path (hrun.path i)

/-- Every call of a run met its condition over the earlier calls of the same program. -/
theorem Run.before (hrun : Run init σ progs) (hm : ∀ i, Meets (pre i) (post i) [] (init i))
    {σ₁ σ₂ : List (Occurrence ι C A)} {o : Occurrence ι C A} (hsplit : σ = σ₁ ++ o :: σ₂) :
    pre o.who (callsOf o.who σ₁) o.event.call := by
  refine (hm o.who).before (hrun.path o.who) _ _ (callsOf o.who σ₂) ?_
  rw [hsplit, callsOf_append, callsOf_cons_self]

end Interact
