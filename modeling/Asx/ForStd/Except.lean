import Mathlib.Data.List.Forall2

/-!
# Fallible computations

`Except ε` read as Rust's `Result`: `>>=` is `?`, `rejectIf` an early `return Err`,
`okOr` is `Option::ok_or_else`. Each operation has one lemma that says when it returns
`ok`, so that a successful run of a `do` block unfolds into the facts it has checked.
-/

namespace List.Forall₂

variable {α β : Type} {R : α → β → Prop} {l : List α} {r : List β}

/-- What stands on the right has a partner on the left. -/
theorem exists_left (h : Forall₂ R l r) {b : β} (hb : b ∈ r) : ∃ a ∈ l, R a b := by
  induction h with
  | nil => cases hb
  | cons hab _ ih =>
    obtain rfl | hb := mem_cons.mp hb
    · exact ⟨_, mem_cons_self, hab⟩
    · obtain ⟨a, ha, hr⟩ := ih hb
      exact ⟨a, mem_cons_of_mem _ ha, hr⟩

/-- What stands on the left has a partner on the right. -/
theorem exists_right (h : Forall₂ R l r) {a : α} (ha : a ∈ l) : ∃ b ∈ r, R a b :=
  Forall₂.exists_left h.flip ha

end List.Forall₂

namespace Except

variable {ε α β : Type}

/-- `if c { return Err(e) }`. -/
def rejectIf (c : Prop) [Decidable c] (e : ε) : Except ε Unit :=
  if c then .error e else .ok ()

/-- `Option::ok_or_else`. -/
def okOr (o : Option α) (e : ε) : Except ε α :=
  match o with
  | some a => .ok a
  | none => .error e

/-- `?` succeeds when both computations do. -/
theorem bind_eq_ok {x : Except ε α} {f : α → Except ε β} {b : β} :
    (x >>= f) = .ok b ↔ ∃ a, x = .ok a ∧ f a = .ok b := by
  cases x with
  | error e => simp [bind, Except.bind]
  | ok a => simp [bind, Except.bind]

theorem pure_eq_ok {a b : α} : (pure a : Except ε α) = .ok b ↔ a = b := by
  simp [pure, Except.pure]

theorem rejectIf_eq_ok {c : Prop} [Decidable c] {e : ε} {u : Unit} :
    rejectIf c e = .ok u ↔ ¬ c := by
  by_cases h : c <;> simp [rejectIf, h]

theorem okOr_eq_ok {o : Option α} {e : ε} {a : α} : okOr o e = .ok a ↔ o = some a := by
  cases o <;> simp [okOr]

theorem mapError_eq_ok {δ : Type} {g : ε → δ} {x : Except ε α} {a : α} :
    x.mapError g = .ok a ↔ x = .ok a := by
  cases x <;> simp [Except.mapError]

/-- `?` fails when one of the computations does. -/
theorem bind_eq_error {x : Except ε α} {f : α → Except ε β} {e : ε} :
    (x >>= f) = .error e ↔ x = .error e ∨ ∃ a, x = .ok a ∧ f a = .error e := by
  cases x with
  | error e' => simp [bind, Except.bind]
  | ok a => simp [bind, Except.bind]

theorem pure_eq_error {a : α} {e : ε} : (pure a : Except ε α) = .error e ↔ False := by
  simp [pure, Except.pure]

theorem rejectIf_eq_error {c : Prop} [Decidable c] {e e' : ε} :
    rejectIf c e = .error e' ↔ c ∧ e = e' := by
  by_cases h : c <;> simp [rejectIf, h]

theorem okOr_eq_error {o : Option α} {e e' : ε} : okOr o e = .error e' ↔ o = none ∧ e = e' := by
  cases o <;> simp [okOr]

theorem mapError_eq_error {δ : Type} {g : ε → δ} {x : Except ε α} {d : δ} :
    x.mapError g = .error d ↔ ∃ e, x = .error e ∧ g e = d := by
  cases x <;> simp [Except.mapError]

theorem toOption_eq_some {x : Except ε α} {a : α} : x.toOption = some a ↔ x = .ok a := by
  cases x <;> simp [Except.toOption]

/-- A loop whose body returns nothing succeeds when every iteration does. -/
theorem forM_eq_ok {f : α → Except ε Unit} {l : List α} {u : Unit} :
    forM l f = .ok u ↔ ∀ a ∈ l, f a = .ok () := by
  induction l with
  | nil => simp [pure, Except.pure]
  | cons a l ih =>
    rw [List.forM_cons, bind_eq_ok, ih]
    constructor
    · rintro ⟨_, ha, hl⟩ b hb
      obtain rfl | hb := List.mem_cons.mp hb
      · exact ha
      · exact hl b hb
    · intro h
      exact ⟨(), h a List.mem_cons_self, fun b hb => h b (List.mem_cons_of_mem a hb)⟩

/-- A loop that collects succeeds when every iteration does, and collects the results in
    order. -/
theorem map_eq_ok {f : α → β} {x : Except ε α} {b : β} :
    x.map f = .ok b ↔ ∃ a, x = .ok a ∧ f a = b := by
  cases x <;> simp [Except.map]

theorem mapM_eq_ok {f : α → Except ε β} {l : List α} {r : List β} :
    l.mapM f = .ok r ↔ List.Forall₂ (fun a b => f a = .ok b) l r := by
  induction l generalizing r with
  | nil =>
    rw [List.mapM_nil, pure_eq_ok, List.forall₂_nil_left_iff]
    exact eq_comm
  | cons a l ih =>
    simp only [List.mapM_cons, bind_eq_ok, pure_eq_ok, ih]
    constructor
    · rintro ⟨b, hb, bs, hbs, rfl⟩
      exact .cons hb hbs
    · rintro (_ | ⟨hb, hbs⟩)
      exact ⟨_, hb, _, hbs, rfl⟩

/-- What every iteration of a loop preserves holds of its result. -/
theorem foldlM_invariant {f : β → α → Except ε β} {P : β → Prop} {l : List α} {b r : β}
    (h : l.foldlM f b = .ok r) (hb : P b)
    (step : ∀ a ∈ l, ∀ b b', P b → f b a = .ok b' → P b') : P r := by
  induction l generalizing b with
  | nil =>
    rw [List.foldlM_nil, pure_eq_ok] at h
    exact h ▸ hb
  | cons a l ih =>
    rw [List.foldlM_cons, bind_eq_ok] at h
    obtain ⟨b', hb', h⟩ := h
    exact ih h (step a List.mem_cons_self b b' hb hb')
      fun c hc => step c (List.mem_cons_of_mem a hc)

/-- A loop that appends one value in every iteration. -/
theorem foldlM_append {f : List β → α → Except ε (List β)} {g : α → β} {l : List α}
    {b r : List β} (h : l.foldlM f b = .ok r)
    (step : ∀ a b b', f b a = .ok b' → b' = b ++ [g a]) : r = b ++ l.map g := by
  induction l generalizing b with
  | nil =>
    rw [List.foldlM_nil, pure_eq_ok] at h
    simp [h]
  | cons a l ih =>
    rw [List.foldlM_cons, bind_eq_ok] at h
    obtain ⟨b', hb', h⟩ := h
    rw [ih h, step a b b' hb', List.map_cons, List.append_assoc, List.singleton_append]

/-- A loop that appends one value in every iteration, related to what it reads. -/
theorem foldlM_append_rel {f : List β → α → Except ε (List β)} {R : α → β → Prop} {l : List α}
    {b r : List β} (h : l.foldlM f b = .ok r)
    (step : ∀ a b b', f b a = .ok b' → ∃ x, b' = b ++ [x] ∧ R a x) :
    ∃ added, r = b ++ added ∧ List.Forall₂ R l added := by
  induction l generalizing b with
  | nil =>
    rw [List.foldlM_nil, pure_eq_ok] at h
    exact ⟨[], by simp [h], .nil⟩
  | cons a l ih =>
    rw [List.foldlM_cons, bind_eq_ok] at h
    obtain ⟨b', hb', h⟩ := h
    obtain ⟨x, rfl, hx⟩ := step a b b' hb'
    obtain ⟨added, rfl, hadded⟩ := ih h
    exact ⟨x :: added, by simp, .cons hx hadded⟩

end Except
