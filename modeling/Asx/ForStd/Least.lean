import Mathlib.Data.List.Sort

/-!
# The first least element of a list

After a stable sort, the first element with a property is the least one in the list that has
it, and among several such the one that stood first.

## Key results
- `IsFirstLeast.perm`: where no two elements are tied, the order of the list makes no difference
- `find?_insertionSort`: what a search in the sorted list finds
-/

namespace List

variable {α : Type}

/-- `a` has the property, comes before those behind it and strictly before those in front of
    it that have it too. -/
def IsFirstLeast (r : α → α → Prop) (p : α → Prop) (l : List α) (a : α) : Prop :=
  ∃ before after, l = before ++ a :: after ∧ p a ∧ (∀ x ∈ before, p x → ¬ r x a) ∧
    ∀ x ∈ after, p x → r a x

section Props

variable {r : α → α → Prop} {p q : α → Prop} {l l' : List α} {a b : α}

theorem isFirstLeast_nil : ¬ IsFirstLeast r p [] a := by
  rintro ⟨before, after, h, -⟩
  simp at h

theorem isFirstLeast_cons :
    IsFirstLeast r p (b :: l) a ↔ (a = b ∧ p b ∧ ∀ x ∈ l, p x → r b x) ∨
      (IsFirstLeast r p l a ∧ (p b → ¬ r b a)) := by
  constructor
  · rintro ⟨before, after, hl, ha, hbefore, hafter⟩
    cases before with
    | nil =>
      obtain ⟨rfl, rfl⟩ := cons.inj hl
      exact .inl ⟨rfl, ha, hafter⟩
    | cons x before =>
      obtain ⟨rfl, rfl⟩ := cons.inj hl
      exact .inr ⟨⟨before, after, rfl, ha, fun y hy => hbefore y (mem_cons_of_mem _ hy), hafter⟩,
        hbefore _ mem_cons_self⟩
  · rintro (⟨rfl, ha, hafter⟩ | ⟨⟨before, after, rfl, ha, hbefore, hafter⟩, hb⟩)
    · exact ⟨[], l, rfl, ha, by simp, hafter⟩
    · refine ⟨b :: before, after, rfl, ha, ?_, hafter⟩
      intro x hx
      obtain rfl | hx := mem_cons.mp hx
      · exact hb
      · exact hbefore x hx

theorem IsFirstLeast.mem (h : IsFirstLeast r p l a) : a ∈ l ∧ p a := by
  obtain ⟨before, after, rfl, ha, -⟩ := h
  exact ⟨by simp, ha⟩

/-- A stronger property that the element still has. -/
theorem IsFirstLeast.of_imp (h : IsFirstLeast r p l a) (hqp : ∀ x, q x → p x) (ha : q a) :
    IsFirstLeast r q l a := by
  obtain ⟨before, after, rfl, -, hbefore, hafter⟩ := h
  exact ⟨before, after, rfl, ha, fun x hx hq => hbefore x hx (hqp x hq),
    fun x hx hq => hafter x hx (hqp x hq)⟩

/-- The other elements of the list are of no account. -/
theorem isFirstLeast_filter {f : α → Bool} :
    IsFirstLeast r p (l.filter f) a ↔ IsFirstLeast r (fun x => f x = true ∧ p x) l a := by
  induction l with
  | nil => simp [isFirstLeast_nil]
  | cons b l ih =>
    by_cases hf : f b = true
    · rw [filter_cons_of_pos hf, isFirstLeast_cons, isFirstLeast_cons, ih]
      simp [hf]
    · rw [filter_cons_of_neg hf, isFirstLeast_cons, ih]
      simp [hf]

theorem IsFirstLeast.rel [Std.Total r] (h : IsFirstLeast r p l a) {x : α} (hx : x ∈ l)
    (hp : p x) : r a x := by
  obtain ⟨before, after, rfl, ha, hbefore, hafter⟩ := h
  obtain hx | hx := mem_append.mp hx
  · exact (Std.Total.total a x).resolve_right (hbefore x hx hp)
  · obtain rfl | hx := mem_cons.mp hx
    · exact (Std.Total.total _ _).elim id id
    · exact hafter x hx hp

/-- Without ties the first least element is the least one. -/
theorem isFirstLeast_iff [Std.Total r] (hl : l.Pairwise fun x y => ¬ (r x y ∧ r y x)) :
    IsFirstLeast r p l a ↔ a ∈ l ∧ p a ∧ ∀ x ∈ l, p x → r a x := by
  constructor
  · intro h
    exact ⟨h.mem.1, h.mem.2, fun x => h.rel⟩
  · rintro ⟨ha, hp, hall⟩
    obtain ⟨before, after, rfl⟩ := append_of_mem ha
    refine ⟨before, after, rfl, hp, fun x hx hpx hr => ?_,
      fun x hx => hall x (by simp [hx])⟩
    have htie := (pairwise_append.mp hl).2.2 x hx a mem_cons_self
    exact htie ⟨hr, hall x (by simp [hx]) hpx⟩

theorem IsFirstLeast.perm [Std.Total r] (hl : l.Pairwise fun x y => ¬ (r x y ∧ r y x))
    (hperm : l ~ l') : IsFirstLeast r p l a ↔ IsFirstLeast r p l' a := by
  have hl' : l'.Pairwise fun x y => ¬ (r x y ∧ r y x) :=
    hperm.pairwise hl fun h => fun hyx => h hyx.symm
  rw [isFirstLeast_iff hl, isFirstLeast_iff hl', hperm.mem_iff]
  simp only [hperm.mem_iff]

end Props

/-! ## Sorted lists -/

variable {r : α → α → Prop} {p : α → Bool} {l : List α} {a b : α}

/-- One more element in a sorted list: a search finds it where it comes before what was found
    without it. -/
theorem find?_orderedInsert [DecidableRel r] [IsTrans α r] (hl : l.Pairwise r) :
    (l.orderedInsert r a).find? p = if p a = true then
        match l.find? p with
        | none => some a
        | some b => if r a b then some a else some b
      else l.find? p := by
  induction l with
  | nil => cases ha : p a <;> simp [ha]
  | cons b l ih =>
    obtain ⟨hb, hl⟩ := pairwise_cons.mp hl
    by_cases hab : r a b
    · rw [orderedInsert_cons_of_le _ _ hab, find?_cons]
      cases ha : p a with
      | false => simp
      | true =>
        -- what is found behind `b` is found behind `a`
        cases hfind : (b :: l).find? p with
        | none => simp
        | some c =>
          have hac : r a c := by
            obtain rfl | hc := mem_cons.mp (mem_of_find?_eq_some hfind)
            · exact hab
            · exact IsTrans.trans a b c hab (hb c hc)
          simp [hac]
    · rw [orderedInsert_of_not_le _ _ hab, find?_cons, find?_cons, ih hl]
      cases hp : p b with
      | false => rfl
      | true => simp [hab]

/-- A search in the sorted list finds the first least element. -/
theorem find?_insertionSort [DecidableRel r] [Std.Total r] [IsTrans α r] :
    (l.insertionSort r).find? p = some a ↔ IsFirstLeast r (p · = true) l a := by
  induction l generalizing a with
  | nil => simp [isFirstLeast_nil]
  | cons b l ih =>
    have hnone : (l.insertionSort r).find? p = none ↔ ∀ x ∈ l, ¬ p x = true := by
      simp [find?_eq_none]
    rw [insertionSort_cons, find?_orderedInsert (pairwise_insertionSort r l), isFirstLeast_cons]
    cases hp : p b with
    | false => simpa using ih
    | true =>
      rw [if_pos rfl]
      cases hfind : (l.insertionSort r).find? p with
      | none =>
        have hall := hnone.mp hfind
        constructor
        · intro h
          exact .inl ⟨(Option.some.inj h).symm, rfl, fun x hx hpx => absurd hpx (hall x hx)⟩
        · rintro (⟨rfl, -⟩ | ⟨h, -⟩)
          · rfl
          · exact absurd h.mem.2 (hall _ h.mem.1)
      | some c =>
        have hc := ih.mp hfind
        by_cases hbc : r b c
        · simp only [if_pos hbc]
          constructor
          · intro h
            exact .inl ⟨(Option.some.inj h).symm, trivial,
              fun x hx hpx => IsTrans.trans b c x hbc (hc.rel hx hpx)⟩
          · rintro (⟨rfl, -⟩ | ⟨h, hnot⟩)
            · rfl
            · rw [ih.mpr h, Option.some.injEq] at hfind
              exact absurd (hfind ▸ hbc) (hnot trivial)
        · simp only [if_neg hbc]
          constructor
          · intro h
            obtain rfl := Option.some.inj h
            exact .inr ⟨hc, fun _ => hbc⟩
          · rintro (⟨rfl, -, hall⟩ | ⟨h, -⟩)
            · exact absurd (hall c hc.mem.1 hc.mem.2) hbc
            · rw [← hfind, ih.mpr h]

/-- There is a first least element where there is one with the property. -/
theorem exists_isFirstLeast [Std.Total r] [IsTrans α r] {p : α → Prop} (ha : a ∈ l) (hp : p a) :
    ∃ b, IsFirstLeast r p l b := by
  classical
  cases hfind : (l.insertionSort r).find? fun x => decide (p x) with
  | none =>
    rw [find?_eq_none] at hfind
    exact absurd hp (by simpa using hfind a ((mem_insertionSort r).mpr ha))
  | some b => exact ⟨b, by simpa using find?_insertionSort.mp hfind⟩

/-- It is the only one. -/
theorem IsFirstLeast.unique [Std.Total r] [IsTrans α r] {p : α → Prop}
    (ha : IsFirstLeast r p l a) (hb : IsFirstLeast r p l b) : a = b := by
  classical
  have hfind : ∀ {c : α}, IsFirstLeast r p l c →
      ((l.insertionSort r).find? fun x => decide (p x)) = some c :=
    fun h => find?_insertionSort.mpr (by simpa using h)
  exact Option.some.inj ((hfind ha).symm.trans (hfind hb))

end List
