import Mathlib.Data.List.Induction
import Mathlib.Data.List.Nodup
import Mathlib.Logic.Equiv.Basic

/-!
# Lists with keys

Lists whose entries have distinct keys: an entry is known by its key, and two such lists with
the same keys are in bijection. Texts over a prefix code, and texts with a separator. Lists
that differ at a place where both have an entry.
-/

namespace List

variable {α β κ : Type} {f : α → κ} {g : β → κ} {l : List α} {m : List β}

/-- Positions with the same key are one. -/
theorem Nodup.fin_eq_of_key_eq (h : (l.map f).Nodup) {i j : Fin l.length}
    (hkey : f l[i] = f l[j]) : i = j := by
  have hi : i.1 < (l.map f).length := by simp
  have hj : j.1 < (l.map f).length := by simp
  have hmap : (l.map f)[i.1] = (l.map f)[j.1] := by
    rw [getElem_map, getElem_map]
    exact hkey
  exact Fin.ext (h.getElem_inj_iff.mp hmap)

/-- A search by key finds the one entry with the key. -/
theorem Nodup.find?_key [BEq κ] [LawfulBEq κ] (h : (l.map f).Nodup) {a : α} (ha : a ∈ l) {k : κ}
    (hk : f a = k) : l.find? (fun x => f x == k) = some a := by
  cases hfind : l.find? fun x => f x == k with
  | none =>
    have := find?_eq_none.mp hfind a ha
    simp [hk] at this
  | some b =>
    have hb : f b = k := by simpa using find?_some hfind
    rw [inj_on_of_nodup_map h (mem_of_find?_eq_some hfind) ha (hb.trans hk.symm)]

/-- Two lists with distinct keys, and the same ones, are in bijection by their keys. -/
theorem exists_equiv_of_keys (hl : (l.map f).Nodup) (hm : (m.map g).Nodup)
    (hlm : ∀ a ∈ l, ∃ b ∈ m, g b = f a) (hml : ∀ b ∈ m, ∃ a ∈ l, f a = g b) :
    ∃ e : Fin l.length ≃ Fin m.length, ∀ i, f l[i] = g m[e i] := by
  have hex : ∀ i : Fin l.length, ∃ j : Fin m.length, f l[i] = g m[j] := by
    intro i
    obtain ⟨b, hb, hkey⟩ := hlm l[i] (getElem_mem i.2)
    obtain ⟨j, hj, rfl⟩ := getElem_of_mem hb
    exact ⟨⟨j, hj⟩, hkey.symm⟩
  choose e he using hex
  have hinj : Function.Injective e := by
    intro i j hij
    refine hl.fin_eq_of_key_eq ?_
    rw [he i, he j, hij]
  have hsurj : Function.Surjective e := by
    intro j
    obtain ⟨a, ha, hkey⟩ := hml m[j] (getElem_mem j.2)
    obtain ⟨i, hi, rfl⟩ := getElem_of_mem ha
    exact ⟨⟨i, hi⟩, hm.fin_eq_of_key_eq ((he ⟨i, hi⟩).symm.trans hkey)⟩
  exact ⟨Equiv.ofBijective e ⟨hinj, hsurj⟩, he⟩

/-- A list whose keys are those of a list with distinct keys, position by position, has
    distinct keys. -/
theorem nodup_keys_of_injective (hm : (m.map g).Nodup) {e : Fin l.length → Fin m.length}
    (hinj : Function.Injective e) (he : ∀ i, f l[i] = g m[e i]) : (l.map f).Nodup := by
  rw [nodup_iff_injective_getElem]
  intro i j hij
  have hi : i.1 < l.length := by simpa using i.2
  have hj : j.1 < l.length := by simpa using j.2
  simp only [getElem_map] at hij
  have hkey : g m[e ⟨i, hi⟩] = g m[e ⟨j, hj⟩] := by
    rw [← he, ← he]
    exact hij
  have hsame := hinj (hm.fin_eq_of_key_eq hkey)
  exact Fin.ext (Fin.mk.inj hsame)

/-- Where at most one element has a property, it stands at one place. -/
theorem Pairwise.split_unique {P : α → Prop} {l pre post pre' post' : List α} {a a' : α}
    (h : l.Pairwise fun x y => P x → ¬ P y) (hl : l = pre ++ a :: post)
    (hl' : l = pre' ++ a' :: post') (ha : P a) (ha' : P a') :
    pre = pre' ∧ a = a' ∧ post = post' := by
  have hbefore : ∀ {xs ys : List α} {x : α}, l = xs ++ x :: ys → P x → ∀ y ∈ ys, ¬ P y := by
    intro xs ys x hxs hx y hy
    rw [hxs] at h
    exact (pairwise_cons.mp (pairwise_append.mp h).2.1).1 y hy hx
  rcases append_eq_append_iff.mp (hl.symm.trans hl') with ⟨m, hm, hr⟩ | ⟨m, hm, hr⟩
  · rcases m with _ | ⟨x, m⟩
    · simp only [nil_append, cons.injEq] at hr
      exact ⟨by simpa using hm.symm, hr⟩
    · simp only [cons_append, cons.injEq] at hr
      exact absurd ha' (hbefore hl ha a' (by simp [hr.2]))
  · rcases m with _ | ⟨x, m⟩
    · simp only [nil_append, cons.injEq] at hr
      exact ⟨by simpa using hm, hr.1.symm, hr.2.symm⟩
    · simp only [cons_append, cons.injEq] at hr
      exact absurd ha (hbefore hl' ha' a (by simp [hr.2]))

/-- A relation holds pairwise when it holds between each element and those before it. -/
theorem pairwise_of_forall_split {R : α → α → Prop} {l : List α}
    (h : ∀ l₁ a l₂, l = l₁ ++ a :: l₂ → ∀ b ∈ l₁, R b a) : l.Pairwise R := by
  induction l using List.reverseRecOn with
  | nil => exact .nil
  | append_singleton l a ih =>
    rw [pairwise_append]
    refine ⟨ih fun l₁ x l₂ hl => h l₁ x (l₂ ++ [a]) (by simp [hl]), by simp, ?_⟩
    intro b hb x hx
    obtain rfl := mem_singleton.mp hx
    exact h l x [] rfl b hb

/-- Where an element with a property excludes another, there is at most one. -/
theorem countP_le_one_of_pairwise {p : α → Bool} {l : List α}
    (h : l.Pairwise fun a b => p a = true → ¬ p b = true) : l.countP p ≤ 1 := by
  induction l with
  | nil => simp
  | cons a l ih =>
    obtain ⟨ha, hl⟩ := pairwise_cons.mp h
    rw [countP_cons]
    by_cases hp : p a = true
    · have hzero : l.countP p = 0 := countP_eq_zero.mpr fun b hb => ha b hb hp
      simp [hzero, hp]
    · simpa [hp] using ih hl

/-- A text over a prefix code is read back from the front. -/
theorem flatMap_inj_of_prefix_code {f : α → List β} (hne : ∀ a, f a ≠ [])
    (hcode : ∀ a b s t, f a ++ s = f b ++ t → a = b) {l m : List α}
    (h : l.flatMap f = m.flatMap f) : l = m := by
  induction l generalizing m with
  | nil =>
    cases m with
    | nil => rfl
    | cons b m => simp [hne b] at h
  | cons a l ih =>
    cases m with
    | nil => simp [hne a] at h
    | cons b m =>
      rw [flatMap_cons, flatMap_cons] at h
      obtain rfl := hcode a b _ _ h
      rw [ih (append_cancel_left h)]

/-- What stands behind the last separator, and what before it. -/
theorem append_cons_inj_of_notMem_right {sep : α} {l l' r r' : List α} (hr : sep ∉ r) (hr' : sep ∉ r')
    (h : l ++ sep :: r = l' ++ sep :: r') : l = l' ∧ r = r' := by
  rcases append_eq_append_iff.mp h with ⟨m, hm, hrest⟩ | ⟨m, hm, hrest⟩
  · rcases m with _ | ⟨x, m⟩
    · exact ⟨by simpa using hm.symm, by simpa using hrest⟩
    · simp only [cons_append, cons.injEq] at hrest
      exact absurd (by simp [hrest.2]) hr
  · rcases m with _ | ⟨x, m⟩
    · exact ⟨by simpa using hm, by simpa using hrest.symm⟩
    · simp only [cons_append, cons.injEq] at hrest
      exact absurd (by simp [hrest.2]) hr'

/-- Parts behind separators of which none is inside a part. -/
theorem flatMap_cons_inj_of_notMem {sep : α} {ls ms : List (List α)} (hls : ∀ l ∈ ls, sep ∉ l)
    (hms : ∀ m ∈ ms, sep ∉ m) (h : ls.flatMap (sep :: ·) = ms.flatMap (sep :: ·)) : ls = ms := by
  -- what follows a part starts with the separator
  have hnext : ∀ (parts : List (List α)) {a b : List α}, parts.flatMap (sep :: ·) = a ++ b →
      sep ∉ a → a = [] := by
    intro parts a b heq ha
    cases a with
    | nil => rfl
    | cons x a =>
      cases parts with
      | nil => simp at heq
      | cons part parts =>
        rw [flatMap_cons, cons_append, cons_append] at heq
        exact absurd (by simp [(cons.inj heq).1]) ha
  induction ls generalizing ms with
  | nil =>
    cases ms with
    | nil => rfl
    | cons m ms => simp at h
  | cons l ls ih =>
    cases ms with
    | nil => simp at h
    | cons m ms =>
      rw [flatMap_cons, flatMap_cons, cons_append, cons_append] at h
      have hl := hls l mem_cons_self
      have hm := hms m mem_cons_self
      have hparts : l = m ∧ ls.flatMap (sep :: ·) = ms.flatMap (sep :: ·) := by
        rcases append_eq_append_iff.mp (cons.inj h).2 with ⟨a, rfl, hrest⟩ | ⟨a, rfl, hrest⟩
        · obtain rfl := hnext ls hrest fun ha => hm (mem_append_right _ ha)
          exact ⟨by simp, hrest⟩
        · obtain rfl := hnext ms hrest fun ha => hl (mem_append_right _ ha)
          exact ⟨by simp, hrest.symm⟩
      rw [hparts.1, ih (fun l hl => hls l (mem_cons_of_mem _ hl))
        (fun m hm => hms m (mem_cons_of_mem _ hm)) hparts.2]

/-! ## Lists that differ at one place -/

/-- Behind a common start come two different entries: neither list is a start of the other. -/
def Apart (l m : List α) : Prop :=
  ∃ start a b l' m', a ≠ b ∧ l = start ++ a :: l' ∧ m = start ++ b :: m'

namespace Apart

variable {l m : List α}

theorem of_ne {a b : α} (h : a ≠ b) (l m : List α) : Apart (a :: l) (b :: m) :=
  ⟨[], a, b, l, m, h, rfl, rfl⟩

theorem symm (h : Apart l m) : Apart m l := by
  obtain ⟨start, a, b, l', m', hne, hl, hm⟩ := h
  exact ⟨start, b, a, m', l', hne.symm, hm, hl⟩

theorem ne (h : Apart l m) : l ≠ m := by
  obtain ⟨start, a, b, l', m', hne, rfl, rfl⟩ := h
  intro heq
  exact hne (cons.inj (append_cancel_left heq)).1

theorem prepend (h : Apart l m) (start : List α) : Apart (start ++ l) (start ++ m) := by
  obtain ⟨start', a, b, l', m', hne, rfl, rfl⟩ := h
  exact ⟨start ++ start', a, b, l', m', hne, by rw [append_assoc], by rw [append_assoc]⟩

theorem cons (h : Apart l m) (a : α) : Apart (a :: l) (a :: m) := h.prepend [a]

theorem append (h : Apart l m) (x y : List α) : Apart (l ++ x) (m ++ y) := by
  obtain ⟨start, a, b, l', m', hne, rfl, rfl⟩ := h
  exact ⟨start, a, b, l' ++ x, m' ++ y, hne, by simp, by simp⟩

/-- Different words before a separator that neither has. -/
theorem of_separator {sep : α} {v w : List α} (hne : v ≠ w) (hv : sep ∉ v) (hw : sep ∉ w)
    (x y : List α) : Apart (v ++ sep :: x) (w ++ sep :: y) := by
  induction v generalizing w with
  | nil =>
    cases w with
    | nil => exact absurd rfl hne
    | cons b w =>
      rw [mem_cons, not_or] at hw
      exact of_ne hw.1 _ _
  | cons a v ih =>
    rw [mem_cons, not_or] at hv
    cases w with
    | nil => exact of_ne (Ne.symm hv.1) _ _
    | cons b w =>
      rw [mem_cons, not_or] at hw
      by_cases hab : a = b
      · subst hab
        exact (ih (fun heq => hne (by rw [heq])) hv.2 hw.2).cons a
      · exact of_ne hab _ _

end Apart

end List
