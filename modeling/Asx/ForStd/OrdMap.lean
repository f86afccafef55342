import Mathlib.Order.Basic
import Mathlib.Order.Lattice
import Mathlib.Data.List.Sort

/-!
# Ordered maps as strictly sorted association lists

`OrdMap α β` is a finite map kept as an association list with strictly increasing
keys, which is what an in-order traversal of a B-tree map visits. The ordering is a
field of the structure, so every map that can be built is sorted, and two maps that
answer every lookup alike are equal (`OrdMap.ext_get`).

## Key results
- `get_insert`, `get_orInsert` and `get_extend`: what a lookup sees after an update
- `ext_get`: extensionality
- `entries_filter_ext`: two maps whose selected bindings agree list them alike
-/

/-- A finite map with keys in `α`, its bindings listed by strictly increasing key. -/
structure OrdMap (α β : Type) [LinearOrder α] where
  /-- The bindings, in the order an in-order traversal visits them. -/
  entries : List (α × β)
  /-- Keys increase strictly, so no key is bound twice. -/
  sorted : entries.Pairwise (fun a b => a.1 < b.1)

namespace OrdMap

variable {α β : Type} [BEq α] [LawfulBEq α]

/-! ## Lookups in association lists -/

/-- A lookup that succeeds returns a binding of the list. -/
theorem mem_of_lookup {l : List (α × β)} {k : α} {v : β} (h : l.lookup k = some v) :
    (k, v) ∈ l := by
  induction l with
  | nil => cases h
  | cons e l ih =>
    obtain ⟨k', v'⟩ := e
    simp only [List.lookup_cons] at h
    split at h
    · rename_i hk
      simp only [beq_iff_eq] at hk
      simp only [Option.some.injEq] at h
      subst hk h
      exact List.mem_cons_self
    · exact List.mem_cons_of_mem _ (ih h)

/-- A key that no binding of the list carries is not found. -/
theorem lookup_eq_none {l : List (α × β)} {k : α} (h : ∀ e ∈ l, e.1 ≠ k) :
    l.lookup k = none := by
  cases hl : l.lookup k with
  | none => rfl
  | some v => exact absurd rfl (h _ (mem_of_lookup hl))

variable [LinearOrder α]

/-- In a strictly sorted list, a binding is found under its key. -/
theorem lookup_of_mem {l : List (α × β)} (hs : l.Pairwise (fun a b => a.1 < b.1))
    {k : α} {v : β} (h : (k, v) ∈ l) : l.lookup k = some v := by
  induction l with
  | nil => cases h
  | cons e l ih =>
    obtain ⟨k', v'⟩ := e
    rw [List.pairwise_cons] at hs
    cases List.mem_cons.mp h with
    | inl heq =>
      obtain ⟨rfl, rfl⟩ := Prod.mk.inj heq
      simp
    | inr hmem =>
      have hne : (k == k') = false := by simpa using (hs.1 _ hmem).ne'
      simp only [List.lookup_cons, hne]
      exact ih hs.2 hmem

/-- Strictly sorted lists with the same lookups are equal. -/
theorem eq_of_lookup_eq {l₁ l₂ : List (α × β)}
    (h₁ : l₁.Pairwise (fun a b => a.1 < b.1)) (h₂ : l₂.Pairwise (fun a b => a.1 < b.1))
    (h : ∀ k, l₁.lookup k = l₂.lookup k) : l₁ = l₂ := by
  have hmem : ∀ e, e ∈ l₁ ↔ e ∈ l₂ := by
    rintro ⟨k, v⟩
    constructor
    · intro he
      exact mem_of_lookup ((h k).symm.trans (lookup_of_mem h₁ he))
    · intro he
      exact mem_of_lookup ((h k).trans (lookup_of_mem h₂ he))
  have hnd : ∀ {l : List (α × β)}, l.Pairwise (fun a b => a.1 < b.1) → l.Nodup :=
    fun hl => hl.imp fun hab heq => absurd (heq ▸ hab) (lt_irrefl _)
  have hperm : l₁.Perm l₂ := (List.perm_ext_iff_of_nodup (hnd h₁) (hnd h₂)).mpr hmem
  exact hperm.eq_of_pairwise (fun a b _ _ hab hba => absurd hab hba.asymm) h₁ h₂

/-! ## Operations -/

/-- The map without bindings. -/
def empty : OrdMap α β := ⟨[], List.Pairwise.nil⟩

/-- The value bound to `k`, if any. -/
def get (m : OrdMap α β) (k : α) : Option β := m.entries.lookup k

/-- Insertion in key order; an existing binding of `k` is replaced. -/
def insertEntry (k : α) (v : β) : List (α × β) → List (α × β)
  | [] => [(k, v)]
  | e :: l =>
    if k < e.1 then (k, v) :: e :: l
    else if e.1 < k then e :: insertEntry k v l
    else (k, v) :: l

omit [BEq α] [LawfulBEq α] in
private theorem mem_insertEntry {k : α} {v : β} {l : List (α × β)} {e : α × β}
    (h : e ∈ insertEntry k v l) : e = (k, v) ∨ e ∈ l := by
  induction l with
  | nil => simpa [insertEntry] using h
  | cons e' l ih =>
    simp only [insertEntry] at h
    split at h
    · simpa using h
    · split at h <;> grind

omit [BEq α] [LawfulBEq α] in
private theorem insertEntry_sorted (k : α) (v : β) {l : List (α × β)}
    (h : l.Pairwise (fun a b => a.1 < b.1)) :
    (insertEntry k v l).Pairwise (fun a b => a.1 < b.1) := by
  induction l with
  | nil => simp [insertEntry]
  | cons e l ih =>
    rw [List.pairwise_cons] at h
    simp only [insertEntry]
    split
    · rename_i hlt
      refine List.Pairwise.cons ?_ (List.Pairwise.cons h.1 h.2)
      intro a ha
      cases List.mem_cons.mp ha with
      | inl heq => exact heq ▸ hlt
      | inr hmem => exact hlt.trans (h.1 a hmem)
    · split
      · rename_i hgt
        refine List.Pairwise.cons ?_ (ih h.2)
        intro a ha
        cases mem_insertEntry ha with
        | inl heq => exact heq ▸ hgt
        | inr hmem => exact h.1 a hmem
      · -- neither smaller nor larger: the same key, whose binding is replaced
        rename_i hlt hgt
        have heq : k = e.1 := le_antisymm (not_lt.mp hgt) (not_lt.mp hlt)
        exact List.Pairwise.cons (fun a ha => heq ▸ h.1 a ha) h.2

/-- Bind `k` to `v`, replacing an earlier binding. -/
def insert (m : OrdMap α β) (k : α) (v : β) : OrdMap α β :=
  ⟨insertEntry k v m.entries, insertEntry_sorted k v m.sorted⟩

/-- Bind `k` to `v` unless `k` is bound already. -/
def orInsert (m : OrdMap α β) (k : α) (v : β) : OrdMap α β :=
  if (m.get k).isSome then m else m.insert k v

/-- Insert the bindings of a list one after the other. -/
def extend (m : OrdMap α β) (l : List (α × β)) : OrdMap α β :=
  l.foldl (fun acc e => acc.insert e.1 e.2) m

/-! ## What lookups see -/

omit [LawfulBEq α] in
@[simp] theorem get_empty (k : α) : (empty : OrdMap α β).get k = none := rfl

private theorem lookup_insertEntry (k : α) (v : β) (l : List (α × β)) (k' : α) :
    (insertEntry k v l).lookup k' = if k' = k then some v else l.lookup k' := by
  induction l with
  | nil => simp only [insertEntry, List.lookup_cons, List.lookup_nil]; grind
  | cons e l ih =>
    obtain ⟨k₀, v₀⟩ := e
    simp only [insertEntry]
    split
    · simp only [List.lookup_cons]; grind
    · split
      · rename_i hgt
        simp only [List.lookup_cons, ih]
        grind
      · rename_i hlt hgt
        have heq : k = k₀ := le_antisymm (not_lt.mp hgt) (not_lt.mp hlt)
        simp only [List.lookup_cons]
        grind

@[simp] theorem get_insert (m : OrdMap α β) (k : α) (v : β) (k' : α) :
    (m.insert k v).get k' = if k' = k then some v else m.get k' :=
  lookup_insertEntry k v m.entries k'

@[simp] theorem get_orInsert (m : OrdMap α β) (k : α) (v : β) (k' : α) :
    (m.orInsert k v).get k' = if k' = k then some ((m.get k).getD v) else m.get k' := by
  simp only [orInsert]
  split
  · rename_i hs
    obtain ⟨w, hw⟩ := Option.isSome_iff_exists.mp hs
    split
    · rename_i heq
      simp [heq, hw]
    · rfl
  · rename_i hs
    simp only [Option.not_isSome_iff_eq_none] at hs
    simp [hs]

/-- After extending by the bindings of a sorted list, they shadow the old ones. -/
theorem get_extend (m : OrdMap α β) {l : List (α × β)}
    (hs : l.Pairwise (fun a b => a.1 < b.1)) (k : α) :
    (m.extend l).get k = (l.lookup k).or (m.get k) := by
  induction l generalizing m with
  | nil => simp [extend]
  | cons e l ih =>
    obtain ⟨k₀, v₀⟩ := e
    rw [List.pairwise_cons] at hs
    have hext : m.extend ((k₀, v₀) :: l) = (m.insert k₀ v₀).extend l := rfl
    rw [hext, ih _ hs.2, get_insert, List.lookup_cons]
    by_cases hk : k = k₀
    · subst hk
      have hnone : l.lookup k = none := lookup_eq_none fun e he => (hs.1 e he).ne'
      simp [hnone]
    · have hne : (k == k₀) = false := by simpa using hk
      simp [hne, hk]

/-- Maps that answer every lookup alike are equal. -/
theorem ext_get {m₁ m₂ : OrdMap α β} (h : ∀ k, m₁.get k = m₂.get k) : m₁ = m₂ := by
  obtain ⟨l₁, h₁⟩ := m₁
  obtain ⟨l₂, h₂⟩ := m₂
  have heq : l₁ = l₂ := eq_of_lookup_eq h₁ h₂ h
  subst heq
  rfl

/-! ## Selecting bindings -/

/-- A filtered listing finds exactly the selected bindings. -/
theorem lookup_filter (m : OrdMap α β) (p : α × β → Bool) (k : α) :
    (m.entries.filter p).lookup k = (m.get k).filter (fun v => p (k, v)) := by
  have hs : (m.entries.filter p).Pairwise (fun a b => a.1 < b.1) := m.sorted.filter p
  cases hl : (m.entries.filter p).lookup k with
  | some v =>
    have hmem := List.mem_filter.mp (mem_of_lookup hl)
    have hget : m.get k = some v := lookup_of_mem m.sorted hmem.1
    rw [hget, Option.filter_some, if_pos hmem.2]
  | none =>
    cases hg : m.get k with
    | none => rfl
    | some v =>
      cases hp : p (k, v) with
      | false => simp [Option.filter_some, hp]
      | true =>
        have hmem := List.mem_filter.mpr ⟨mem_of_lookup hg, hp⟩
        rw [lookup_of_mem hs hmem] at hl
        cases hl

/-- Two maps list the same selected bindings when every selected lookup agrees. -/
theorem entries_filter_ext {m₁ m₂ : OrdMap α β} {p₁ p₂ : α × β → Bool}
    (h : ∀ k, (m₁.get k).filter (fun v => p₁ (k, v)) =
      (m₂.get k).filter (fun v => p₂ (k, v))) :
    m₁.entries.filter p₁ = m₂.entries.filter p₂ := by
  refine eq_of_lookup_eq (m₁.sorted.filter p₁) (m₂.sorted.filter p₂) ?_
  intro k
  rw [lookup_filter, lookup_filter, h k]

end OrdMap
