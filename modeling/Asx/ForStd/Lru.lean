import Mathlib.Data.List.Dedup
import Mathlib.Data.List.Perm.Subperm

/-!
# Caches that forget what was least recently used

The operations of a bounded cache as a parameter, and what is documented about them: the
entries in the order of their last use, the most recently used one in front, and the last one
dropped where a new entry does not fit.

Key results:
- `Documented.value_put_of_ne`: a new entry gives no other key a value
- `Held.put`: an entry stays while fewer keys than the capacity are used
-/

/-- The operations of a cache: `σ` is the type of its states. -/
structure LruCache (σ κ α : Type) where
  new : Nat → σ
  get : σ → κ → σ × Option α
  put : σ → κ → α → σ
  pop : σ → κ → σ

namespace LruCache

variable {σ κ α : Type} [DecidableEq κ]

/-- The entries of the other keys. -/
def without (l : List (κ × α)) (k : κ) : List (κ × α) := l.filter fun e => e.1 ≠ k

/-- The value of a key. -/
def value (l : List (κ × α)) (k : κ) : Option α := l.lookup k

/-- What is documented about a cache. `iter` visits the entries in the order of their last use
    and `cap` is the capacity. -/
structure Documented (lru : LruCache σ κ α) (iter : σ → List (κ × α)) (cap : σ → Nat) : Prop where
  /-- A key has one entry. -/
  nodup : ∀ c, ((iter c).map Prod.fst).Nodup
  /-- `new` creates a cache that is empty and holds at most so many entries. -/
  iter_new : ∀ n, iter (lru.new n) = []
  cap_new : ∀ n, cap (lru.new n) = n
  /-- `get` gives the value of the key, and moves its entry to the front. -/
  get_value : ∀ c k, (lru.get c k).2 = value (iter c) k
  iter_get_some : ∀ c k v, value (iter c) k = some v →
    iter (lru.get c k).1 = (k, v) :: without (iter c) k
  iter_get_none : ∀ c k, value (iter c) k = none → iter (lru.get c k).1 = iter c
  cap_get : ∀ c k, cap (lru.get c k).1 = cap c
  /-- `put` puts the entry in front, in place of one of its key; what is then beyond the
      capacity is dropped. -/
  iter_put : ∀ c k v, iter (lru.put c k v) = ((k, v) :: without (iter c) k).take (cap c)
  cap_put : ∀ c k v, cap (lru.put c k v) = cap c
  /-- `pop` removes the entry of the key. -/
  iter_pop : ∀ c k, iter (lru.pop c k) = without (iter c) k
  cap_pop : ∀ c k, cap (lru.pop c k) = cap c

/-! ## Entries -/

theorem not_mem_keys_without (l : List (κ × α)) (k : κ) : k ∉ (without l k).map Prod.fst := by
  intro hk
  obtain ⟨e, he, heq⟩ := List.mem_map.mp hk
  exact (of_decide_eq_true (List.mem_filter.mp he).2) heq

theorem nodup_without {l : List (κ × α)} (h : (l.map Prod.fst).Nodup) (k : κ) :
    ((without l k).map Prod.fst).Nodup :=
  h.sublist (List.filter_sublist.map _)

theorem nodup_cons_without {l : List (κ × α)} (h : (l.map Prod.fst).Nodup) (k : κ) (v : α) :
    (((k, v) :: without l k).map Prod.fst).Nodup :=
  List.nodup_cons.mpr ⟨not_mem_keys_without _ _, nodup_without h k⟩

/-- What is left out is not found, and all else is. -/
theorem lookup_without (l : List (κ × α)) (k k' : κ) :
    (without l k).lookup k' = if k' = k then none else l.lookup k' := by
  induction l with
  | nil => simp [without]
  | cons e l ih =>
    rw [without, List.filter_cons, ← without]
    by_cases he : e.1 = k
    · rw [if_neg (by simpa using he), ih]
      by_cases hk : k' = k
      · rw [if_pos hk, if_pos hk]
      · rw [if_neg hk, if_neg hk, List.lookup_cons]
        have hne : (k' == e.1) = false := beq_false_of_ne fun h => hk (h.trans he)
        rw [hne]
    · rw [if_pos (by simpa using he), List.lookup_cons, List.lookup_cons, ih]
      by_cases hk : k' = e.1
      · have hne : ¬ k' = k := fun h => he (hk.symm.trans h)
        rw [beq_iff_eq.mpr hk]
        exact (if_neg hne).symm
      · rw [beq_false_of_ne hk]

/-- What is found among the first entries is found among all. -/
theorem lookup_of_take {l : List (κ × α)} {n : Nat} {k : κ} {v : α}
    (h : (l.take n).lookup k = some v) : l.lookup k = some v := by
  induction l generalizing n with
  | nil => rw [List.take_nil] at h; exact h
  | cons e l ih =>
    cases n with
    | zero => cases h
    | succ n =>
      rw [List.take_succ_cons, List.lookup_cons] at h
      rw [List.lookup_cons]
      cases hk : k == e.1 with
      | true =>
        rw [hk] at h
        exact h
      | false =>
        rw [hk] at h
        exact ih h

theorem lookup_append_of_not_mem {front l : List (κ × α)} {k : κ}
    (h : k ∉ front.map Prod.fst) : (front ++ l).lookup k = l.lookup k := by
  induction front with
  | nil => rfl
  | cons e front ih =>
    rw [List.map_cons, List.mem_cons, not_or] at h
    rw [List.cons_append, List.lookup_cons, beq_false_of_ne h.1]
    exact ih h.2

/-! ## What is found -/

namespace Documented

variable {lru : LruCache σ κ α} {iter : σ → List (κ × α)} {cap : σ → Nat} {c : σ} {k k' : κ}
  {v w : α}

/-- A new entry gives no other key a value. -/
theorem value_put_of_ne (hlru : lru.Documented iter cap) (hne : k' ≠ k)
    (h : value (iter (lru.put c k v)) k' = some w) : value (iter c) k' = some w := by
  rw [hlru.iter_put] at h
  have hall := lookup_of_take h
  rw [List.lookup_cons, beq_false_of_ne hne] at hall
  have hwithout : (without (iter c) k).lookup k' = some w := hall
  rw [lookup_without, if_neg hne] at hwithout
  exact hwithout

/-- What was put is found. -/
theorem value_put_self (hlru : lru.Documented iter cap) (hcap : 0 < cap c) :
    value (iter (lru.put c k v)) k = some v := by
  obtain ⟨n, hn⟩ := Nat.exists_eq_add_of_lt hcap
  rw [hlru.iter_put, hn, value, List.take_succ_cons, List.lookup_cons, beq_self_eq_true]

/-- A read changes no value. -/
theorem value_get (hlru : lru.Documented iter cap) :
    value (iter (lru.get c k').1) k = value (iter c) k := by
  cases hfound : value (iter c) k' with
  | none => rw [hlru.iter_get_none c k' hfound]
  | some w =>
    rw [hlru.iter_get_some c k' w hfound, value, List.lookup_cons, lookup_without]
    by_cases hk : k = k'
    · rw [hk, beq_self_eq_true]
      exact hfound.symm
    · rw [beq_false_of_ne hk]
      exact if_neg hk

/-- What was popped is not found, and all else is. -/
theorem value_pop (hlru : lru.Documented iter cap) :
    value (iter (lru.pop c k')) k = if k = k' then none else value (iter c) k := by
  rw [hlru.iter_pop, value, lookup_without, value]

end Documented

/-! ## What is kept -/

/-- An entry is among these, and the entries in front of it have keys that were used. -/
def Held (l : List (κ × α)) (k : κ) (v : α) (used : List κ) : Prop :=
  ∃ front back, l = front ++ (k, v) :: back ∧ ∀ e ∈ front, e.1 ∈ used

namespace Held

variable {l : List (κ × α)} {k k' : κ} {v w : α} {used : List κ}

omit [DecidableEq κ] in
/-- An entry that survives some keys survives more. -/
theorem mono {used' : List κ} (h : Held l k v used) (hsub : used ⊆ used') :
    Held l k v used' := by
  obtain ⟨front, back, heq, hused⟩ := h
  exact ⟨front, back, heq, fun e he => hsub (hused e he)⟩

/-- An entry that is held is found. -/
theorem value_eq (h : Held l k v used) (hnodup : (l.map Prod.fst).Nodup) :
    value l k = some v := by
  obtain ⟨front, back, rfl, -⟩ := h
  rw [List.map_append, List.map_cons] at hnodup
  have hk : k ∉ front.map Prod.fst := fun hk =>
    List.disjoint_of_nodup_append hnodup hk List.mem_cons_self
  rw [value, lookup_append_of_not_mem hk, List.lookup_cons, beq_self_eq_true]

/-- An entry stays when another key moves to the front. -/
theorem cons_without (h : Held l k v used) (hne : k' ≠ k) :
    Held ((k', w) :: without l k') k v (k' :: used) := by
  obtain ⟨front, back, rfl, hused⟩ := h
  refine ⟨(k', w) :: without front k', without back k', ?_, ?_⟩
  · rw [without, List.filter_append, List.filter_cons_of_pos (by simpa using hne.symm)]
    rfl
  · intro e he
    cases List.mem_cons.mp he with
    | inl heq => exact heq ▸ List.mem_cons_self
    | inr he => exact List.mem_cons_of_mem _ (hused e (List.mem_of_mem_filter he))

/-- It stays held when another key is left out. -/
theorem without (h : Held l k v used) (hne : k' ≠ k) :
    Held (LruCache.without l k') k v used := by
  obtain ⟨front, back, rfl, hused⟩ := h
  refine ⟨LruCache.without front k', LruCache.without back k', ?_,
    fun e he => hused e (List.mem_of_mem_filter he)⟩
  rw [LruCache.without, List.filter_append, List.filter_cons_of_pos (by simpa using hne.symm)]
  rfl

/-- What is dropped at the end is not reached while fewer keys were used: the keys in front
    are different. -/
theorem take {n : Nat} (h : Held l k v used) (hnodup : (l.map Prod.fst).Nodup)
    (hroom : used.dedup.length < n) : Held (l.take n) k v used := by
  obtain ⟨front, back, rfl, hused⟩ := h
  have hlength : front.length ≤ used.dedup.length := by
    have hfront : (front.map Prod.fst).Nodup := by
      rw [List.map_append] at hnodup
      exact hnodup.of_append_left
    have hsub : front.map Prod.fst ⊆ used.dedup := by
      intro a ha
      obtain ⟨e, he, rfl⟩ := List.mem_map.mp ha
      exact List.mem_dedup.mpr (hused e he)
    have hle := (List.subperm_of_subset hfront hsub).length_le
    rwa [List.length_map] at hle
  refine ⟨front, back.take (n - front.length - 1), ?_, hused⟩
  obtain ⟨m, hm⟩ := Nat.exists_eq_add_of_lt (Nat.lt_of_le_of_lt hlength hroom)
  have hrest : n - front.length = m + 1 := by omega
  rw [List.take_append, List.take_of_length_le (by omega), hrest, List.take_succ_cons]
  rfl

section

variable {lru : LruCache σ κ α} {iter : σ → List (κ × α)} {cap : σ → Nat} {c : σ}

/-- A key that was put is held, and no other has been used since. -/
theorem put_self (hlru : lru.Documented iter cap) (hcap : 0 < cap c) :
    Held (iter (lru.put c k v)) k v [] := by
  obtain ⟨n, hn⟩ := Nat.exists_eq_add_of_lt hcap
  rw [hlru.iter_put, hn, List.take_succ_cons]
  exact ⟨[], _, rfl, fun e he => absurd he List.not_mem_nil⟩

/-- An entry stays while fewer keys than the capacity are used. -/
theorem put (hlru : lru.Documented iter cap) (h : Held (iter c) k v used) (hne : k' ≠ k)
    (hroom : (k' :: used).dedup.length < cap c) :
    Held (iter (lru.put c k' w)) k v (k' :: used) := by
  rw [hlru.iter_put]
  exact (h.cons_without hne).take (nodup_cons_without (hlru.nodup c) k' w) hroom

/-- Using another key counts against an entry, but does not change it. -/
theorem get (hlru : lru.Documented iter cap) (h : Held (iter c) k v used) (hne : k' ≠ k) :
    Held (iter (lru.get c k').1) k v (k' :: used) := by
  cases hfound : value (iter c) k' with
  | none =>
    rw [hlru.iter_get_none c k' hfound]
    exact h.mono (List.subset_cons_self _ _)
  | some w =>
    rw [hlru.iter_get_some c k' w hfound]
    exact h.cons_without hne

/-- Using its own key makes it the most recent. -/
theorem get_self (hlru : lru.Documented iter cap) (h : Held (iter c) k v used) :
    Held (iter (lru.get c k).1) k v [] := by
  rw [hlru.iter_get_some c k v (h.value_eq (hlru.nodup c))]
  exact ⟨[], _, rfl, fun e he => absurd he List.not_mem_nil⟩

/-- Popping another key leaves it held. -/
theorem pop (hlru : lru.Documented iter cap) (h : Held (iter c) k v used) (hne : k' ≠ k) :
    Held (iter (lru.pop c k')) k v used := by
  rw [hlru.iter_pop]
  exact h.without hne

end

end Held

/-! ## A cache that is a list -/

/-- Entries with different keys and a capacity. -/
structure Entries (κ α : Type) where
  cap : Nat
  entries : List (κ × α)
  nodup : (entries.map Prod.fst).Nodup

/-- The cache that keeps its entries in a list, the most recently used in front. -/
def ofList : LruCache (Entries κ α) κ α where
  new n := ⟨n, [], List.nodup_nil⟩
  get c k :=
    match value c.entries k with
    | some v => (⟨c.cap, (k, v) :: without c.entries k, nodup_cons_without c.nodup k v⟩, some v)
    | none => (c, none)
  put c k v := ⟨c.cap, ((k, v) :: without c.entries k).take c.cap,
    (nodup_cons_without c.nodup k v).sublist ((List.take_sublist _ _).map _)⟩
  pop c k := ⟨c.cap, without c.entries k, nodup_without c.nodup k⟩

/-- It does what is documented. -/
theorem documented_ofList :
    (ofList : LruCache (Entries κ α) κ α).Documented Entries.entries Entries.cap where
  nodup c := c.nodup
  iter_new _ := rfl
  cap_new _ := rfl
  get_value c k := by
    rw [ofList]
    cases hfound : value c.entries k <;> simp [hfound]
  iter_get_some c k v h := by simp [ofList, h]
  iter_get_none c k h := by simp [ofList, h]
  cap_get c k := by
    rw [ofList]
    cases hfound : value c.entries k <;> simp [hfound]
  iter_put _ _ _ := rfl
  cap_put _ _ _ := rfl
  iter_pop _ _ := rfl
  cap_pop _ _ := rfl

end LruCache
