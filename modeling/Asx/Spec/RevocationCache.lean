import Mathlib.Data.List.Induction
import Asx.Native.RevocationCache

/-!
# What the revocation cache answers

The bounded cache seen from outside, over every sequence of calls: it answers with the last entry
that was put under a key as long as the entry lives, and it forgets a living entry only after
1024 other keys were used.

Key results:
- `lastPut_of_lookup`: what the cache holds is the last entry of its key, read in time since
- `held_after`: an entry is held while fewer than 1024 other keys are used
- `memory_cache_answers`: the answer of a read after any sequence of calls
-/

namespace Asx

open LruCache CacheCall

/-- Calls that leave an entry of `key` that expires then where it is. -/
def KeptBy (key : Str) (expires : SystemTime) : CacheCall → Prop
  | .get t k => k = key → t < expires
  | .put k _ _ => k ≠ key

/-- The last entry put under a key, which every read since has found alive. -/
def LastPut (calls : List CacheCall) (key : Str) (entry : Bytes) (expires : SystemTime) : Prop :=
  ∃ past later, calls = past ++ .put key entry expires :: later ∧ ∀ c ∈ later, KeptBy key expires c

/-- The other keys that calls use. -/
def otherKeys (key : Str) (calls : List CacheCall) : List Str :=
  (calls.map CacheCall.key).filter (· ≠ key)

/-! ## Soundness -/

theorem LastPut.append {calls : List CacheCall} {key : Str} {entry : Bytes} {expires : SystemTime}
    (h : LastPut calls key entry expires) {c : CacheCall} (hc : KeptBy key expires c) :
    LastPut (calls ++ [c]) key entry expires := by
  obtain ⟨past, later, rfl, hlater⟩ := h
  refine ⟨past, later ++ [c], by rw [List.append_assoc, List.cons_append], fun c' hc' => ?_⟩
  cases List.mem_append.mp hc' with
  | inl hold => exact hlater c' hold
  | inr hnew => exact List.mem_singleton.mp hnew ▸ hc

section

variable {σ : Type} {lru : LruCache σ Str (Bytes × SystemTime)}
  {iter : σ → List (Str × (Bytes × SystemTime))} {cap : σ → Nat}

/-- Every call leaves the capacity as it is. -/
theorem cap_after (hlru : lru.Documented iter cap) (calls : List CacheCall) :
    cap (after lru calls) = memoryCacheEntries := by
  induction calls using List.reverseRecOn with
  | nil => exact hlru.cap_new _
  | append_singleton calls c ih =>
    rw [after, List.foldl_append, List.foldl_cons, List.foldl_nil, ← after]
    cases c with
    | put k e x => exact (hlru.cap_put _ _ _).trans ih
    | get t k =>
      have hget := (hlru.cap_get (after lru calls) k).trans ih
      rw [step, MemoryRevocationCache.get]
      split
      · rename_i entries entry x hread
        rw [hread] at hget
        split
        · exact hget
        · exact (hlru.cap_pop _ _).trans hget
      · rename_i entries hread
        rw [hread] at hget
        exact hget

/-- What is found after a read was there before it, alive if it was what was read. -/
theorem lookup_get_of_some (hlru : lru.Documented iter cap) {entries : σ} {now : SystemTime}
    {k key : Str} {v : Bytes × SystemTime}
    (h : value (iter (MemoryRevocationCache.get lru entries now k).1) key = some v) :
    value (iter entries) key = some v ∧ (k = key → now < v.2) := by
  have hvalue := hlru.get_value entries k
  have hbefore : value (iter (lru.get entries k).1) key = value (iter entries) key :=
    hlru.value_get
  rw [MemoryRevocationCache.get] at h
  split at h
  · rename_i entries' entry x hread
    rw [hread] at hvalue hbefore
    split at h
    · rename_i halive
      have hv := hbefore.symm.trans h
      refine ⟨hv, fun heq => ?_⟩
      subst heq
      rw [hv, Option.some.injEq] at hvalue
      exact hvalue ▸ halive
    · -- the key that was read is gone
      have hpop : value (iter (lru.pop entries' k)) key = some v := h
      rw [hlru.value_pop] at hpop
      by_cases heq : key = k
      · rw [if_pos heq] at hpop
        cases hpop
      · rw [if_neg heq] at hpop
        exact ⟨hbefore.symm.trans hpop, fun heq' => absurd heq'.symm heq⟩
  · rename_i entries' hread
    rw [hread] at hvalue hbefore
    have hv := hbefore.symm.trans h
    refine ⟨hv, fun heq => ?_⟩
    subst heq
    rw [hv] at hvalue
    cases hvalue

/-- What the cache holds is the last entry of its key, read in time since. -/
theorem lastPut_of_lookup (hlru : lru.Documented iter cap) {calls : List CacheCall} {key : Str}
    {entry : Bytes} {expires : SystemTime}
    (h : value (iter (after lru calls)) key = some (entry, expires)) :
    LastPut calls key entry expires := by
  induction calls using List.reverseRecOn with
  | nil =>
    have hnew : value (iter (lru.new memoryCacheEntries)) key = some (entry, expires) := h
    rw [hlru.iter_new] at hnew
    cases hnew
  | append_singleton calls c ih =>
    have hcap : 0 < cap (after lru calls) := by
      rw [cap_after hlru]
      decide
    rw [after, List.foldl_append, List.foldl_cons, List.foldl_nil, ← after] at h
    cases c with
    | get t k =>
      obtain ⟨hbefore, halive⟩ := lookup_get_of_some hlru h
      exact (ih hbefore).append halive
    | put k e x =>
      by_cases hk : key = k
      · subst hk
        rw [step, MemoryRevocationCache.put, hlru.value_put_self hcap, Option.some.injEq,
          Prod.mk.injEq] at h
        obtain ⟨rfl, rfl⟩ := h
        exact ⟨calls, [], rfl, fun c hc => absurd hc List.not_mem_nil⟩
      · exact (ih (hlru.value_put_of_ne hk h)).append fun heq => hk heq.symm

/-! ## Completeness -/

theorem otherKeys_append (key : Str) (calls : List CacheCall) (c : CacheCall) :
    otherKeys key (calls ++ [c]) =
      otherKeys key calls ++ if c.key = key then [] else [c.key] := by
  rw [otherKeys, List.map_append, List.filter_append, ← otherKeys]
  by_cases hc : c.key = key
  · simp [hc]
  · simp [hc]

theorem length_dedup_le {l l' : List Str} (h : l ⊆ l') : l.dedup.length ≤ l'.dedup.length := by
  apply List.Subperm.length_le
  apply List.subperm_of_subset (List.nodup_dedup l)
  exact fun a ha => List.mem_dedup.mpr (h (List.mem_dedup.mp ha))

/-- A read of another key keeps an entry held, also when it removes what it read. -/
theorem held_get (hlru : lru.Documented iter cap) {entries : σ} {now : SystemTime} {k key : Str}
    {v : Bytes × SystemTime} {used : List Str} (h : Held (iter entries) key v used)
    (hne : k ≠ key) :
    Held (iter (MemoryRevocationCache.get lru entries now k).1) key v (k :: used) := by
  have hget : Held (iter (lru.get entries k).1) key v (k :: used) := h.get hlru hne
  rw [MemoryRevocationCache.get]
  split
  · rename_i entries' entry x hread
    rw [hread] at hget
    split
    · exact hget
    · exact hget.pop hlru hne
  · rename_i entries' hread
    rw [hread] at hget
    exact hget

/-- A read of the key itself, while the entry lives, answers with it and moves it to the
    front. -/
theorem held_get_self (hlru : lru.Documented iter cap) {entries : σ} {now : SystemTime}
    {key : Str} {entry : Bytes} {expires : SystemTime} {used : List Str}
    (h : Held (iter entries) key (entry, expires) used) (halive : now < expires) :
    Held (iter (MemoryRevocationCache.get lru entries now key).1) key (entry, expires) [] ∧
      (MemoryRevocationCache.get lru entries now key).2 = some entry := by
  have hheld := h.get_self hlru
  have hvalue := hlru.get_value entries key
  rw [h.value_eq (hlru.nodup _)] at hvalue
  rw [MemoryRevocationCache.get]
  split
  · rename_i entries' entry' x hread
    rw [hread] at hvalue hheld
    obtain ⟨rfl, rfl⟩ := Prod.mk.inj (Option.some.inj hvalue)
    rw [if_pos halive]
    exact ⟨hheld, rfl⟩
  · rename_i entries' hread
    rw [hread] at hvalue
    cases hvalue

/-- An entry is held while fewer than 1024 other keys are used. -/
theorem held_after (hlru : lru.Documented iter cap) (past : List CacheCall) {key : Str}
    {entry : Bytes} {expires : SystemTime} {later : List CacheCall}
    (hkept : ∀ c ∈ later, KeptBy key expires c)
    (hfew : (otherKeys key later).dedup.length < memoryCacheEntries) :
    Held (iter (after lru (past ++ .put key entry expires :: later))) key (entry, expires)
      (otherKeys key later) := by
  induction later using List.reverseRecOn with
  | nil =>
    have hcap : 0 < cap (after lru past) := by
      rw [cap_after hlru]
      decide
    rw [after, List.foldl_append, List.foldl_cons, List.foldl_nil, ← after]
    exact Held.put_self hlru hcap
  | append_singleton later c ih =>
    have hc : KeptBy key expires c := hkept c (List.mem_append_right _ List.mem_cons_self)
    rw [otherKeys_append] at hfew ⊢
    have hsub : otherKeys key later ⊆
        otherKeys key later ++ if c.key = key then [] else [c.key] := List.subset_append_left _ _
    have hheld := ih (fun c hc => hkept c (List.mem_append_left _ hc))
      (Nat.lt_of_le_of_lt (length_dedup_le hsub) hfew)
    have hafter : after lru (past ++ .put key entry expires :: (later ++ [c])) =
        step lru (after lru (past ++ .put key entry expires :: later)) c := by
      rw [after, ← List.cons_append, ← List.append_assoc, List.foldl_append, ← after]
      rfl
    rw [hafter]
    by_cases hkey : c.key = key
    · -- a read of the key itself moves the entry to the front
      rw [if_pos hkey, List.append_nil]
      cases c with
      | put k e x => exact absurd hkey hc
      | get t k =>
        have hk : k = key := hkey
        subst hk
        exact (held_get_self hlru hheld (hc rfl)).1.mono (List.nil_subset _)
    · rw [if_neg hkey] at hfew ⊢
      have hroom : (c.key :: otherKeys key later).dedup.length < memoryCacheEntries := by
        apply Nat.lt_of_le_of_lt (length_dedup_le _) hfew
        exact (List.perm_append_singleton _ _).symm.subset
      rw [← cap_after hlru (past ++ .put key entry expires :: later)] at hroom
      have hmono : c.key :: otherKeys key later ⊆ otherKeys key later ++ [c.key] :=
        (List.perm_append_singleton _ _).symm.subset
      apply Held.mono _ hmono
      cases c with
      | put k e x => exact hheld.put hlru hkey hroom
      | get t k => exact held_get hlru hheld hkey

/-- For every sequence of calls, from any tasks in any order, and every cache that does what
    `lru::LruCache` documents: a read answers only with the last entry that was put under its
    key, unexpired then and at every read since; and it does answer so when fewer than 1024
    other keys were used since. -/
theorem memory_cache_answers (lru : LruCache σ Str (Bytes × SystemTime))
    (iter : σ → List (Str × (Bytes × SystemTime))) (cap : σ → Nat)
    (hlru : lru.Documented iter cap) (calls : List CacheCall) (now : SystemTime) (key : Str)
    (entry : Bytes) :
    ((MemoryRevocationCache.get lru (after lru calls) now key).2 = some entry →
      ∃ expires, now < expires ∧ LastPut calls key entry expires) ∧
    ∀ past later expires, calls = past ++ .put key entry expires :: later →
      (∀ c ∈ later, KeptBy key expires c) → now < expires →
      (otherKeys key later).dedup.length < 1024 →
      (MemoryRevocationCache.get lru (after lru calls) now key).2 = some entry := by
  constructor
  · intro h
    have hvalue := hlru.get_value (after lru calls) key
    rw [MemoryRevocationCache.get] at h
    split at h
    · rename_i entries' entry' expires hread
      rw [hread] at hvalue
      split at h
      · rename_i halive
        rw [← Option.some.inj h]
        exact ⟨expires, halive, lastPut_of_lookup hlru hvalue.symm⟩
      · cases h
    · cases h
  · intro past later expires hcalls hkept halive hfew
    rw [hcalls]
    exact (held_get_self hlru (held_after hlru past hkept hfew) halive).2

/-- With a cache that is a list, an entry is read while it lives. -/
theorem memory_cache_answers_one :
    (MemoryRevocationCache.get .ofList
      (after .ofList [.put "crl:a" [1] 10, .get 4 "crl:b", .put "crl:b" [2] 7]) 5 "crl:a").2 =
        some [1] := by
  apply (memory_cache_answers .ofList _ _ documented_ofList _ 5 "crl:a" [1]).2 []
    [.get 4 "crl:b", .put "crl:b" [2] 7] 10 rfl
  · intro c hc
    have hne : ("crl:b" : Str) ≠ "crl:a" := by simp
    obtain rfl | rfl : c = .get 4 "crl:b" ∨ c = .put "crl:b" [2] 7 := by simpa using hc
    · exact fun hkey => absurd hkey hne
    · exact hne
  · decide
  · decide

end

end Asx
