import Asx.ForStd.List
import Asx.Native.Dedup

/-!
# Histories of a dedup store

What a `DedupStore` promises, said of the history of its calls alone: which leases are
open, which tokens are stale, and what an accepted key is answered. `MemoryDedup` is then
shown to keep these promises in every run whose clock does not go back.

## Main results
- `Tracks.perform`: one call keeps the store in step with the history
- `memoryDedup_safe`: leases, retention, stale tokens, isolation of keys and the sweep
-/

namespace Asx

/-! ## The contract -/

namespace StoreEvent

/-- The call took the key under the token. -/
def Granted (e : StoreEvent) (key : Str) (token : ClaimToken) : Prop :=
  e.key = key ∧ e.call = .claim (.ok (.claimed token))

/-- The call settled the key's claim under the token. -/
def Settled (e : StoreEvent) (key : Str) (token : ClaimToken) : Prop :=
  e.key = key ∧ (e.call = .accept token (.ok ()) ∨ e.call = .abandon token (.ok ()))

/-- What an accepted key is answered: `Duplicate`, or a failure to settle. -/
def Refused (e : StoreEvent) : Prop :=
  e.call = .claim (.ok .duplicate) ∨
    ∃ token err, e.call = .accept token (.error err) ∨ e.call = .abandon token (.error err)

end StoreEvent

/-- A lease that a claim of the history opened and no call settled, with its expiry. -/
def OpenLease (h : List StoreEvent) (key : Str) (token : ClaimToken) (expires : Nat) : Prop :=
  ∃ (pre : List StoreEvent) (e : StoreEvent) (post : List StoreEvent), h = pre ++ e :: post ∧
    e.Granted key token ∧ expires = e.now + lease ∧ ∀ e' ∈ post, ¬ e'.Settled key token

/-- A token of an earlier claim whose lease has expired or was settled. -/
def StaleToken (h : List StoreEvent) (key : Str) (token : ClaimToken) (now : Nat) : Prop :=
  ∃ (pre : List StoreEvent) (e : StoreEvent) (post : List StoreEvent), h = pre ++ e :: post ∧
    e.Granted key token ∧ (e.now + lease ≤ now ∨ ∃ e' ∈ post, e'.Settled key token)

/-- A token that no claim of the key returned. -/
def ForeignToken (h : List StoreEvent) (key : Str) (token : ClaimToken) : Prop :=
  ∀ e ∈ h, ¬ e.Granted key token

/-- Tokens are fresh: no two claims of a key return the same. -/
def FreshTokens (h : List StoreEvent) : Prop :=
  h.Pairwise fun e e' => ∀ key token, e.Granted key token → ¬ e'.Granted key token

/-- What `DedupStore` documents of the history of its calls: a claim carries a token that is
    fresh for its key, only the token of a claim that is not settled yet settles, and an
    accepted key is answered as a duplicate for at least the minimum retention. -/
structure DedupContract (h : List StoreEvent) : Prop where
  fresh : FreshTokens h
  current : ∀ pre (e : StoreEvent) post key token, h = pre ++ e :: post → e.Settled key token →
    ∃ (p : List StoreEvent) (g : StoreEvent) (q : List StoreEvent), pre = p ++ g :: q ∧
      g.Granted key token ∧ ∀ e' ∈ q, ¬ e'.Settled key token
  remembered : ∀ pre (e : StoreEvent) post token, h = pre ++ e :: post →
    e.call = .accept token (.ok ()) →
    ∀ e' ∈ post, e'.key = e.key → e'.now < e.now + minRetention → e'.Refused

/-- A lease is open after a call that grants it, or before a call that does not settle it. -/
theorem openLease_append_iff (h : List StoreEvent) (e : StoreEvent) (key : Str)
    (token : ClaimToken) (expires : Nat) :
    OpenLease (h ++ [e]) key token expires ↔
      (e.Granted key token ∧ expires = e.now + lease) ∨
        (OpenLease h key token expires ∧ ¬ e.Settled key token) := by
  constructor
  · rintro ⟨pre, x, post, heq, hg, hexp, hs⟩
    rcases List.eq_nil_or_concat post with rfl | ⟨post', y, rfl⟩
    · obtain ⟨_, hx⟩ := List.append_inj' heq rfl
      obtain rfl : e = x := by simpa using hx
      exact .inl ⟨hg, hexp⟩
    · have heq' : h ++ [e] = (pre ++ x :: post') ++ [y] := by simpa using heq
      obtain ⟨hh, hy⟩ := List.append_inj' heq' rfl
      obtain rfl : e = y := by simpa using hy
      refine .inr ⟨⟨pre, x, post', hh, hg, hexp, fun e' he' => hs e' ?_⟩, hs e ?_⟩
      · simp [he']
      · simp
  · rintro (⟨hg, hexp⟩ | ⟨⟨pre, x, post, rfl, hg, hexp, hs⟩, hns⟩)
    · exact ⟨h, e, [], rfl, hg, hexp, by simp⟩
    · refine ⟨pre, x, post ++ [e], by simp, hg, hexp, fun e' he' => ?_⟩
      rcases List.mem_append.mp he' with he' | he'
      · exact hs e' he'
      · obtain rfl := List.mem_singleton.mp he'
        exact hns

/-- With fresh tokens, an open lease that has not expired is not a stale one. -/
theorem StaleToken.not_open {h : List StoreEvent} {key : Str} {token : ClaimToken}
    {now expires : Nat} (hfresh : FreshTokens h) (hstale : StaleToken h key token now)
    (hopen : OpenLease h key token expires) : expires ≤ now := by
  obtain ⟨pre, e, post, rfl, hg, hcase⟩ := hstale
  obtain ⟨pre', e', post', heq, hg', rfl, hs⟩ := hopen
  -- the two grants are one call, since two would share a token
  obtain ⟨rfl, rfl, rfl⟩ := List.Pairwise.split_unique
    (hfresh.imp fun hne => hne key token) rfl heq hg hg'
  rcases hcase with hexp | ⟨e', he', hset⟩
  · exact hexp
  · exact absurd hset (hs e' he')

/-- A token of somebody else opens no lease. -/
theorem ForeignToken.not_open {h : List StoreEvent} {key : Str} {token : ClaimToken}
    {expires : Nat} (hforeign : ForeignToken h key token) : ¬ OpenLease h key token expires := by
  rintro ⟨pre, e, post, rfl, hg, _, _⟩
  exact hforeign e (by simp) hg

/-! ## One call of `MemoryDedup` -/

namespace MemoryDedup

/-- The entry of a key, unless it has expired. -/
def live (s : MemoryDedup) (now : Nat) (key : Str) : Option DedupEntry :=
  (s.entries key).filter fun entry => now < entry.expires

/-- An entry is live until it expires. -/
theorem live_eq_some_iff {s : MemoryDedup} {now : Nat} {key : Str} {entry : DedupEntry} :
    s.live now key = some entry ↔ s.entries key = some entry ∧ now < entry.expires := by
  simp [live, Option.filter_eq_some_iff]

/-- The purge keeps the live entries. -/
@[simp] theorem entries_retain (s : MemoryDedup) (now : Nat) (key : Str) :
    (s.retain now).entries key = s.live now key := rfl

/-- The sweep keeps what is live, now and later. -/
theorem live_retain (s : MemoryDedup) {now now' : Nat} (h : now ≤ now') (key : Str) :
    (s.retain now).live now' key = s.live now' key := by
  unfold live
  rw [entries_retain, live, Option.filter_filter]
  congr 1
  funext entry
  by_cases he : now' < entry.expires
  · simp [he, Nat.lt_of_le_of_lt h he]
  · simp [he]

@[simp] theorem entries_insert_self (s : MemoryDedup) (key : Str) (entry : DedupEntry) :
    (s.insert key entry).entries key = some entry := by
  simp [insert]

@[simp] theorem entries_remove_self (s : MemoryDedup) (key : Str) :
    (s.remove key).entries key = none := by
  simp [remove]

theorem entries_insert_of_ne (s : MemoryDedup) {key key' : Str} (h : key' ≠ key)
    (entry : DedupEntry) : (s.insert key entry).entries key' = s.entries key' := by
  simp [insert, h]

theorem entries_remove_of_ne (s : MemoryDedup) {key key' : Str} (h : key' ≠ key) :
    (s.remove key).entries key' = s.entries key' := by
  simp [remove, h]

/-- Everything a call can do: the live entry of its key decides the answer, and only that
    entry and expired ones change. -/
inductive Step (s : MemoryDedup) (now : Nat) (key : Str) : MemoryDedup → StoreCall → Prop
  | duplicate {expires : Nat} (h : s.live now key = some (.accepted expires)) :
    Step s now key (s.retain now) (.claim (.ok .duplicate))
  | inFlight {token : ClaimToken} {expires : Nat} (h : s.live now key = some (.held token expires)) :
    Step s now key (s.retain now) (.claim (.ok .inFlight))
  | noToken (err : Str) (h : s.live now key = none) :
    Step s now key (s.retain now) (.claim (.error err))
  | claimed (token : ClaimToken) (h : s.live now key = none) :
    Step s now key ((s.retain now).insert key (.held token (now + lease)))
      (.claim (.ok (.claimed token)))
  | accept {token : ClaimToken} {expires : Nat} (h : s.live now key = some (.held token expires)) :
    Step s now key (s.insert key (.accepted (now + retention))) (.accept token (.ok ()))
  | abandon {token : ClaimToken} {expires : Nat} (h : s.live now key = some (.held token expires)) :
    Step s now key (s.remove key) (.abandon token (.ok ()))
  | acceptFails {token : ClaimToken} (h : ∀ expires, s.live now key ≠ some (.held token expires)) :
    Step s now key s (.accept token (.error notHeld))
  | abandonFails {token : ClaimToken} (h : ∀ expires, s.live now key ≠ some (.held token expires)) :
    Step s now key s (.abandon token (.error notHeld))

/-- `settle` succeeds under the token of a live lease, and otherwise changes nothing. -/
theorem settle_cases (s : MemoryDedup) (now : Nat) (key : Str) (token : ClaimToken)
    (accept : Bool) :
    (∃ expires, s.live now key = some (.held token expires) ∧
      s.settle now key token accept =
        (if accept then s.insert key (.accepted (now + retention)) else s.remove key, .ok ())) ∨
    ((∀ expires, s.live now key ≠ some (.held token expires)) ∧
      s.settle now key token accept = (s, .error notHeld)) := by
  unfold settle
  cases hentry : s.entries key with
  | none =>
    refine .inr ⟨fun expires => ?_, rfl⟩
    simp [live, hentry]
  | some entry =>
    cases entry with
    | accepted expires =>
      refine .inr ⟨fun expires => ?_, rfl⟩
      simp [live_eq_some_iff, hentry]
    | held held expires =>
      by_cases hcond : held = token ∧ now < expires
      · obtain ⟨rfl, hlt⟩ := hcond
        refine .inl ⟨expires, live_eq_some_iff.mpr ⟨hentry, hlt⟩, ?_⟩
        simp [hlt]
      · refine .inr ⟨fun expires' hlive => hcond ?_, by simp only [if_neg hcond]⟩
        obtain ⟨hsome, hlt⟩ := live_eq_some_iff.mp hlive
        rw [hentry] at hsome
        obtain ⟨rfl, rfl⟩ : held = token ∧ expires = expires' := by simpa using hsome
        exact ⟨rfl, hlt⟩

/-- What the store does is one of its steps. -/
theorem perform_step (s : MemoryDedup) (r : DedupRequest) :
    ∃ s' call, s.perform r = (s', ⟨r.now, r.key, call⟩) ∧ Step s r.now r.key s' call := by
  obtain ⟨now, key, op⟩ := r
  cases op with
  | claim random =>
    simp only [perform, claimNow, entries_retain]
    cases hlive : s.live now key with
    | some entry =>
      cases entry with
      | accepted expires => exact ⟨_, _, rfl, .duplicate hlive⟩
      | held token expires => exact ⟨_, _, rfl, .inFlight hlive⟩
    | none =>
      cases freshToken random with
      | error err => exact ⟨_, _, rfl, .noToken err hlive⟩
      | ok token => exact ⟨_, _, rfl, .claimed ⟨token⟩ hlive⟩
  | accept token =>
    simp only [perform]
    rcases settle_cases s now key token true with ⟨expires, hlive, heq⟩ | ⟨hnot, heq⟩
    · exact ⟨_, _, by rw [heq]; rfl, .accept hlive⟩
    · exact ⟨_, _, by rw [heq], .acceptFails hnot⟩
  | abandon token =>
    simp only [perform]
    rcases settle_cases s now key token false with ⟨expires, hlive, heq⟩ | ⟨hnot, heq⟩
    · exact ⟨_, _, by rw [heq]; rfl, .abandon hlive⟩
    · exact ⟨_, _, by rw [heq], .abandonFails hnot⟩

/-- What is live later is what is live now, less what expires until then. -/
theorem live_later_eq {s t : MemoryDedup} {now now' : Nat} {key : Str} (hnow : now ≤ now')
    (h : s.live now key = t.live now key) : s.live now' key = t.live now' key := by
  rw [← s.live_retain hnow, ← t.live_retain hnow, live, live, entries_retain, entries_retain, h]

/-- A settling call depends on the live entry of its key alone. -/
theorem settle_congr {s t : MemoryDedup} {now : Nat} {key : Str} (token : ClaimToken)
    (accept : Bool) (h : s.live now key = t.live now key) :
    (s.settle now key token accept).2 = (t.settle now key token accept).2 ∧
      ∀ now', now ≤ now' → (s.settle now key token accept).1.live now' key =
        (t.settle now key token accept).1.live now' key := by
  rcases settle_cases s now key token accept with ⟨expires, hs, heqs⟩ | ⟨hs, heqs⟩
  · rcases settle_cases t now key token accept with ⟨expires', ht, heqt⟩ | ⟨ht, heqt⟩
    · rw [heqs, heqt]
      refine ⟨rfl, fun now' _ => ?_⟩
      cases accept with
      | true => simp [live]
      | false => simp [live]
    · exact absurd (h ▸ hs) (ht expires)
  · rcases settle_cases t now key token accept with ⟨expires', ht, heqt⟩ | ⟨ht, heqt⟩
    · exact absurd (h.trans ht) (hs expires')
    · rw [heqs, heqt]
      exact ⟨rfl, fun now' hnow => live_later_eq hnow h⟩

/-- A call answers by what is live under its key, and what it leaves there depends on nothing
    else. -/
theorem perform_congr {s t : MemoryDedup} {r : DedupRequest}
    (h : s.live r.now r.key = t.live r.now r.key) :
    (s.perform r).2 = (t.perform r).2 ∧
      ∀ now', r.now ≤ now' → (s.perform r).1.live now' r.key = (t.perform r).1.live now' r.key := by
  obtain ⟨now, key, op⟩ := r
  cases op with
  | claim random =>
    have hretain : ∀ now', now ≤ now' →
        (s.retain now).live now' key = (t.retain now).live now' key := by
      intro now' hnow
      rw [live_retain _ hnow, live_retain _ hnow, live_later_eq hnow h]
    simp only [perform, claimNow, entries_retain]
    rw [show s.live now key = t.live now key from h]
    cases t.live now key with
    | some entry =>
      cases entry with
      | accepted expires => exact ⟨rfl, hretain⟩
      | held token expires => exact ⟨rfl, hretain⟩
    | none =>
      cases freshToken random with
      | error err => exact ⟨rfl, hretain⟩
      | ok token => exact ⟨rfl, fun now' _ => by simp [live]⟩
  | accept token =>
    obtain ⟨hanswer, hlive⟩ := settle_congr token true h
    exact ⟨by simp only [perform]; rw [hanswer], hlive⟩
  | abandon token =>
    obtain ⟨hanswer, hlive⟩ := settle_congr token false h
    exact ⟨by simp only [perform]; rw [hanswer], hlive⟩

/-- A call does not change what is live under another key. -/
theorem Step.live_of_ne {s s' : MemoryDedup} {now now' : Nat} {key key' : Str} {call : StoreCall}
    (h : Step s now key s' call) (hne : key' ≠ key) (hnow : now ≤ now') :
    s'.live now' key' = s.live now' key' := by
  cases h with
  | duplicate | inFlight | noToken => exact s.live_retain hnow key'
  | claimed =>
    unfold live
    rw [entries_insert_of_ne _ hne]
    exact s.live_retain hnow key'
  | accept =>
    unfold live
    rw [entries_insert_of_ne _ hne]
  | abandon =>
    unfold live
    rw [entries_remove_of_ne _ hne]
  | acceptFails | abandonFails => rfl

/-! ## Runs -/

theorem run_cons (s : MemoryDedup) (r : DedupRequest) (rs : List DedupRequest) :
    s.run (r :: rs) = (((s.perform r).1.run rs).1, (s.perform r).2 :: ((s.perform r).1.run rs).2) :=
  rfl

/-- A run goes on from where it stopped. -/
theorem run_append (s : MemoryDedup) (rs rs' : List DedupRequest) :
    s.run (rs ++ rs') =
      (((s.run rs).1.run rs').1, (s.run rs).2 ++ ((s.run rs).1.run rs').2) := by
  induction rs generalizing s with
  | nil => rfl
  | cons r rs ih =>
    rw [List.cons_append, run_cons, ih, run_cons]
    rfl

/-- The store holds the open leases of the history, all those that are live at `now`. -/
structure Tracks (h : List StoreEvent) (s : MemoryDedup) (now : Nat) : Prop where
  open_of_held : ∀ key token expires, s.entries key = some (.held token expires) →
    OpenLease h key token expires
  held_of_open : ∀ key token expires, OpenLease h key token expires → now < expires →
    s.entries key = some (.held token expires)

/-- An empty store has nothing to track. -/
theorem tracks_empty (now : Nat) : Tracks [] empty now where
  open_of_held := by simp [empty]
  held_of_open := by
    rintro key token expires ⟨pre, e, post, hnil, _⟩
    simp at hnil

/-- A live lease is in the store, also at a later time. -/
theorem Tracks.live_of_open {h : List StoreEvent} {s : MemoryDedup} {now now' : Nat}
    (ht : Tracks h s now) (hnow : now ≤ now') {key : Str} {token : ClaimToken} {expires : Nat}
    (ho : OpenLease h key token expires) (hlt : now' < expires) :
    s.live now' key = some (.held token expires) :=
  live_eq_some_iff.mpr ⟨ht.held_of_open key token expires ho (by omega), hlt⟩

section Step

variable {h : List StoreEvent} {s s' : MemoryDedup} {now now' : Nat} {key : Str} {call : StoreCall}

/-- A call that opens and settles nothing, and drops at most expired entries. -/
private theorem Tracks.sweep (ht : Tracks h s now) (hnow : now ≤ now')
    (hg : ∀ key' token, ¬ StoreEvent.Granted ⟨now', key, call⟩ key' token)
    (hs : ∀ key' token, ¬ StoreEvent.Settled ⟨now', key, call⟩ key' token)
    (hback : ∀ key' entry, s'.entries key' = some entry → s.entries key' = some entry)
    (hforth : ∀ key' entry, s.live now' key' = some entry → s'.entries key' = some entry) :
    Tracks (h ++ [⟨now', key, call⟩]) s' now' := by
  constructor
  · intro key' token expires hheld
    rw [openLease_append_iff]
    exact .inr ⟨ht.open_of_held _ _ _ (hback _ _ hheld), hs _ _⟩
  · intro key' token expires ho hlt
    rcases (openLease_append_iff ..).mp ho with ⟨hgr, _⟩ | ⟨ho, _⟩
    · exact absurd hgr (hg _ _)
    · exact hforth _ _ (ht.live_of_open hnow ho hlt)

/-- A call that settles the lease of its key. -/
private theorem Tracks.settled (ht : Tracks h s now) (hnow : now ≤ now') {token : ClaimToken}
    {expires : Nat} (hcall : call = .accept token (.ok ()) ∨ call = .abandon token (.ok ()))
    (hheld : s.live now' key = some (.held token expires))
    (hgone : ∀ token expires, s'.entries key ≠ some (.held token expires))
    (hframe : ∀ key', key' ≠ key → s'.entries key' = s.entries key') :
    Tracks (h ++ [⟨now', key, call⟩]) s' now' := by
  constructor
  · intro key' token' expires' hs'
    have hne : key' ≠ key := by
      rintro rfl
      exact hgone _ _ hs'
    rw [hframe key' hne] at hs'
    rw [openLease_append_iff]
    exact .inr ⟨ht.open_of_held _ _ _ hs', fun hset => hne hset.1.symm⟩
  · intro key' token' expires' ho hlt
    rcases (openLease_append_iff ..).mp ho with ⟨⟨_, hgr⟩, _⟩ | ⟨ho, hns⟩
    · rcases hcall with rfl | rfl
      · simp at hgr
      · simp at hgr
    · have hl := ht.live_of_open hnow ho hlt
      have hne : key' ≠ key := by
        rintro rfl
        rw [hheld] at hl
        obtain ⟨rfl, rfl⟩ : token = token' ∧ expires = expires' := by simpa using hl
        exact hns ⟨rfl, hcall⟩
      rw [hframe key' hne]
      exact (live_eq_some_iff.mp hl).1

/-- A claim that takes its key. -/
private theorem Tracks.claimed (ht : Tracks h s now) (hnow : now ≤ now') (token : ClaimToken)
    (hnone : s.live now' key = none) :
    Tracks (h ++ [⟨now', key, .claim (.ok (.claimed token))⟩])
      ((s.retain now').insert key (.held token (now' + lease))) now' := by
  constructor
  · intro key' token' expires' hs'
    rw [openLease_append_iff]
    by_cases hne : key' = key
    · subst hne
      rw [entries_insert_self] at hs'
      obtain ⟨rfl, rfl⟩ : token = token' ∧ now' + lease = expires' := by simpa using hs'
      exact .inl ⟨⟨rfl, rfl⟩, rfl⟩
    · rw [entries_insert_of_ne _ hne, entries_retain] at hs'
      exact .inr ⟨ht.open_of_held _ _ _ (live_eq_some_iff.mp hs').1, by simp [StoreEvent.Settled]⟩
  · intro key' token' expires' ho hlt
    rcases (openLease_append_iff ..).mp ho with ⟨⟨hk, hc⟩, hexp⟩ | ⟨ho, _⟩
    · obtain rfl : key = key' := hk
      obtain rfl : token = token' := by simpa using hc
      rw [entries_insert_self, hexp]
    · have hl := ht.live_of_open hnow ho hlt
      have hne : key' ≠ key := by
        rintro rfl
        rw [hnone] at hl
        simp at hl
      rw [entries_insert_of_ne _ hne]
      exact hl

/-- One call keeps the store in step with the history. -/
theorem Tracks.step (ht : Tracks h s now) (hnow : now ≤ now') (hstep : Step s now' key s' call) :
    Tracks (h ++ [⟨now', key, call⟩]) s' now' := by
  cases hstep with
  | duplicate | inFlight | noToken =>
    refine ht.sweep hnow (by simp [StoreEvent.Granted]) (by simp [StoreEvent.Settled]) ?_ ?_
    · intro key' entry hentry
      exact (live_eq_some_iff.mp hentry).1
    · intro key' entry hl
      exact hl
  | acceptFails | abandonFails =>
    refine ht.sweep hnow (by simp [StoreEvent.Granted]) (by simp [StoreEvent.Settled]) ?_ ?_
    · intro key' entry hentry
      exact hentry
    · intro key' entry hl
      exact (live_eq_some_iff.mp hl).1
  | accept hheld =>
    exact ht.settled hnow (.inl rfl) hheld (by simp) fun key' hne => s.entries_insert_of_ne hne _
  | abandon hheld =>
    exact ht.settled hnow (.inr rfl) hheld (by simp) fun key' hne => s.entries_remove_of_ne hne
  | claimed token hnone => exact ht.claimed hnow token hnone

end Step

/-- A non-decreasing clock. -/
def Clock (requests : List DedupRequest) : Prop := requests.Pairwise fun r r' => r.now ≤ r'.now

/-- A whole run keeps the store in step with the history. -/
theorem Tracks.run {h : List StoreEvent} {s : MemoryDedup} {now : Nat} (ht : Tracks h s now)
    {requests : List DedupRequest} (hclock : Clock requests)
    (hnow : ∀ r ∈ requests, now ≤ r.now) {final : Nat} (hfinal : now ≤ final)
    (hlast : ∀ r ∈ requests, r.now ≤ final) :
    Tracks (h ++ (s.run requests).2) (s.run requests).1 final := by
  induction requests generalizing h s now with
  | nil =>
    simp only [MemoryDedup.run, List.append_nil]
    refine ⟨ht.open_of_held, fun key token expires ho hlt => ?_⟩
    exact ht.held_of_open key token expires ho (by omega)
  | cons r rs ih =>
    obtain ⟨s', call, heq, hstep⟩ := perform_step s r
    obtain ⟨hr, hclock'⟩ := List.pairwise_cons.mp hclock
    have ht' := ht.step (hnow r List.mem_cons_self) hstep
    have hrun := ih ht' hclock' hr (hlast r List.mem_cons_self)
      fun r' hr' => hlast r' (List.mem_cons_of_mem _ hr')
    rw [run_cons, heq]
    simpa using hrun

/-- The events of a run are its requests, with answers. -/
theorem run_requests (s : MemoryDedup) (requests : List DedupRequest) :
    (s.run requests).2.map (fun e => (e.now, e.key)) = requests.map fun r => (r.now, r.key) := by
  induction requests generalizing s with
  | nil => rfl
  | cons r rs ih =>
    obtain ⟨s', call, heq, _⟩ := perform_step s r
    rw [run_cons, heq, List.map_cons, List.map_cons, ih]

theorem exists_request_of_mem_run {s : MemoryDedup} {requests : List DedupRequest} {e : StoreEvent}
    (h : e ∈ (s.run requests).2) : ∃ r ∈ requests, r.now = e.now := by
  have hmem : (e.now, e.key) ∈ requests.map fun r => (r.now, r.key) := by
    rw [← run_requests s]
    exact List.mem_map_of_mem (f := fun e : StoreEvent => (e.now, e.key)) h
  obtain ⟨r, hr, heq⟩ := List.mem_map.mp hmem
  exact ⟨r, hr, congrArg Prod.fst heq⟩

/-- A call within a history is a call of the run, between two shorter runs. -/
theorem exists_split_of_run {s : MemoryDedup} {requests : List DedupRequest}
    {pre post : List StoreEvent} {e : StoreEvent} (h : (s.run requests).2 = pre ++ e :: post) :
    ∃ rs r rs', requests = rs ++ r :: rs' ∧ (s.run rs).2 = pre ∧
      ((s.run rs).1.perform r).2 = e ∧ (((s.run rs).1.perform r).1.run rs').2 = post := by
  induction pre generalizing s requests with
  | nil =>
    cases requests with
    | nil => simp [run] at h
    | cons r rs =>
      rw [run_cons] at h
      obtain ⟨he, hpost⟩ := List.cons.inj h
      exact ⟨[], r, rs, rfl, rfl, he, hpost⟩
  | cons x pre ih =>
    cases requests with
    | nil => simp [run] at h
    | cons r rs =>
      rw [run_cons] at h
      obtain ⟨hx, hrest⟩ := List.cons.inj h
      obtain ⟨rs₁, r', rs₂, rfl, hpre, he, hpost⟩ := ih hrest
      refine ⟨r :: rs₁, r', rs₂, rfl, ?_, he, hpost⟩
      rw [run_cons, hx, hpre]

/-- No call takes away an accepted entry before it expires. -/
theorem Step.accepted {s s' : MemoryDedup} {now expires : Nat} {key key' : Str}
    {call : StoreCall} (h : Step s now key s' call)
    (hl : s.live now key' = some (.accepted expires)) :
    s'.live now key' = some (.accepted expires) := by
  by_cases hne : key' = key
  · subst hne
    cases h with
    | duplicate => rw [s.live_retain le_rfl, hl]
    | acceptFails | abandonFails => exact hl
    | inFlight h | accept h | abandon h => simp [hl] at h
    | noToken _ h | claimed _ h => simp [hl] at h
  · rw [h.live_of_ne hne le_rfl, hl]

/-- A call on an accepted key is refused until the entry expires. -/
theorem Step.refused {s s' : MemoryDedup} {now expires : Nat} {key : Str} {call : StoreCall}
    (h : Step s now key s' call) (hl : s.live now key = some (.accepted expires)) :
    StoreEvent.Refused ⟨now, key, call⟩ := by
  cases h with
  | duplicate => exact .inl rfl
  | acceptFails => exact .inr ⟨_, _, .inl rfl⟩
  | abandonFails => exact .inr ⟨_, _, .inr rfl⟩
  | inFlight h | accept h | abandon h => simp [hl] at h
  | noToken _ h | claimed _ h => simp [hl] at h

/-- The history of an accepted key: until the entry expires every call is refused. -/
theorem refused_of_accepted {s : MemoryDedup} {key : Str} {expires : Nat}
    (hentry : s.entries key = some (.accepted expires)) {requests : List DedupRequest}
    (hclock : Clock requests) :
    ∀ e ∈ (s.run requests).2, e.key = key → e.now < expires → e.Refused := by
  induction requests generalizing s with
  | nil => simp [run]
  | cons r rs ih =>
    obtain ⟨s', call, heq, hstep⟩ := perform_step s r
    obtain ⟨hr, hclock'⟩ := List.pairwise_cons.mp hclock
    intro e he hkey hlt
    rw [run_cons, heq] at he
    rcases List.mem_cons.mp he with rfl | he
    · obtain rfl : r.key = key := hkey
      exact hstep.refused (live_eq_some_iff.mpr ⟨hentry, hlt⟩)
    · -- a later call comes no earlier, so the entry is live now too
      obtain ⟨r', hr', hnow⟩ := exists_request_of_mem_run he
      have hle : r.now < expires := by
        have := hr r' hr'
        omega
      have hl := hstep.accepted (live_eq_some_iff.mpr ⟨hentry, hle⟩)
      exact ih (live_eq_some_iff.mp hl).1 hclock' e he hkey hlt

/-- Two stores with the same live entry of a key answer the requests for that key alike, and
    the other requests do not matter. -/
theorem run_filter_key {s t : MemoryDedup} {now : Nat} {key : Str}
    (hlive : s.live now key = t.live now key) {requests : List DedupRequest}
    (hclock : Clock requests) (hnow : ∀ r ∈ requests, now ≤ r.now) :
    (s.run requests).2.filter (·.key = key) = (t.run (requests.filter (·.key = key))).2 := by
  induction requests generalizing s t now with
  | nil => rfl
  | cons r rs ih =>
    obtain ⟨hr, hclock'⟩ := List.pairwise_cons.mp hclock
    have hrnow := hnow r List.mem_cons_self
    obtain ⟨s', call, heq, hstep⟩ := perform_step s r
    by_cases hkey : r.key = key
    · subst hkey
      obtain ⟨hanswer, hlater⟩ := perform_congr (live_later_eq hrnow hlive)
      rw [List.filter_cons_of_pos (by simp), run_cons, run_cons, ← hanswer,
        ← ih (hlater r.now le_rfl) hclock' hr, List.filter_cons_of_pos (by simp [heq])]
    · rw [List.filter_cons_of_neg (by simpa using hkey), run_cons,
        List.filter_cons_of_neg (by simpa [heq] using hkey)]
      refine ih ?_ hclock' hr
      rw [heq, hstep.live_of_ne (Ne.symm hkey) le_rfl]
      exact live_later_eq hrnow hlive

/-- After a successful `accept` every call for the key is refused for the retention. -/
theorem refused_after_accept {requests : List DedupRequest} (hclock : Clock requests)
    {pre post : List StoreEvent} {e : StoreEvent} {token : ClaimToken}
    (hsplit : (empty.run requests).2 = pre ++ e :: post) (hcall : e.call = .accept token (.ok ())) :
    ∀ e' ∈ post, e'.key = e.key → e'.now < e.now + retention → e'.Refused := by
  intro e' he' hkey hlt
  obtain ⟨rs, r, rs', rfl, rfl, rfl, rfl⟩ := exists_split_of_run hsplit
  obtain ⟨s', call, heq, hstep⟩ := perform_step (empty.run rs).1 r
  rw [heq] at hcall hkey hlt he'
  obtain rfl : call = .accept token (.ok ()) := hcall
  cases hstep with
  | accept _ =>
    have hclock' := (List.pairwise_cons.mp (List.pairwise_append.mp hclock).2.1).2
    exact refused_of_accepted (entries_insert_self _ _ _) hclock' e' he' hkey hlt

/-- The store after a run is in step with its history. -/
theorem tracks_run {requests : List DedupRequest} (hclock : Clock requests) {now : Nat}
    (hnow : ∀ r ∈ requests, r.now ≤ now) :
    Tracks (empty.run requests).2 (empty.run requests).1 now := by
  simpa using (tracks_empty 0).run hclock (fun r _ => Nat.zero_le _) (Nat.zero_le now) hnow

/-- `MemoryDedup` keeps the contract of a dedup store. -/
theorem dedupContract_run {requests : List DedupRequest} (hclock : Clock requests)
    (hfresh : FreshTokens (empty.run requests).2) : DedupContract (empty.run requests).2 where
  fresh := hfresh
  current := by
    intro pre e post key token hsplit hsettled
    obtain ⟨rs, r, rs', rfl, rfl, rfl, _⟩ := exists_split_of_run hsplit
    obtain ⟨s', call, heq, hstep⟩ := perform_step (empty.run rs).1 r
    rw [heq] at hsettled
    obtain ⟨rfl, hcall⟩ := hsettled
    obtain ⟨hrs, _, hle⟩ := List.pairwise_append.mp hclock
    have htracks := tracks_run hrs fun r' hr' => hle r' hr' r List.mem_cons_self
    have hopen : ∀ expires, (empty.run rs).1.live r.now r.key = some (.held token expires) →
        ∃ (p : List StoreEvent) (g : StoreEvent) (q : List StoreEvent),
          (empty.run rs).2 = p ++ g :: q ∧ g.Granted r.key token ∧ ∀ e' ∈ q, ¬ e'.Settled r.key token := by
      intro expires hlive
      obtain ⟨p, g, q, hsplit', hg, _, hs⟩ :=
        htracks.open_of_held _ _ _ (live_eq_some_iff.mp hlive).1
      exact ⟨p, g, q, hsplit', hg, hs⟩
    rcases hcall with rfl | rfl
    · cases hstep with
      | accept hlive => exact hopen _ hlive
    · cases hstep with
      | abandon hlive => exact hopen _ hlive
  remembered := by
    intro pre e post token hsplit hcall
    exact refused_after_accept hclock hsplit hcall

/-- A settling call under a token that is not the key's live lease changes nothing. -/
theorem perform_of_not_live {s : MemoryDedup} {now : Nat} {key : Str} {token : ClaimToken}
    {op : DedupOp} (h : ∀ expires, s.live now key ≠ some (.held token expires))
    (hop : op = .accept token ∨ op = .abandon token) :
    ∃ e, s.perform ⟨now, key, op⟩ = (s, e) ∧
      (e.call = .accept token (.error notHeld) ∨ e.call = .abandon token (.error notHeld)) := by
  have hsettle : ∀ accept, s.settle now key token accept = (s, .error notHeld) := by
    intro accept
    rcases settle_cases s now key token accept with ⟨expires, hlive, _⟩ | ⟨_, heq⟩
    · exact absurd hlive (h expires)
    · exact heq
  rcases hop with rfl | rfl
  · exact ⟨⟨now, key, .accept token (.error notHeld)⟩, by simp only [perform, hsettle], .inl rfl⟩
  · exact ⟨⟨now, key, .abandon token (.error notHeld)⟩, by simp only [perform, hsettle], .inr rfl⟩

/-- A claim leaves every live entry as it is. -/
theorem entries_claimNow_of_live {s : MemoryDedup} {now : Nat} (random : Except Str Bytes)
    (key : Str) {key' : Str} {entry : DedupEntry} (h : s.live now key' = some entry) :
    (s.claimNow now random key).1.entries key' = some entry := by
  simp only [claimNow, entries_retain]
  cases hlive : s.live now key with
  | some e =>
    cases e with
    | accepted expires => exact h
    | held token expires => exact h
  | none =>
    have hne : key' ≠ key := by
      rintro rfl
      rw [hlive] at h
      simp at h
    cases freshToken random with
    | error err => exact h
    | ok token =>
      rw [entries_insert_of_ne _ hne]
      exact h

/-! ## Safety -/

/-- What a history of `MemoryDedup` promises. -/
structure Safe (requests : List DedupRequest) : Prop where
  /-- At most one lease of a key has not expired. -/
  one_lease : ∀ key token token' expires expires' now, (∀ r ∈ requests, r.now ≤ now) →
    OpenLease (empty.run requests).2 key token expires → now < expires →
    OpenLease (empty.run requests).2 key token' expires' → now < expires' →
    token = token' ∧ expires = expires'
  /-- Once accepted, a key is answered `Duplicate` and not settled again for the retention. -/
  accepted : ∀ pre (e : StoreEvent) post token, (empty.run requests).2 = pre ++ e :: post →
    e.call = .accept token (.ok ()) →
    ∀ e' ∈ post, e'.key = e.key → e'.now < e.now + retention → e'.Refused
  /-- A stale, expired or foreign token settles nothing, and no later answer changes. -/
  not_settled : ∀ key token now op, (∀ r ∈ requests, r.now ≤ now) →
    StaleToken (empty.run requests).2 key token now ∨
      ForeignToken (empty.run requests).2 key token →
    op = .accept token ∨ op = .abandon token →
    ∃ e : StoreEvent, ((empty.run requests).1.perform ⟨now, key, op⟩).2 = e ∧
      (e.call = .accept token (.error notHeld) ∨ e.call = .abandon token (.error notHeld)) ∧
      ∀ later, (empty.run (requests ++ ⟨now, key, op⟩ :: later)).2 =
        (empty.run requests).2 ++ e :: ((empty.run requests).1.run later).2
  /-- The answers for a key are those of the requests for that key alone. -/
  isolated : ∀ key, (empty.run requests).2.filter (·.key = key) =
    (empty.run (requests.filter (·.key = key))).2
  /-- The sweep of a claim drops no live entry, of any key. -/
  sweep : ∀ now random key key' entry, (empty.run requests).1.entries key' = some entry →
    now < entry.expires →
    ((empty.run requests).1.claimNow now random key).1.entries key' = some entry

/-- `MemoryDedup` keeps its promises in every run with a non-decreasing clock and fresh
    tokens. -/
theorem memoryDedup_safe (requests : List DedupRequest) (hclock : Clock requests)
    (hfresh : FreshTokens (empty.run requests).2) : Safe requests := by
  constructor
  · intro key token token' expires expires' now hnow ho hlt ho' hlt'
    have h := (tracks_run hclock hnow).held_of_open key token expires ho hlt
    have h' := (tracks_run hclock hnow).held_of_open key token' expires' ho' hlt'
    rw [h] at h'
    simpa using h'
  · intro pre e post token hsplit hcall
    exact refused_after_accept hclock hsplit hcall
  · intro key token now op hnow htoken hop
    have hnot : ∀ expires, (empty.run requests).1.live now key ≠ some (.held token expires) := by
      intro expires hlive
      obtain ⟨hentry, hlt⟩ := live_eq_some_iff.mp hlive
      have ho := (tracks_run hclock hnow).open_of_held key token expires hentry
      rcases htoken with hstale | hforeign
      · have := hstale.not_open hfresh ho
        exact absurd hlt (by simp only [DedupEntry.expires]; omega)
      · exact hforeign.not_open ho
    obtain ⟨e, heq, hcall⟩ := perform_of_not_live hnot hop
    refine ⟨e, by rw [heq], hcall, fun later => ?_⟩
    rw [run_append, run_cons, heq]
  · intro key
    exact run_filter_key rfl hclock fun r _ => Nat.zero_le r.now
  · intro now random key key' entry hentry hlt
    exact entries_claimNow_of_live random key (live_eq_some_iff.mpr ⟨hentry, hlt⟩)

/-- Two clients of one key: the second waits for the first, which accepts. -/
def twoClients : List DedupRequest :=
  [⟨0, ['k'], .claim (.ok [1])⟩, ⟨lease - 1, ['k'], .claim (.ok [2])⟩,
    ⟨lease - 1, ['k'], .accept ⟨['0', '1']⟩⟩, ⟨lease, ['k'], .claim (.ok [3])⟩]

/-- Two clients that use the store in turns. -/
theorem memoryDedup_safe_two_clients :
    Clock twoClients ∧ FreshTokens (empty.run twoClients).2 ∧ Safe twoClients := by
  have hclock : Clock twoClients := by
    simp [Clock, twoClients, lease, fromSecs]
  have hrun : (empty.run twoClients).2 =
      [⟨0, ['k'], .claim (.ok (.claimed ⟨['0', '1']⟩))⟩,
        ⟨lease - 1, ['k'], .claim (.ok .inFlight)⟩,
        ⟨lease - 1, ['k'], .accept ⟨['0', '1']⟩ (.ok ())⟩,
        ⟨lease, ['k'], .claim (.ok .duplicate)⟩] := by
    rfl
  have hfresh : FreshTokens (empty.run twoClients).2 := by
    rw [hrun]
    simp [FreshTokens, StoreEvent.Granted]
  exact ⟨hclock, hfresh, memoryDedup_safe twoClients hclock hfresh⟩

end MemoryDedup

end Asx
