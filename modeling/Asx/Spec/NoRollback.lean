import Asx.Spec.RevocationMemo
import Asx.Spec.DistrustRule

/-!
# Whether a CRL can be replaced by an older one

A fetch compares the CRL that it has received with the memo and keeps the newer one. A check that
read the cache puts what it read into the memo without comparing it, so what was stored
meanwhile may be lost; and a fetch that finds the memo empty compares with nothing. Where
neither happens (`nothingNewer`), what is held for a key never gets older, over all
interleavings: fetches of a key exclude each other by its lock, and the memo is behind the cache
only while a fetch is between its two writes (`Ordered`).

## Main results
- `run_ordered`: how memo, cache and log stand to each other in every state
- `no_rollback_of_unspoiled`: neither memo nor cache nor the CRL of later checks gets older
-/

namespace Asx

/-- The `thisUpdate` of an encoded CRL. -/
def updateOf (lib : CrlLibrary) (der : Bytes) : SystemTime :=
  ((lib.parseCrl der).map fun p => p.2.lastUpdate).getD 0 * nanosPerSec

/-- The `thisUpdate` of a CRL that was accepted is that of its octets. -/
theorem parseAndVerify_thisUpdate {lib : CrlLibrary} {der signer : Bytes} {required : Bool}
    {crl : ParsedCrl} (h : parseAndVerify lib der signer required = .ok crl) :
    crl.thisUpdate = updateOf lib der := by
  simp only [parseAndVerify, Except.bind_eq_ok, Except.okOr_eq_ok, Except.pure_eq_ok] at h
  obtain ⟨_, -, key, -, _, -, p, hp, _, -, signerParsed, -, _, -, _, -, idp, -, _, -, _, -, q, -,
    rfl⟩ := h
  simp only [updateOf, hp, Option.map_some, Option.getD_some]

namespace CrlWorld

variable {lib : CrlLibrary} {rule : RevocationRule} {w w' : CrlWorld}

/-! ## What has been stored -/

/-- At least as new as every CRL stored for the key. -/
def Above (log : List FetchRecord) (key : Str) (update : SystemTime) : Prop :=
  ∀ r ∈ log, r.key = key → r.crl.thisUpdate ≤ update

/-- A CRL stored for the key is at least as new. -/
def Below (log : List FetchRecord) (key : Str) (update : SystemTime) : Prop :=
  ∃ r ∈ log, r.key = key ∧ update ≤ r.crl.thisUpdate

/-- What one stored CRL bounds is no newer than what bounds them all. -/
theorem Below.le_of_above {log : List FetchRecord} {key : Str} {u v : SystemTime}
    (h : Below log key u) (ha : Above log key v) : u ≤ v := by
  obtain ⟨r, hr, hkey, hle⟩ := h
  exact Int.le_trans hle (ha r hr hkey)

/-- What is below a stored CRL stays so in a longer log. -/
theorem Below.mono {log log' : List FetchRecord} {key : Str} {u : SystemTime}
    (h : Below log key u) (hlog : log ⊆ log') : Below log' key u := by
  obtain ⟨r, hr, hkey⟩ := h
  exact ⟨r, hlog hr, hkey⟩

theorem Above.trans {log : List FetchRecord} {key : Str} {u v : SystemTime}
    (h : Above log key u) (hle : u ≤ v) : Above log key v :=
  fun r hr hkey => Int.le_trans (h r hr hkey) hle

/-- The `thisUpdate` of the CRL in a cache entry. -/
def cachedUpdate (lib : CrlLibrary) (w : CrlWorld) (key : Str) : Option SystemTime :=
  (w.cache key).bind fun p => (openEntry p.1).map fun q => updateOf lib q.2

theorem cachedUpdate_eq_some {key : Str} {u : SystemTime} :
    cachedUpdate lib w key = some u ↔ ∃ entry expires storedAt der,
      w.cache key = some (entry, expires) ∧ openEntry entry = some (storedAt, der) ∧
      updateOf lib der = u := by
  simp only [cachedUpdate, Option.bind_eq_some_iff, Option.map_eq_some_iff, Prod.exists]
  constructor
  · rintro ⟨entry, expires, hcache, storedAt, der, hopen, hu⟩
    exact ⟨entry, expires, storedAt, der, hcache, hopen, hu⟩
  · rintro ⟨entry, expires, storedAt, der, hcache, hopen, hu⟩
    exact ⟨entry, expires, hcache, storedAt, der, hopen, hu⟩

/-! ## The condition -/

/-- The step is not one that may bring back an older CRL: where a check is about to remember
    what it read from the cache, or a fetch is about to compare with an empty memo, no newer CRL
    has been stored for the key. -/
def nothingNewer (lib : CrlLibrary) (w : CrlWorld) : CrlAction → Bool
  | .step i _ =>
    match w.tasks[i]? with
    | none => true
    | some t =>
      let isNewest (crl : ParsedCrl) : Bool := w.log.all fun r =>
        r.key ≠ t.call.key lib || decide (r.crl.thisUpdate ≤ crl.thisUpdate)
      match t.pc with
      | .remember _ _ _ crl => isNewest crl
      | .compare _ _ _ crl => (w.memo (t.call.key lib)).isSome || isNewest crl
      | _ => true
  | _ => true

/-- Every step of the run meets the condition. -/
def unspoiled (lib : CrlLibrary) (rule : RevocationRule) (clock : SystemTime)
    (actions : List CrlAction) : Bool :=
  (List.range actions.length).all fun n =>
    ((CrlWorld.new clock).run lib rule (actions.take n)).all fun w =>
      actions[n]?.all (nothingNewer lib w)

/-- In an unspoiled run every step meets the condition. -/
theorem nothingNewer_of_unspoiled {clock : SystemTime} {actions past : List CrlAction}
    {a : CrlAction} (h : unspoiled lib rule clock actions = true)
    (hpast : past ++ [a] <+: actions) (hrun : (CrlWorld.new clock).run lib rule past = some w) :
    nothingNewer lib w a = true := by
  obtain ⟨rest, rfl⟩ := hpast
  rw [unspoiled, List.all_eq_true] at h
  have hn := h past.length (by simp)
  have htake : (past ++ [a] ++ rest).take past.length = past := by simp
  have hget : (past ++ [a] ++ rest)[past.length]? = some a := by simp
  rw [htake, hrun, hget] at hn
  exact hn

theorem above_of_nothingNewer {i : Nat} {response : Option Bytes} {t : CrlTask}
    (h : nothingNewer lib w (.step i response) = true) (ht : w.tasks[i]? = some t) :
    (∀ now storedAt der crl, t.pc = .remember now storedAt der crl →
      Above w.log (t.call.key lib) crl.thisUpdate) ∧
    (∀ check now der crl, t.pc = .compare check now der crl → w.memo (t.call.key lib) = none →
      Above w.log (t.call.key lib) crl.thisUpdate) := by
  have habove {crl : ParsedCrl} (hall : (w.log.all fun r =>
      r.key ≠ t.call.key lib || decide (r.crl.thisUpdate ≤ crl.thisUpdate)) = true) :
      Above w.log (t.call.key lib) crl.thisUpdate := by
    intro r hr hkey
    simpa [hkey] using List.all_eq_true.mp hall r hr
  simp only [nothingNewer, ht] at h
  constructor
  · intro now storedAt der crl hpc
    rw [hpc] at h
    exact habove h
  · intro check now der crl hpc hempty
    rw [hpc] at h
    simp only [hempty, Option.isSome_none, Bool.false_or] at h
    exact habove h

/-! ## Points of a task -/

/-- The task is between taking the lock of its key and giving it back. -/
def Fetching : CrlPc → Prop
  | .waiter _ => True
  | .request _ => True
  | .compare .. => True
  | .store .. => True
  | .rememberFetched .. => True
  | .complete .. => True
  | _ => False

/-- The dates of the CRLs that a task holds, but for one that it has just received. -/
def dates (lib : CrlLibrary) : CrlPc → List SystemTime
  | .lookUp _ _ der => [updateOf lib der]
  | .remember _ _ _ crl => [crl.thisUpdate]
  | .judge _ cached => (cached.map fun s => s.crl.thisUpdate).toList
  | .rememberFetched check s => s.crl.thisUpdate :: (CrlPc.checkCrls check).map (·.thisUpdate)
  | .complete check result =>
    (result.map fun s => s.crl.thisUpdate).toList ++ (CrlPc.checkCrls check).map (·.thisUpdate)
  | .fetched _ cached result =>
    (result.map fun s => s.crl.thisUpdate).toList ++
      (cached.map fun p => p.1.thisUpdate).toList
  | pc => pc.crls.map (·.thisUpdate)

/-- How memo, cache and log stand to each other, and what the tasks hold to the log. -/
structure Ordered (lib : CrlLibrary) (w : CrlWorld) : Prop where
  memo_below : ∀ key s, w.memo key = some s → Below w.log key s.crl.thisUpdate
  memo_above : ∀ key s, w.memo key = some s → Above w.log key s.crl.thisUpdate ∨
    ∃ (i : Nat) (t : CrlTask) (check : Option (SystemTime × Option (ParsedCrl × SystemTime)))
      (s' : SeenCrl), w.tasks[i]? = some t ∧ t.call.key lib = key ∧
        t.pc = .rememberFetched check s'
  cache : ∀ key u, cachedUpdate lib w key = some u → Above w.log key u ∧ Below w.log key u
  lock : ∀ (i : Nat) (t : CrlTask), w.tasks[i]? = some t → Fetching t.pc →
    (w.flights (t.call.key lib)).holder = some i
  stores : ∀ (i : Nat) (t : CrlTask), w.tasks[i]? = some t → ∀ check s, t.pc = .store check s →
    Above w.log (t.call.key lib) s.crl.thisUpdate
  remembers : ∀ (i : Nat) (t : CrlTask), w.tasks[i]? = some t → ∀ check s,
    t.pc = .rememberFetched check s → Above w.log (t.call.key lib) s.crl.thisUpdate
  dates : ∀ (i : Nat) (t : CrlTask), w.tasks[i]? = some t → ∀ u ∈ dates lib t.pc,
    Below w.log (t.call.key lib) u

/-- Two tasks that fetch for one key are one. -/
theorem Ordered.eq_of_fetching (h : Ordered lib w) {i j : Nat} {t u : CrlTask}
    (ht : w.tasks[i]? = some t) (hu : w.tasks[j]? = some u)
    (hkey : t.call.key lib = u.call.key lib) (hfi : Fetching t.pc) (hfj : Fetching u.pc) :
    i = j := by
  have hi := h.lock i t ht hfi
  have hj := h.lock j u hu hfj
  rw [hkey, hj] at hi
  exact (Option.some.inj hi).symm

/-- A task that fetches and is not about to write the memo finds the newest CRL there. -/
theorem Ordered.memo_of_fetching (h : Ordered lib w) {i : Nat} {t : CrlTask}
    (ht : w.tasks[i]? = some t) (hf : Fetching t.pc)
    (hpc : ∀ check s, t.pc ≠ .rememberFetched check s) {s : SeenCrl}
    (hmemo : w.memo (t.call.key lib) = some s) :
    Above w.log (t.call.key lib) s.crl.thisUpdate := by
  rcases h.memo_above _ s hmemo with habove | ⟨j, u, check, s', hu, hkey, hremember⟩
  · exact habove
  · have hfj : Fetching u.pc := by
      rw [hremember]
      trivial
    obtain rfl := h.eq_of_fetching ht hu hkey.symm hf hfj
    rw [ht] at hu
    cases hu
    exact absurd hremember (hpc check s')

/-! ## Steps -/

/-- After a fetch a task holds what it has fetched and what it held. -/
theorem mem_dates_afterFetch {check : Option (SystemTime × Option (ParsedCrl × SystemTime))}
    {result : Option SeenCrl} {u : SystemTime} (h : u ∈ dates lib (afterFetch check result)) :
    u ∈ (result.map fun s => s.crl.thisUpdate).toList ∨
      u ∈ (CrlPc.checkCrls check).map (·.thisUpdate) := by
  cases check with
  | none => cases h
  | some p =>
    obtain ⟨now, cached⟩ := p
    rcases List.mem_append.mp h with h | h
    · exact .inl h
    · refine .inr ?_
      cases cached with
      | none => cases h
      | some q => exact h

theorem mem_dates_of_current {c : ScopeCall} {now u : SystemTime} {cached : Option SeenCrl}
    (h : u ∈ ((c.current now cached).1.map fun p => p.1.thisUpdate).toList) :
    u ∈ dates lib (.judge now cached) := by
  cases cached with
  | none => simp [ScopeCall.current] at h
  | some s =>
    simp only [ScopeCall.current] at h
    split at h
    · exact h
    · simp at h

/-- The dates of what a task holds after a step: it held them before, read them from the cache or,
    with the lock, from the memo, or has stored the CRL. -/
theorem Transition.dates {c : ScopeCall} {pc pc' : CrlPc} {e : Effect}
    (h : Transition lib rule w c pc e pc')
    (hmemo : ∀ s, w.memo (c.key lib) = some s → s.crl.thisUpdate = updateOf lib s.der) :
    ∀ u ∈ dates lib pc', u ∈ CrlWorld.dates lib pc ∨
      cachedUpdate lib w (c.key lib) = some u ∨
      (∃ check s, pc = .waiter check ∧ w.memo (c.key lib) = some s ∧ u = s.crl.thisUpdate) ∨
      ∃ check s, pc = .store check s ∧ u = s.crl.thisUpdate := by
  intro u hu
  have hmap (o : Option (ParsedCrl × SystemTime)) :
      (o.map Prod.fst).toList.map (·.thisUpdate) = (o.map fun p => p.1.thisUpdate).toList := by
    cases o <;> rfl
  cases h with
  | hit hcache _ hopen =>
    simp only [CrlWorld.dates, List.mem_singleton] at hu
    exact .inr (.inl (cachedUpdate_eq_some.mpr ⟨_, _, _, _, hcache, hopen, hu.symm⟩))
  | @known _ _ s hs =>
    simp only [CrlWorld.dates, Option.map_some, Option.toList_some, List.mem_singleton] at hu
    refine .inl ?_
    rw [hu, hmemo s hs]
    exact List.mem_singleton_self _
  | verifies _ hok =>
    simp only [CrlWorld.dates, List.mem_singleton] at hu
    refine .inl ?_
    rw [hu, parseAndVerify_thisUpdate hok]
    exact List.mem_singleton_self _
  | remember => exact .inl hu
  | fresh =>
    simp only [CrlWorld.dates, CrlPc.crls, hmap] at hu
    exact .inl (mem_dates_of_current hu)
  | stale =>
    simp only [CrlWorld.dates, CrlPc.crls, CrlPc.checkCrls, Option.bind_some, hmap] at hu
    exact .inl (mem_dates_of_current hu)
  | waitedInVain =>
    rcases mem_dates_afterFetch hu with h | h
    · cases h
    · exact .inl h
  | @taken check =>
    rcases mem_dates_afterFetch hu with h | h
    · simp only [Option.mem_toList, Option.map_eq_some_iff] at h
      obtain ⟨s, hs, rfl⟩ := h
      exact .inr (.inr (.inl ⟨check, s, rfl, hs, rfl⟩))
    · exact .inl h
  | @store check s =>
    rcases List.mem_cons.mp hu with rfl | hu
    · exact .inr (.inr (.inr ⟨check, s, rfl, rfl⟩))
    · exact .inl hu
  | complete =>
    rcases mem_dates_afterFetch hu with h | h
    · exact .inl (List.mem_append_left _ h)
    · exact .inl (List.mem_append_right _ h)
  | applies =>
    refine .inl (List.mem_append_left _ ?_)
    exact hu
  | fallsBack =>
    simp only [CrlWorld.dates, CrlPc.crls, hmap] at hu
    exact .inl (List.mem_append_right _ hu)
  | _ => first | exact .inl hu | cases hu

/-- A step leaves the entry of a key, or stores the CRL of the task that makes it. -/
theorem cachedUpdate_apply {i : Nat} {c : ScopeCall} {e : Effect} {key : Str} {u : SystemTime}
    (h : cachedUpdate lib (e.apply lib rule i c w) key = some u) :
    (cachedUpdate lib w key = some u ∧ ∀ s, e = .store s → key ≠ c.key lib) ∨
      (key = c.key lib ∧ ∃ s, e = .store s ∧ u = updateOf lib s.der) := by
  obtain ⟨entry, expires, storedAt, der, hcache, hopen, rfl⟩ := cachedUpdate_eq_some.mp h
  rcases cache_apply hcache with ⟨hcache, hne⟩ | ⟨rfl, s, rfl, rfl, -⟩
  · exact .inl ⟨cachedUpdate_eq_some.mpr ⟨entry, expires, storedAt, der, hcache, hopen, rfl⟩, hne⟩
  · exact .inr ⟨rfl, s, rfl, by rw [(openEntry_sealEntry hopen).1]⟩

/-- The date of a verified CRL is that of its octets. -/
theorem VerifiedFor.thisUpdate {calls : List ScopeCall} {key : Str} {der : Bytes} {crl : ParsedCrl}
    (h : VerifiedFor lib rule calls key der crl) : crl.thisUpdate = updateOf lib der := by
  obtain ⟨c, -, -, hok⟩ := h
  exact parseAndVerify_thisUpdate hok

section Step

variable {c : ScopeCall} {pc pc' : CrlPc} {e : Effect} {i : Nat} {t : CrlTask}

/-- A task that fetches has just taken the free slot, or fetched before and keeps it. -/
theorem Transition.fetching (h : Transition lib rule w c pc e pc') (hf : Fetching pc') :
    (e = .lock ∧ (w.flights (c.key lib)).holder = none) ∨
      (Fetching pc ∧ e ≠ .lock ∧ e ≠ .unlock ∧ ∀ ok, e ≠ .complete ok) := by
  have hafter (check : Option (SystemTime × Option (ParsedCrl × SystemTime)))
      (result : Option SeenCrl) : ¬ Fetching (afterFetch check result) := by
    cases check <;> exact id
  cases h with
  | waited hholder => exact .inl ⟨rfl, hholder⟩
  | locked hholder => exact .inl ⟨rfl, hholder⟩
  | waitedInVain => exact absurd hf (hafter _ _)
  | taken => exact absurd hf (hafter _ _)
  | complete => exact absurd hf (hafter _ _)
  | failed => exact .inr ⟨trivial, by simp, by simp, by simp⟩
  | received => exact .inr ⟨trivial, by simp, by simp, by simp⟩
  | keepsNewer => exact .inr ⟨trivial, by simp, by simp, by simp⟩
  | takesFetched => exact .inr ⟨trivial, by simp, by simp, by simp⟩
  | store => exact .inr ⟨trivial, by simp, by simp, by simp⟩
  | rememberFetched => exact .inr ⟨trivial, by simp, by simp, by simp⟩
  | _ => exact hf.elim

/-- Who takes a lock finds it free, and who gives it back has it. -/
theorem Transition.holder (h : Transition lib rule w c pc e pc')
    (he : e = .lock ∨ e = .unlock ∨ ∃ ok, e = .complete ok) :
    (w.flights (c.key lib)).holder = none ∨ Fetching pc := by
  cases h with
  | waited hholder => exact .inl hholder
  | locked hholder => exact .inl hholder
  | taken => exact .inr trivial
  | complete => exact .inr trivial
  | fresh _ he' => rcases he' with rfl | rfl <;> simp at he
  | _ => simp at he

/-- A fetched CRL is remembered right after it was stored. -/
theorem Transition.rememberFetched_from {s : SeenCrl}
    {check : Option (SystemTime × Option (ParsedCrl × SystemTime))}
    (h : Transition lib rule w c pc e pc') (hpc : pc' = .rememberFetched check s) :
    e = .store s ∧ pc = .store check s := by
  cases h with
  | store =>
    cases hpc
    exact ⟨rfl, rfl⟩
  | @waitedInVain waiting => cases waiting <;> cases hpc
  | @taken waiting => cases waiting <;> cases hpc
  | @complete waiting => cases waiting <;> cases hpc
  | _ => cases hpc

/-- What is above all stored CRLs stays so, unless the step stores a newer one for the key. -/
theorem above_apply {key : Str} {u : SystemTime} (h : Above w.log key u)
    (hstore : ∀ s, e = .store s → key = c.key lib → s.crl.thisUpdate ≤ u) :
    Above (e.apply lib rule i c w).log key u := by
  rcases log_apply lib rule i c w e with hlog | ⟨s, rfl, hlog⟩
  · rw [hlog]
    exact h
  · rw [hlog]
    intro r hr hkey
    rcases List.mem_cons.mp hr with rfl | hr
    · exact hstore s rfl hkey.symm
    · exact h r hr hkey

/-- Only a task that is about to store does so. -/
theorem Transition.stores {s : SeenCrl} (h : Transition lib rule w c pc (.store s) pc') :
    ∃ check, pc = .store check s ∧ pc' = .rememberFetched check s := by
  cases h with
  | store => exact ⟨_, rfl, rfl⟩
  | fresh _ he => simp at he

/-- What the tasks of a key that do not take the step know of the log stays. -/
theorem Ordered.above_of_ne (h : Ordered lib w) (ht : w.tasks[i]? = some t)
    (hstep : Transition lib rule w t.call t.pc e pc') {j : Nat} {u : CrlTask} (hne : j ≠ i)
    (hu : w.tasks[j]? = some u) (hf : Fetching u.pc) {d : SystemTime}
    (habove : Above w.log (u.call.key lib) d) :
    Above (e.apply lib rule i t.call (w.goto i t pc')).log (u.call.key lib) d := by
  refine above_apply habove fun s hs hkey => ?_
  subst hs
  obtain ⟨check, hpc, -⟩ := hstep.stores
  have hfi : Fetching t.pc := by
    rw [hpc]
    trivial
  exact absurd (h.eq_of_fetching hu ht hkey hf hfi) hne

/-- What goes into the memo is at least as new as what has been stored. -/
theorem Ordered.above_of_remember (h : Ordered lib w) (ht : w.tasks[i]? = some t) {s : SeenCrl}
    (hstep : Transition lib rule w t.call t.pc (.remember s) pc')
    (hremember : ∀ now storedAt der crl, t.pc = .remember now storedAt der crl →
      Above w.log (t.call.key lib) crl.thisUpdate) :
    Above w.log (t.call.key lib) s.crl.thisUpdate := by
  generalize hpc : t.pc = pc at hstep
  cases hstep with
  | remember => exact hremember _ _ _ _ hpc
  | rememberFetched => exact h.remembers i t ht _ _ hpc
  | fresh _ he => simp at he

/-- A step keeps the memo above the log: what it writes there is the CRL that was stored last, or
    one that is no older than any stored before. -/
theorem Ordered.memo_above_apply (h : Ordered lib w) (ht : w.tasks[i]? = some t)
    (hstep : Transition lib rule w t.call t.pc e pc')
    (hremember : ∀ now storedAt der crl, t.pc = .remember now storedAt der crl →
      Above w.log (t.call.key lib) crl.thisUpdate) {key : Str} {s : SeenCrl}
    (hmemo : (e.apply lib rule i t.call (w.goto i t pc')).memo key = some s) :
    Above (e.apply lib rule i t.call (w.goto i t pc')).log key s.crl.thisUpdate ∨
      ∃ (j : Nat) (u : CrlTask) (check : Option (SystemTime × Option (ParsedCrl × SystemTime)))
        (s' : SeenCrl), (e.apply lib rule i t.call (w.goto i t pc')).tasks[j]? = some u ∧
          u.call.key lib = key ∧ u.pc = .rememberFetched check s' := by
  by_cases hnew : key = t.call.key lib ∧ e = .remember s
  · obtain ⟨rfl, rfl⟩ := hnew
    exact .inl (above_apply (h.above_of_remember ht hstep hremember) fun s' hs' => by cases hs')
  · rcases memo_apply hmemo with hold | hnew'
    · rcases h.memo_above key s hold with habove | ⟨j, u, check, s', hu, hkey, hpc⟩
      · by_cases hstore : ∃ s', e = .store s' ∧ key = t.call.key lib
        · -- the fetch is now between its two writes
          obtain ⟨s', rfl, rfl⟩ := hstore
          obtain ⟨check, -, rfl⟩ := hstep.stores
          exact .inr ⟨i, _, check, s', getElem?_tasks_apply_self ht, rfl, rfl⟩
        · exact .inl (above_apply habove fun s' hs' hkey => absurd ⟨s', hs', hkey⟩ hstore)
      · by_cases hij : j = i
        · -- the second write has just been made, so the memo holds what it has written
          subst hij
          rw [ht] at hu
          cases hu
          rw [hpc] at hstep
          cases hstep
          simp only [Effect.apply, rememberSeen, if_pos hkey.symm] at hmemo
          cases hmemo
          exact absurd ⟨hkey.symm, rfl⟩ hnew
        · exact .inr ⟨j, u, check, s', getElem?_tasks_apply_of_ne hij hu, hkey, hpc⟩
    · exact absurd hnew' hnew

/-- A step keeps the tasks that fetch in possession of their slots. -/
theorem Ordered.lock_apply (h : Ordered lib w) (ht : w.tasks[i]? = some t)
    (hstep : Transition lib rule w t.call t.pc e pc') {j : Nat} {u : CrlTask}
    (hu : (e.apply lib rule i t.call (w.goto i t pc')).tasks[j]? = some u) (hf : Fetching u.pc) :
    ((e.apply lib rule i t.call (w.goto i t pc')).flights (u.call.key lib)).holder = some j := by
  rcases getElem?_tasks_apply hu with ⟨rfl, rfl⟩ | ⟨hne, hold⟩ | ⟨-, rfl⟩
  · rcases hstep.fetching hf with ⟨rfl, -⟩ | ⟨hfetching, hlock, hunlock, hcomplete⟩
    · simp [Effect.apply, setFlight]
    · rcases holder_apply lib rule j t.call (w.goto j t pc') e (t.call.key lib) with heq | ⟨-, he⟩
      · rw [heq]
        exact h.lock j t ht hfetching
      · rcases he with he | he | ⟨ok, he⟩
        · exact absurd he hlock
        · exact absurd he hunlock
        · exact absurd he (hcomplete ok)
  · have hj := h.lock j u hold hf
    rcases holder_apply lib rule i t.call (w.goto i t pc') e (u.call.key lib) with heq | ⟨hkey, he⟩
    · rw [heq]
      exact hj
    · rcases hstep.holder he with hfree | hfetching
      · rw [hkey, hfree] at hj
        cases hj
      · exact absurd (h.eq_of_fetching hold ht hkey hf hfetching) hne
  · exact hf.elim

/-- What a fetch is about to store is at least as new as what has been stored. -/
theorem Ordered.stores_apply (h : Ordered lib w) (ht : w.tasks[i]? = some t)
    (hstep : Transition lib rule w t.call t.pc e pc')
    (hcompare : ∀ check now der crl, t.pc = .compare check now der crl →
      w.memo (t.call.key lib) = none → Above w.log (t.call.key lib) crl.thisUpdate)
    {check : Option (SystemTime × Option (ParsedCrl × SystemTime))} {s : SeenCrl}
    (hpc : pc' = .store check s) :
    Above (e.apply lib rule i t.call (w.goto i t pc')).log (t.call.key lib) s.crl.thisUpdate := by
  generalize hfrom : t.pc = pc at hstep
  have hmemo {check : Option (SystemTime × Option (ParsedCrl × SystemTime))} {now : SystemTime}
      {der : Bytes} {crl : ParsedCrl} {s : SeenCrl} (heq : t.pc = .compare check now der crl)
      (hs : w.memo (t.call.key lib) = some s) :
      Above w.log (t.call.key lib) s.crl.thisUpdate := by
    refine h.memo_of_fetching ht ?_ ?_ hs
    · rw [heq]
      trivial
    · intro _ _ hne
      rw [heq] at hne
      cases hne
  cases hstep with
  | keepsNewer hm =>
    cases hpc
    have habove := hmemo hfrom hm
    exact habove
  | takesFetched hm =>
    cases hpc
    cases hempty : w.memo (t.call.key lib) with
    | none => exact hcompare _ _ _ _ hfrom hempty
    | some s => exact (hmemo hfrom hempty).trans (hm s hempty)
  | @waitedInVain waiting =>
    cases waiting <;> cases hpc
  | @taken waiting =>
    cases waiting <;> cases hpc
  | @complete waiting =>
    cases waiting <;> cases hpc
  | _ => cases hpc

/-- The step of a task keeps the order, where it meets nothing newer. -/
theorem Ordered.apply {calls : List ScopeCall} (h : Ordered lib w)
    (hv : Verified lib rule calls w) (ht : w.tasks[i]? = some t)
    (hstep : Transition lib rule w t.call t.pc e pc') {response : Option Bytes}
    (hnewer : nothingNewer lib w (.step i response) = true) :
    Ordered lib (e.apply lib rule i t.call (w.goto i t pc')) := by
  obtain ⟨hremember, hcompare⟩ := above_of_nothingNewer hnewer ht
  have hlog : w.log ⊆ (e.apply lib rule i t.call (w.goto i t pc')).log :=
    log_subset_apply lib rule i t.call (w.goto i t pc') e
  have hmem := List.mem_of_getElem? ht
  -- what is stored is in the log afterwards
  have hstored {s : SeenCrl} (he : e = .store s) :
      Below (e.apply lib rule i t.call (w.goto i t pc')).log (t.call.key lib)
        s.crl.thisUpdate := by
    subst he
    exact ⟨_, List.mem_cons_self, rfl, Int.le_refl _⟩
  constructor
  case memo_below =>
    intro key s hmemo
    rcases memo_apply hmemo with hold | ⟨rfl, rfl⟩
    · exact (h.memo_below key s hold).mono hlog
    · refine Below.mono (h.dates i t ht _ ?_) hlog
      generalize t.pc = pc at hstep
      cases hstep with
      | remember => exact List.mem_singleton_self _
      | rememberFetched => exact List.mem_cons_self
      | fresh _ he => simp at he
  case memo_above => exact fun key s hmemo => h.memo_above_apply ht hstep hremember hmemo
  case cache =>
    intro key u hcached
    rcases cachedUpdate_apply hcached with ⟨hold, hne⟩ | ⟨rfl, s, rfl, rfl⟩
    · refine ⟨above_apply (h.cache key u hold).1 fun s hs hkey => absurd hkey (hne s hs), ?_⟩
      exact (h.cache key u hold).2.mono hlog
    · obtain ⟨check, hpc, -⟩ := hstep.stores
      have hdate : s.crl.thisUpdate = updateOf lib s.der :=
        (hv.seen t hmem (s.der, s.crl) (by simp [hpc, CrlPc.seen])).thisUpdate
      rw [← hdate]
      refine ⟨above_apply (h.stores i t ht check s hpc) ?_, hstored rfl⟩
      rintro s' ⟨⟩ -
      exact Int.le_refl _
  case lock => exact fun j u hu hf => h.lock_apply ht hstep hu hf
  case stores =>
    intro j u hu check s hpc
    rcases getElem?_tasks_apply hu with ⟨rfl, rfl⟩ | ⟨hne, hold⟩ | ⟨-, rfl⟩
    · exact h.stores_apply ht hstep hcompare hpc
    · refine h.above_of_ne ht hstep hne hold ?_ (h.stores j u hold check s hpc)
      rw [hpc]
      trivial
    · cases hpc
  case remembers =>
    intro j u hu check s hpc
    rcases getElem?_tasks_apply hu with ⟨rfl, rfl⟩ | ⟨hne, hold⟩ | ⟨-, rfl⟩
    · obtain ⟨rfl, hfrom⟩ := hstep.rememberFetched_from hpc
      refine above_apply (h.stores j t ht check s hfrom) ?_
      rintro s' ⟨⟩ -
      exact Int.le_refl _
    · refine h.above_of_ne ht hstep hne hold ?_ (h.remembers j u hold check s hpc)
      rw [hpc]
      trivial
    · cases hpc
  case dates =>
    intro j u hu d hd
    rcases getElem?_tasks_apply hu with ⟨rfl, rfl⟩ | ⟨hne, hold⟩ | ⟨-, rfl⟩
    · have hmemo := fun s hs => (hv.memo (t.call.key lib) s hs).thisUpdate
      rcases hstep.dates hmemo d hd with hd | hcached | ⟨check, s, -, hs, rfl⟩ |
        ⟨check, s, hpc, rfl⟩
      · exact (h.dates j t ht d hd).mono hlog
      · exact (h.cache _ d hcached).2.mono hlog
      · exact (h.memo_below _ s hs).mono hlog
      · rw [hpc] at hstep
        cases hstep
        exact hstored rfl
    · exact (h.dates j u hold d hd).mono hlog
    · cases hd

end Step

/-! ## Runs -/

theorem cachedUpdate_forget {key k : Str} {u : SystemTime}
    (h : cachedUpdate lib { w with cache := fun x => if x = k then none else w.cache x } key =
      some u) : cachedUpdate lib w key = some u := by
  simp only [cachedUpdate] at h ⊢
  split at h
  · cases h
  · exact h

/-- A step of no task: nothing new is held. -/
theorem Ordered.of_subset (h : Ordered lib w) (hlog : w'.log = w.log)
    (hflights : w'.flights = w.flights)
    (hmemo : ∀ key s, w'.memo key = some s → w.memo key = some s)
    (hcache : ∀ key u, cachedUpdate lib w' key = some u → cachedUpdate lib w key = some u)
    (hkept : ∀ (i : Nat) (t : CrlTask), w.tasks[i]? = some t → w'.tasks[i]? = some t)
    (htasks : ∀ (i : Nat) (t : CrlTask), w'.tasks[i]? = some t →
      w.tasks[i]? = some t ∨ t.pc = .enter) : Ordered lib w' := by
  constructor
  case memo_below =>
    intro key s hs
    rw [hlog]
    exact h.memo_below key s (hmemo key s hs)
  case memo_above =>
    intro key s hs
    rw [hlog]
    refine (h.memo_above key s (hmemo key s hs)).imp_right ?_
    rintro ⟨i, t, check, s', ht, hkey, hpc⟩
    exact ⟨i, t, check, s', hkept i t ht, hkey, hpc⟩
  case cache =>
    intro key u hu
    rw [hlog]
    exact h.cache key u (hcache key u hu)
  case lock =>
    intro i t ht hf
    rw [hflights]
    rcases htasks i t ht with ht | hpc
    · exact h.lock i t ht hf
    · rw [hpc] at hf
      exact hf.elim
  case stores =>
    intro i t ht check s hpc
    rw [hlog]
    rcases htasks i t ht with ht | henter
    · exact h.stores i t ht check s hpc
    · rw [henter] at hpc
      cases hpc
  case remembers =>
    intro i t ht check s hpc
    rw [hlog]
    rcases htasks i t ht with ht | henter
    · exact h.remembers i t ht check s hpc
    · rw [henter] at hpc
      cases hpc
  case dates =>
    intro i t ht u hu
    rw [hlog]
    rcases htasks i t ht with ht | hpc
    · exact h.dates i t ht u hu
    · rw [hpc] at hu
      cases hu

/-- Every step of the world keeps the order, where it meets nothing newer. -/
theorem Ordered.step {calls : List ScopeCall} {a : CrlAction} (h : Ordered lib w)
    (hv : Verified lib rule calls w) (hnewer : nothingNewer lib w a = true)
    (hstep : w.step lib rule a = some w') : Ordered lib w' := by
  cases a with
  | tick nanos =>
    cases hstep
    exact h.of_subset rfl rfl (fun _ _ hs => hs) (fun _ _ hu => hu) (fun _ _ ht => ht)
      fun _ _ ht => .inl ht
  | call c =>
    cases hstep
    refine h.of_subset rfl rfl (fun _ _ hs => hs) (fun _ _ hu => hu) (fun i t ht => ?_) fun i t ht => ?_
    · dsimp only
      rw [List.getElem?_append_left (List.getElem?_eq_some_iff.mp ht).1]
      exact ht
    · exact (getElem?_append_singleton ht).imp_right fun heq => by rw [heq]
  | forgetCached key =>
    cases hstep
    exact h.of_subset rfl rfl (fun _ _ hs => hs) (fun _ _ hu => cachedUpdate_forget hu)
      (fun _ _ ht => ht) fun _ _ ht => .inl ht
  | forgetSeen key =>
    cases hstep
    refine h.of_subset rfl rfl (fun k s hs => ?_) (fun _ _ hu => hu) (fun _ _ ht => ht)
      fun _ _ ht => .inl ht
    dsimp only at hs
    split at hs
    · cases hs
    · exact hs
  | step i response =>
    simp only [CrlWorld.step] at hstep
    split at hstep
    · cases hstep
    · rename_i t ht
      obtain ⟨e, pc, htrans, rfl⟩ := stepTask_transition hstep
      exact h.apply hv ht htrans hnewer

/-- A new world is in order. -/
theorem ordered_new (clock : SystemTime) : Ordered lib (CrlWorld.new clock) := by
  constructor <;> simp [CrlWorld.new, cachedUpdate]

/-- So is the world after every unspoiled run. -/
theorem run_ordered {clock : SystemTime} {actions : List CrlAction}
    (h : (CrlWorld.new clock).run lib rule actions = some w)
    (hunspoiled : unspoiled lib rule clock actions = true) : Ordered lib w := by
  refine Option.foldlM_history (Q := fun _ => Ordered lib) h (ordered_new clock) ?_
  intro past a u v hpast hrun hstep hs
  exact hs.step (run_verified hrun) (nothingNewer_of_unspoiled hunspoiled hpast hrun) hstep

/-- The beginning of an unspoiled run is unspoiled. -/
theorem unspoiled_append {clock : SystemTime} {past rest : List CrlAction}
    (h : unspoiled lib rule clock (past ++ rest) = true) :
    unspoiled lib rule clock past = true := by
  rw [unspoiled, List.all_eq_true] at h ⊢
  intro n hn
  have hlt : n < past.length := List.mem_range.mp hn
  have hall := h n (List.mem_range.mpr (by rw [List.length_append]; omega))
  rwa [List.take_append_of_le_length hlt.le, List.getElem?_append_left hlt] at hall

theorem run_append {clock : SystemTime} {past rest : List CrlAction} {w₁ w₂ : CrlWorld}
    (h₁ : (CrlWorld.new clock).run lib rule past = some w₁)
    (h₂ : w₁.run lib rule rest = some w₂) :
    (CrlWorld.new clock).run lib rule (past ++ rest) = some w₂ := by
  rw [run] at h₁ h₂ ⊢
  rw [List.foldlM_append, h₁]
  exact h₂

/-- What every step keeps that meets the condition holds from a state of the run on. -/
theorem since_run {P : CrlWorld → Prop} {clock : SystemTime} {past rest : List CrlAction}
    {w₁ w₂ : CrlWorld} (h₁ : (CrlWorld.new clock).run lib rule past = some w₁)
    (h₂ : w₁.run lib rule rest = some w₂)
    (hunspoiled : unspoiled lib rule clock (past ++ rest) = true) (hP : P w₁)
    (hstep : ∀ u v a calls, Ordered lib u → Verified lib rule calls u →
      nothingNewer lib u a = true → u.step lib rule a = some v → P u → P v) : P w₂ := by
  refine Option.foldlM_history (Q := fun _ => P) h₂ hP ?_
  intro mid a u v hmid hrun hu hs
  have hpast : (CrlWorld.new clock).run lib rule (past ++ mid) = some u := run_append h₁ hrun
  have hpre : past ++ mid ++ [a] <+: past ++ rest := by
    rw [List.append_assoc]
    exact List.prefix_append_right_inj past |>.mpr hmid
  have hpre' : past ++ mid <+: past ++ rest := (List.prefix_append _ _).trans hpre
  obtain ⟨more, hmore⟩ := hpre'
  have hordered := run_ordered hpast (unspoiled_append (hmore ▸ hunspoiled))
  exact hstep u v a _ hordered (run_verified hpast)
    (nothingNewer_of_unspoiled hunspoiled hpre hpast) hu hs

/-- No step takes a fetch from the log. -/
theorem log_subset_step {a : CrlAction} (h : w.step lib rule a = some w') : w.log ⊆ w'.log := by
  cases a with
  | step i response =>
    simp only [CrlWorld.step] at h
    split at h
    · cases h
    · obtain ⟨e, pc, -, rfl⟩ := stepTask_transition h
      exact log_subset_apply lib rule i _ (w.goto i _ pc) e
  | _ =>
    cases h
    exact List.Subset.refl _

/-- What the memo holds for the key is at least as new as `b`, and so is something stored. -/
def MemoSince (key : Str) (b : SystemTime) (u : CrlWorld) : Prop :=
  Below u.log key b ∧ ∀ s, u.memo key = some s → b ≤ s.crl.thisUpdate

/-- What the tasks for the key hold that are not `old` is at least as new as `b`, and so is
    something stored. -/
def TasksSince (lib : CrlLibrary) (key : Str) (b : SystemTime) (old : Nat → Prop) (u : CrlWorld) :
    Prop :=
  Below u.log key b ∧ ∀ (i : Nat) (t : CrlTask), u.tasks[i]? = some t → ¬ old i →
    t.call.key lib = key → ∀ d ∈ dates lib t.pc, b ≤ d

/-- The memo does not fall below what it has held. -/
theorem memo_since {key : Str} {b : SystemTime} {u v : CrlWorld} {a : CrlAction}
    (h : Ordered lib u) (hnewer : nothingNewer lib u a = true)
    (hstep : u.step lib rule a = some v)
    (hs : MemoSince key b u) : MemoSince key b v := by
  refine ⟨hs.1.mono (log_subset_step hstep), fun s hmemo => ?_⟩
  cases a with
  | step i response =>
    simp only [CrlWorld.step] at hstep
    split at hstep
    · cases hstep
    · rename_i t ht
      obtain ⟨e, pc, htrans, rfl⟩ := stepTask_transition hstep
      rcases memo_apply hmemo with hold | ⟨rfl, rfl⟩
      · exact hs.2 s hold
      · have hremember := (above_of_nothingNewer hnewer ht).1
        exact hs.1.le_of_above (h.above_of_remember ht htrans hremember)
  | forgetSeen k =>
    cases hstep
    dsimp only at hmemo
    split at hmemo
    · cases hmemo
    · exact hs.2 s hmemo
  | _ =>
    cases hstep
    exact hs.2 s hmemo

/-- The tasks that have begun since hold nothing older than what had been stored. -/
theorem tasks_since {key : Str} {b : SystemTime} {old : Nat → Prop} {calls : List ScopeCall}
    {u v : CrlWorld} {a : CrlAction} (h : Ordered lib u) (hv : Verified lib rule calls u)
    (hstep : u.step lib rule a = some v)
    (hs : TasksSince lib key b old u) : TasksSince lib key b old v := by
  refine ⟨hs.1.mono (log_subset_step hstep), fun j x hx hnew hkey d hd => ?_⟩
  cases a with
  | step i response =>
    simp only [CrlWorld.step] at hstep
    split at hstep
    · cases hstep
    · rename_i t ht
      obtain ⟨e, pc, htrans, rfl⟩ := stepTask_transition hstep
      rcases getElem?_tasks_apply hx with ⟨rfl, rfl⟩ | ⟨-, hold⟩ | ⟨-, rfl⟩
      · have hmemo := fun s hs => (hv.memo (t.call.key lib) s hs).thisUpdate
        have hb : Below u.log (t.call.key lib) b := hkey ▸ hs.1
        rcases htrans.dates hmemo d hd with hd | hcached | ⟨check, s, hpc, hmem, rfl⟩ |
          ⟨check, s, hpc, rfl⟩
        · exact hs.2 j t ht hnew hkey d hd
        · exact hb.le_of_above (h.cache _ d hcached).1
        · refine hb.le_of_above (h.memo_of_fetching ht ?_ ?_ hmem)
          · rw [hpc]
            trivial
          · intro _ _ hne
            rw [hpc] at hne
            cases hne
        · exact hb.le_of_above (h.stores j t ht check s hpc)
      · exact hs.2 j x hold hnew hkey d hd
      · cases hd
  | call c =>
    cases hstep
    rcases getElem?_append_singleton hx with hold | rfl
    · exact hs.2 j x hold hnew hkey d hd
    · cases hd
  | _ =>
    cases hstep
    exact hs.2 j x hx hnew hkey d hd

/-! ## No rollback -/

/-- What is held for the key in the second state is not older than in the first; and where a
    check had found a certificate revoked in the first, no check that has begun since answers
    good from an older CRL. -/
structure KeepsNewest (lib : CrlLibrary) (key : Str) (w₁ w₂ : CrlWorld) : Prop where
  memo : ∀ s₁ s₂, w₁.memo key = some s₁ → w₂.memo key = some s₂ →
    s₁.crl.thisUpdate ≤ s₂.crl.thisUpdate
  cache : ∀ u₁ u₂, cachedUpdate lib w₁ key = some u₁ → cachedUpdate lib w₂ key = some u₂ → u₁ ≤ u₂
  answers : ∀ (i j : Nat) (t₁ t₂ : CrlTask) (now₁ now₂ : SystemTime) (crl₁ crl₂ : ParsedCrl)
    (source₁ source₂ : StatusSource) (warning₁ warning₂ : Option SystemTime),
    w₁.tasks[i]? = some t₁ → t₁.call.key lib = key →
    t₁.pc = .done now₁ (some crl₁) (.revoked source₁) warning₁ →
    w₂.tasks[j]? = some t₂ → t₂.call.key lib = key →
    (∀ t, w₁.tasks[j]? = some t → t.pc = .enter) →
    t₂.pc = .done now₂ (some crl₂) (.good source₂) warning₂ → crl₁.thisUpdate ≤ crl₂.thisUpdate

/-- In an unspoiled run the CRL that is kept for a key never gets older. -/
theorem no_rollback_of_unspoiled (lib : CrlLibrary) (rule : RevocationRule) (clock : SystemTime)
    (past rest : List CrlAction) (w₁ w₂ : CrlWorld)
    (h₁ : (CrlWorld.new clock).run lib rule past = some w₁)
    (h₂ : w₁.run lib rule rest = some w₂)
    (hunspoiled : unspoiled lib rule clock (past ++ rest) = true) (key : Str) :
    KeepsNewest lib key w₁ w₂ := by
  have hordered₁ := run_ordered h₁ (unspoiled_append hunspoiled)
  have hordered₂ := run_ordered (run_append h₁ h₂) hunspoiled
  constructor
  case memo =>
    intro s₁ s₂ hs₁ hs₂
    have hstart : MemoSince key s₁.crl.thisUpdate w₁ := by
      refine ⟨hordered₁.memo_below key s₁ hs₁, fun s hs => ?_⟩
      rw [hs₁] at hs
      cases hs
      exact Int.le_refl _
    have hend : MemoSince key s₁.crl.thisUpdate w₂ := since_run h₁ h₂ hunspoiled hstart
      fun u v a calls hu _ hnewer hstep hs => memo_since hu hnewer hstep hs
    exact hend.2 s₂ hs₂
  case cache =>
    intro u₁ u₂ hu₁ hu₂
    have hlog : Below w₂.log key u₁ := since_run (P := fun u => Below u.log key u₁) h₁ h₂
      hunspoiled (hordered₁.cache key u₁ hu₁).2
      fun u v a calls _ _ _ hstep hs => hs.mono (log_subset_step hstep)
    exact hlog.le_of_above (hordered₂.cache key u₂ hu₂).1
  case answers =>
    intro i j t₁ t₂ now₁ now₂ crl₁ crl₂ source₁ source₂ warning₁ warning₂ ht₁ hkey₁ hpc₁ ht₂ hkey₂
      hbegun hpc₂
    have hstart : TasksSince lib key crl₁.thisUpdate
        (fun k => ∃ t, w₁.tasks[k]? = some t ∧ t.pc ≠ .enter) w₁ := by
      refine ⟨hkey₁ ▸ hordered₁.dates i t₁ ht₁ _ (by simp [hpc₁, dates, CrlPc.crls]), ?_⟩
      intro k t ht hnew _ d hd
      have henter : t.pc = .enter := by
        by_contra hne
        exact hnew ⟨t, ht, hne⟩
      rw [henter] at hd
      cases hd
    have hend : TasksSince lib key crl₁.thisUpdate
        (fun k => ∃ t, w₁.tasks[k]? = some t ∧ t.pc ≠ .enter) w₂ :=
      since_run h₁ h₂ hunspoiled hstart
        fun u v a calls hu hv _ hstep hs => tasks_since hu hv hstep hs
    refine hend.2 j t₂ ht₂ ?_ hkey₂ _ (by simp [hpc₂, dates, CrlPc.crls])
    rintro ⟨t, ht, hne⟩
    exact hne (hbegun t ht)

end CrlWorld

/-! ## A renewed CRL -/

/-- An authority and two of its CRLs, the second a day newer. -/
def renewalLibrary : CrlLibrary where
  parseCertificate cert :=
    if cert = [1] then some ⟨[1], [3], [1], true, some true, none, none⟩ else none
  publicKey cert := if cert = [1] then some [9] else none
  isCrl der := der == [7] || der == [8]
  verifyCrl der key := (der == [7] || der == [8]) && key == [9]
  crlFromPem _ := none
  parseCrl der :=
    if der = [7] then some ([], ⟨[1], [], 0, some 1000000, []⟩)
    else if der = [8] then some ([], ⟨[1], [], 86400, some 2000000, []⟩) else none
  generalName _ := none
  sha256 data := data

/-- The first CRL is fetched; a day later a check starts a refresh. -/
def renewalPast : List CrlAction :=
  CrlAction.call (twinCall [1]) :: List.replicate 12 (.step 0 (some [7])) ++
    CrlAction.tick 86400000000000 :: CrlAction.call (twinCall [1]) :: List.replicate 4 (.step 1 none)

/-- The refresh stores the second CRL and remembers it. -/
def renewalRefresh : List CrlAction := List.replicate 7 (.step 2 (some [8]))

/-- A cache with a CRL is refreshed with its successor. -/
theorem no_rollback_of_unspoiled_refresh : ∃ w₁ w₂,
    (CrlWorld.new 0).run renewalLibrary .bdew renewalPast = some w₁ ∧
    w₁.run renewalLibrary .bdew renewalRefresh = some w₂ ∧
    (w₁.memo ((twinCall [1]).key renewalLibrary)).map SeenCrl.der = some [7] ∧
    (w₂.memo ((twinCall [1]).key renewalLibrary)).map SeenCrl.der = some [8] ∧
    CrlWorld.KeepsNewest renewalLibrary ((twinCall [1]).key renewalLibrary) w₁ w₂ := by
  have hrun₁ : (((CrlWorld.new 0).run renewalLibrary .bdew renewalPast).map fun w =>
      (w.memo ((twinCall [1]).key renewalLibrary)).map SeenCrl.der) = some (some [7]) := by
    decide +kernel
  obtain ⟨w₁, h₁, hmemo₁⟩ := Option.map_eq_some_iff.mp hrun₁
  have hrun₂ : (((CrlWorld.new 0).run renewalLibrary .bdew (renewalPast ++ renewalRefresh)).map
      fun w => (w.memo ((twinCall [1]).key renewalLibrary)).map SeenCrl.der) =
      some (some [8]) := by
    decide +kernel
  obtain ⟨w₂, h₂, hmemo₂⟩ := Option.map_eq_some_iff.mp hrun₂
  have hrest : w₁.run renewalLibrary .bdew renewalRefresh = some w₂ := by
    rw [CrlWorld.run] at h₁ h₂ ⊢
    rw [List.foldlM_append, h₁] at h₂
    exact h₂
  exact ⟨w₁, w₂, h₁, hrest, hmemo₁, hmemo₂,
    CrlWorld.no_rollback_of_unspoiled _ _ _ _ _ _ _ h₁ hrest (by decide +kernel) _⟩

/-- A check that has read the first CRL from the cache before the refresh remembers it after. -/
theorem check_brings_back_older_crl : ∃ w₁ w₂,
    (CrlWorld.new 0).run renewalLibrary .bdew
      (renewalPast ++ CrlAction.call (twinCall [1]) :: List.replicate 2 (.step 3 none) ++
        renewalRefresh) = some w₁ ∧
    w₁.run renewalLibrary .bdew (List.replicate 2 (.step 3 none)) = some w₂ ∧
    ¬ CrlWorld.KeepsNewest renewalLibrary ((twinCall [1]).key renewalLibrary) w₁ w₂ := by
  have hrun₁ : (((CrlWorld.new 0).run renewalLibrary .bdew
      (renewalPast ++ CrlAction.call (twinCall [1]) :: List.replicate 2 (.step 3 none) ++
        renewalRefresh)).map fun w =>
      (w.memo ((twinCall [1]).key renewalLibrary)).map fun s => s.crl.thisUpdate) =
      some (some (86400 * nanosPerSec)) := by
    decide +kernel
  obtain ⟨w₁, h₁, hmemo₁⟩ := Option.map_eq_some_iff.mp hrun₁
  have hrun₂ : (((CrlWorld.new 0).run renewalLibrary .bdew
      (renewalPast ++ CrlAction.call (twinCall [1]) :: List.replicate 2 (.step 3 none) ++
        renewalRefresh ++ List.replicate 2 (.step 3 none))).map fun w =>
      (w.memo ((twinCall [1]).key renewalLibrary)).map fun s => s.crl.thisUpdate) =
      some (some 0) := by
    decide +kernel
  obtain ⟨w₂, h₂, hmemo₂⟩ := Option.map_eq_some_iff.mp hrun₂
  have hrest : w₁.run renewalLibrary .bdew (List.replicate 2 (.step 3 none)) = some w₂ := by
    rw [CrlWorld.run] at h₁ h₂ ⊢
    rw [List.foldlM_append, h₁] at h₂
    exact h₂
  obtain ⟨s₁, hs₁, hdate₁⟩ := Option.map_eq_some_iff.mp hmemo₁
  obtain ⟨s₂, hs₂, hdate₂⟩ := Option.map_eq_some_iff.mp hmemo₂
  refine ⟨w₁, w₂, h₁, hrest, fun hkeeps => ?_⟩
  have hle := hkeeps.memo s₁ s₂ hs₁ hs₂
  rw [hdate₁, hdate₂] at hle
  exact absurd hle (by decide)

end Asx
