import Asx.ForStd.Der
import Asx.Native.RevocationPath
import Asx.Spec.RevocationMemo

/-!
# When a certificate is answered good from a CRL

The rule that distrusts a CA whose CRL could not be fetched for too long, over whole runs. Every
time that a task holds as the time of a fetch is traced to a record of the log
(`Transition.sound`), so the age that `crl_scope` computes bounds the age of the last fetch.

## Main results
- `openEntry_sealEntry`: what is read back from a cache entry
- `run_sound`: the fetch times in every state of a run
- `good_of_run`: what holds of every certificate that is answered good
-/

namespace Asx

/-! ## Cache entries -/

/-- Eight octets are read back as the number that was written, modulo `2 ^ 64`. -/
theorem foldl_beBytes64 (n : Nat) :
    (beBytes64 n).foldl (fun acc b => acc * 256 + b.toNat) 0 = n % 2 ^ 64 := by
  have hrange : beBytes64 n = (List.range 8).reverse.map fun i => .ofNat (n / 256 ^ i) := rfl
  rw [foldl_octets, hrange, octetsNat_range]
  simp

/-- An entry gives back the CRL, and a fetch time in whole seconds. -/
theorem openEntry_sealEntry {fetchedAt storedAt : SystemTime} {der der' : Bytes}
    (h : openEntry (sealEntry fetchedAt der) = some (storedAt, der')) :
    der' = der ∧ storedAt = (((fetchedAt / nanosPerSec).toNat % 2 ^ 64 : Nat) : Int) * nanosPerSec := by
  have hlen : (beBytes64 (fetchedAt / nanosPerSec).toNat).length = 8 := rfl
  have hdrop : (sealEntry fetchedAt der).drop envelopeV1.length =
      beBytes64 (fetchedAt / nanosPerSec).toNat ++ der := by
    rw [sealEntry, List.append_assoc, List.drop_left]
  simp only [openEntry, hdrop] at h
  split at h
  · split at h
    · simp only [Option.some.injEq, Prod.mk.injEq] at h
      obtain ⟨hstored, hder⟩ := h
      rw [List.take_left' hlen, foldl_beBytes64] at hstored
      rw [List.drop_left' hlen] at hder
      exact ⟨hder.symm, hstored.symm⟩
    · cases h
  · cases h

/-- The fetch time of an entry is rounded down, so it is no later than the fetch. -/
theorem storedAt_le {fetchedAt storedAt : SystemTime} {der der' : Bytes} (hpos : 0 ≤ fetchedAt)
    (h : openEntry (sealEntry fetchedAt der) = some (storedAt, der')) : storedAt ≤ fetchedAt := by
  have hsecs : 0 ≤ fetchedAt / nanosPerSec := Int.ediv_nonneg hpos (by decide)
  have hmod : (((fetchedAt / nanosPerSec).toNat % 2 ^ 64 : Nat) : Int) ≤
      fetchedAt / nanosPerSec := by
    refine Int.le_trans (Int.ofNat_le.mpr (Nat.mod_le _ _)) (Int.le_of_eq ?_)
    exact Int.toNat_of_nonneg hsecs
  calc storedAt = _ := (openEntry_sealEntry h).2
    _ ≤ fetchedAt / nanosPerSec * nanosPerSec := Int.mul_le_mul_of_nonneg_right hmod (by decide)
    _ ≤ fetchedAt := Int.ediv_mul_le fetchedAt (by decide)

namespace CrlWorld

variable {lib : CrlLibrary} {rule : RevocationRule} {w w' : CrlWorld}

/-! ## Fetches -/

/-- The action completes a fetch for `key` that has succeeded. -/
def Completes (lib : CrlLibrary) (w : CrlWorld) (a : CrlAction) (key : Str) : Prop :=
  ∃ i response t check seen, a = .step i response ∧ w.tasks[i]? = some t ∧
    t.call.key lib = key ∧ t.pc = .complete check (some seen)

/-- In the run of `actions` a fetch for `key` succeeds after task `i` has begun. -/
def FetchedDuring (lib : CrlLibrary) (rule : RevocationRule) (clock : SystemTime)
    (actions : List CrlAction) (i : Nat) (key : Str) : Prop :=
  ∃ past a rest w, actions = past ++ a :: rest ∧
    (CrlWorld.new clock).run lib rule past = some w ∧
    (∃ t, w.tasks[i]? = some t ∧ t.pc ≠ .enter) ∧ Completes lib w a key

/-- What was fetched in a run was fetched in every longer one. -/
theorem FetchedDuring.append {clock : SystemTime} {actions : List CrlAction} {i : Nat} {key : Str}
    (h : FetchedDuring lib rule clock actions i key) (a : CrlAction) :
    FetchedDuring lib rule clock (actions ++ [a]) i key := by
  obtain ⟨past, b, rest, w, rfl, hrun, htask, hcompletes⟩ := h
  exact ⟨past, b, rest ++ [a], w, by simp, hrun, htask, hcompletes⟩

/-- A fetch for `key` at `time` or later is in the log. -/
def Dated (log : List FetchRecord) (key : Str) (time : SystemTime) : Prop :=
  ∃ r ∈ log, r.key = key ∧ time ≤ r.time

/-- The log only grows, so a dated fetch stays dated. -/
theorem Dated.mono {log log' : List FetchRecord} {key : Str} {time : SystemTime}
    (h : Dated log key time) (hlog : log ⊆ log') : Dated log' key time := by
  obtain ⟨r, hr, hkey⟩ := h
  exact ⟨r, hlog hr, hkey⟩

/-- A CRL that a check holds applies, and its fetch time is that of a fetch or `thisUpdate`. -/
structure Held (lib : CrlLibrary) (log : List FetchRecord) (c : ScopeCall) (now : SystemTime)
    (crl : ParsedCrl) (fetchedAt : SystemTime) : Prop where
  applies : c.applies now crl = true
  dated : ∃ r ∈ log, r.key = c.key lib ∧ fetchedAt ≤ max r.time crl.thisUpdate

/-- A CRL that a check holds stays justified by a longer log. -/
theorem Held.mono {log log' : List FetchRecord} {c : ScopeCall} {now fetchedAt : SystemTime}
    {crl : ParsedCrl} (h : Held lib log c now crl fetchedAt) (hlog : log ⊆ log') :
    Held lib log' c now crl fetchedAt := by
  obtain ⟨happlies, r, hr, hdated⟩ := h
  exact ⟨happlies, r, hlog hr, hdated⟩

/-- What a check holds while it fetches. -/
def CheckHeld (lib : CrlLibrary) (log : List FetchRecord) (c : ScopeCall)
    (check : Option (SystemTime × Option (ParsedCrl × SystemTime))) : Prop :=
  ∀ now crl fetchedAt, check = some (now, some (crl, fetchedAt)) →
    Held lib log c now crl fetchedAt

/-- What holds of a certificate that is answered good from `crl`. -/
structure Justified (lib : CrlLibrary) (rule : RevocationRule) (log : List FetchRecord)
    (fetched : Prop) (c : ScopeCall) (now : SystemTime) (crl : ParsedCrl) : Prop where
  applies : c.applies now crl = true
  unlisted : crl.lists c.subject = false
  current : ∃ r ∈ log, r.key = c.key lib ∧ ∃ fetchedAt ≤ max r.time crl.thisUpdate,
    now ≤ rule.effectiveNext crl fetchedAt ∧ (fetched ∨ rule.inWindow now fetchedAt = true)

/-- What holds at a point of a task: the fetch times that it holds are those of the log, and
    `fetched` holds where it has waited for a fetch that succeeded. -/
def TaskSound (lib : CrlLibrary) (rule : RevocationRule) (log : List FetchRecord)
    (flight : Flight) (fetched : Prop) (c : ScopeCall) : CrlPc → Prop
  | .lookUp _ storedAt _ => Dated log (c.key lib) storedAt
  | .remember _ storedAt _ _ => Dated log (c.key lib) storedAt
  | .judge _ cached => ∀ s, cached = some s → Dated log (c.key lib) s.fetchedAt
  | .fetchEnter check => CheckHeld lib log c check
  | .waitLock check started => CheckHeld lib log c check ∧ started ≤ flight.generation ∧
      (flight.generation ≠ started → flight.last = some true → fetched)
  | .waiter check => CheckHeld lib log c check ∧ fetched
  | .request check => CheckHeld lib log c check
  | .compare check now _ _ => CheckHeld lib log c check ∧ 0 ≤ now
  | .store check s => CheckHeld lib log c check ∧ 0 ≤ s.fetchedAt
  | .rememberFetched check s => CheckHeld lib log c check ∧ Dated log (c.key lib) s.fetchedAt
  | .complete check result => CheckHeld lib log c check ∧
      ∀ s, result = some s → Dated log (c.key lib) s.fetchedAt
  | .fetched now cached result => CheckHeld lib log c (some (now, cached)) ∧
      ∀ s, result = some s → Dated log (c.key lib) s.fetchedAt ∧ fetched
  | .verdict now current _ fetchFailed => ∀ crl fetchedAt, current = some (crl, fetchedAt) →
      Held lib log c now crl fetchedAt ∧
        (fetched ∨ fetchFailed = true ∨ rule.inWindow now fetchedAt = true)
  | .done now crl status _ => ∀ source, status = .good source →
      ∃ x, crl = some x ∧ Justified lib rule log fetched c now x
  | _ => True

/-- What holds of the state that the tasks share. -/
structure SharedSound (w : CrlWorld) : Prop where
  clock : 0 ≤ w.clock
  memo : ∀ key s, w.memo key = some s → Dated w.log key s.fetchedAt
  cache : ∀ key entry expires storedAt der, w.cache key = some (entry, expires) →
    openEntry entry = some (storedAt, der) → Dated w.log key storedAt

section Step

variable {log log' : List FetchRecord} {flight flight' : Flight} {fetched fetched' : Prop}
  {c : ScopeCall} {pc pc' : CrlPc} {e : Effect}

theorem CheckHeld.mono {check : Option (SystemTime × Option (ParsedCrl × SystemTime))}
    (h : CheckHeld lib log c check) (hlog : log ⊆ log') : CheckHeld lib log' c check :=
  fun now crl fetchedAt hcheck => (h now crl fetchedAt hcheck).mono hlog

/-- The log only grows and a fetch that has succeeded stays so; a slot may only change in a way
    that those who wait for it allow. -/
theorem TaskSound.mono (h : TaskSound lib rule log flight fetched c pc) (hlog : log ⊆ log')
    (hfetched : fetched → fetched')
    (hflight : ∀ check started, pc = .waitLock check started → started ≤ flight.generation →
      (flight.generation ≠ started → flight.last = some true → fetched) →
      started ≤ flight'.generation ∧
        (flight'.generation ≠ started → flight'.last = some true → fetched')) :
    TaskSound lib rule log' flight' fetched' c pc := by
  cases pc with
  | enter => trivial
  | readCache now => trivial
  | lookUp now storedAt der => exact Dated.mono h hlog
  | remember now storedAt der crl => exact Dated.mono h hlog
  | judge now cached => exact fun s hs => (h s hs).mono hlog
  | tryLock => trivial
  | fetchEnter check => exact CheckHeld.mono h hlog
  | waitLock check started => exact ⟨h.1.mono hlog, hflight check started rfl h.2.1 h.2.2⟩
  | waiter check => exact ⟨h.1.mono hlog, hfetched h.2⟩
  | request check => exact CheckHeld.mono h hlog
  | compare check now der crl => exact ⟨h.1.mono hlog, h.2⟩
  | store check s => exact ⟨h.1.mono hlog, h.2⟩
  | rememberFetched check s => exact ⟨h.1.mono hlog, h.2.mono hlog⟩
  | complete check result => exact ⟨h.1.mono hlog, fun s hs => (h.2 s hs).mono hlog⟩
  | fetched now cached result =>
    exact ⟨h.1.mono hlog, fun s hs => ⟨(h.2 s hs).1.mono hlog, hfetched (h.2 s hs).2⟩⟩
  | verdict now current source fetchFailed =>
    intro crl fetchedAt hcurrent
    obtain ⟨hheld, hwhy⟩ := h crl fetchedAt hcurrent
    exact ⟨hheld.mono hlog, hwhy.imp_left hfetched⟩
  | done now crl status warning =>
    intro source hgood
    obtain ⟨x, hx, happlies, hunlisted, r, hr, hkey, fetchedAt, hle, hnext, hwhy⟩ := h source hgood
    exact ⟨x, hx, happlies, hunlisted, r, hlog hr, hkey, fetchedAt, hle, hnext,
      hwhy.imp_left hfetched⟩
  | ended => trivial

/-- No effect of a step takes a fetch from the log. -/
theorem log_subset_apply (lib : CrlLibrary) (rule : RevocationRule) (i : Nat) (c : ScopeCall)
    (w : CrlWorld) (e : Effect) : w.log ⊆ (e.apply lib rule i c w).log := by
  cases e with
  | store s => exact List.subset_cons_self _ _
  | _ => exact List.Subset.refl _

/-- What `crl_scope` takes from the cache: a fetch time in the future counts as `thisUpdate`. -/
theorem held_of_current {now fetchedAt : SystemTime} {cached : Option SeenCrl} {crl : ParsedCrl}
    (hdated : ∀ s, cached = some s → Dated log (c.key lib) s.fetchedAt)
    (h : (c.current now cached).1 = some (crl, fetchedAt)) : Held lib log c now crl fetchedAt := by
  cases cached with
  | none => cases h
  | some s =>
    obtain ⟨r, hr, hkey, hle⟩ := hdated s rfl
    simp only [ScopeCall.current] at h
    split at h
    · rename_i happlies
      simp only [Option.some.injEq, Prod.mk.injEq] at h
      obtain ⟨rfl, rfl⟩ := h
      refine ⟨happlies, r, hr, hkey, ?_⟩
      split
      · exact Int.le_max_right _ _
      · exact Int.max_le.mpr ⟨Int.le_trans hle (Int.le_max_left _ _), Int.le_max_right _ _⟩
    · cases h

/-- What `conclude` answers good has been looked for in a current CRL that does not list it, and
    after a failed fetch the CRL is inside the window. -/
theorem conclude_good {subject : CrlSubject} {now : SystemTime}
    {current : Option (ParsedCrl × SystemTime)} {source source' : StatusSource}
    {fetchFailed : Bool}
    (h : (rule.conclude subject now current source fetchFailed).1 = .good source') :
    ∃ crl fetchedAt, current = some (crl, fetchedAt) ∧
      now ≤ rule.effectiveNext crl fetchedAt ∧ crl.lists subject = false ∧
      (fetchFailed = true → rule.inWindow now fetchedAt = true) := by
  cases current with
  | none => cases h
  | some p =>
    obtain ⟨crl, fetchedAt⟩ := p
    simp only [RevocationRule.conclude] at h
    split at h
    · split at h <;> cases h
    · rename_i hnext
      split at h
      · cases h
      · rename_i hwindow
        split at h
        · cases h
        · rename_i hlists
          refine ⟨crl, fetchedAt, rfl, Int.not_lt.mp hnext, by simpa using hlists, ?_⟩
          intro hfailed
          by_contra hout
          exact hwindow ⟨hfailed, by simpa using hout⟩

/-- The step of a task keeps what holds at its point: each transition takes its fetch time from
    the memo, from the cache, from its own fetch or from the slot that it has waited for. -/
theorem Transition.sound (h : Transition lib rule w c pc e pc') (hshared : SharedSound w)
    (hs : TaskSound lib rule w.log (w.flights (c.key lib)) fetched c pc)
    (hmono : fetched → fetched') (hfetched : ∀ check s, pc = .complete check (some s) → fetched')
    (i : Nat) :
    TaskSound lib rule (e.apply lib rule i c w).log
      ((e.apply lib rule i c w).flights (c.key lib)) fetched' c pc' := by
  cases h with
  | enter => trivial
  | miss => exact fun s hs => by cases hs
  | expired => exact fun s hs => by cases hs
  | unreadable => exact fun s hs => by cases hs
  | hit hcache _ hopen => exact hshared.cache _ _ _ _ _ hcache hopen
  | known =>
    rintro s ⟨⟩
    exact hs
  | verifies => exact hs
  | fails => exact fun s hs => by cases hs
  | remember =>
    rintro s ⟨⟩
    exact hs
  | fresh hfresh he =>
    intro crl fetchedAt hcurrent
    have hheld := (held_of_current hs hcurrent).mono (log_subset_apply lib rule i c w e)
    refine ⟨hheld, .inr (.inr ?_)⟩
    rw [hcurrent, RevocationRule.fresh, Option.any_some, Bool.and_eq_true] at hfresh
    exact hfresh.2
  | stale =>
    rintro now crl fetchedAt hcheck
    obtain ⟨rfl, hcurrent⟩ := Prod.mk.inj (Option.some.inj hcheck)
    exact held_of_current hs hcurrent
  | busy => trivial
  | idle => exact fun now crl fetchedAt hcheck => by cases hcheck
  | start => exact ⟨hs, le_refl _, fun hne => absurd rfl hne⟩
  | waited _ hgeneration hlast => exact ⟨hs.1, hmono (hs.2.2 hgeneration hlast)⟩
  | @waitedInVain check =>
    cases check with
    | none => trivial
    | some p => exact ⟨hs.1, fun s hs => by cases hs⟩
  | locked => exact hs.1
  | @taken check =>
    cases check with
    | none => trivial
    | some p => exact ⟨hs.1, fun s hmemo => ⟨hshared.memo _ s hmemo, hmono hs.2⟩⟩
  | failed => exact ⟨hs, fun s hs => by cases hs⟩
  | received => exact ⟨hs, hshared.clock⟩
  | keepsNewer => exact hs
  | takesFetched => exact hs
  | store =>
    exact ⟨hs.1.mono (List.subset_cons_self _ _), _, List.mem_cons_self, rfl, Int.le_refl _⟩
  | rememberFetched =>
    refine ⟨hs.1, ?_⟩
    rintro s ⟨⟩
    exact hs.2
  | @complete check result =>
    cases check with
    | none => trivial
    | some p =>
      refine ⟨hs.1, ?_⟩
      rintro s rfl
      exact ⟨hs.2 s rfl, hfetched _ s rfl⟩
  | applies happlies =>
    rintro crl fetchedAt ⟨⟩
    obtain ⟨⟨r, hr, hkey, hle⟩, hdone⟩ := hs.2 _ rfl
    exact ⟨⟨happlies, r, hr, hkey, Int.le_trans hle (Int.le_max_left _ _)⟩, .inl (hmono hdone)⟩
  | fallsBack =>
    rintro crl fetchedAt rfl
    exact ⟨hs.1 _ crl fetchedAt rfl, .inr (.inl rfl)⟩
  | verdict =>
    intro source hgood
    obtain ⟨crl, fetchedAt, rfl, hnext, hunlisted, hwindow⟩ := conclude_good hgood
    obtain ⟨⟨happlies, r, hr, hkey, hle⟩, hwhy⟩ := hs crl fetchedAt rfl
    refine ⟨crl, rfl, happlies, hunlisted, r, hr, hkey, fetchedAt, hle, hnext, ?_⟩
    rcases hwhy with hdone | hfailed | hin
    · exact .inl (hmono hdone)
    · exact .inr (hwindow hfailed)
    · exact .inr hin

/-- A slot is marked as fetched only by the task that holds a fetched CRL. -/
theorem Transition.completes {ok : Bool} (h : Transition lib rule w c pc (.complete ok) pc')
    (hok : ok = true) : ∃ check s, pc = .complete check (some s) := by
  cases h with
  | complete =>
    obtain ⟨s, rfl⟩ := Option.isSome_iff_exists.mp hok
    exact ⟨_, s, rfl⟩
  | fresh _ he => simp at he

/-- The step of a task keeps what holds of memo and cache: an entry that it writes dates from a
    fetch of the log. -/
theorem SharedSound.apply {i : Nat} {t : CrlTask} (hshared : SharedSound w)
    (hs : TaskSound lib rule w.log (w.flights (t.call.key lib)) fetched t.call t.pc)
    (h : Transition lib rule w t.call t.pc e pc') :
    SharedSound (e.apply lib rule i t.call (w.goto i t pc')) where
  clock := by
    rw [clock_apply]
    exact hshared.clock
  memo := by
    intro key s hmemo
    have hlog := log_subset_apply lib rule i t.call (w.goto i t pc') e
    rcases memo_apply hmemo with hmemo | ⟨rfl, rfl⟩
    · exact (hshared.memo key s hmemo).mono hlog
    · obtain ⟨c, pc⟩ := t
      cases h with
      | remember => exact hs
      | rememberFetched => exact hs.2
      | fresh _ he => simp at he
  cache := by
    intro key entry expires storedAt der hcache hopen
    have hlog := log_subset_apply lib rule i t.call (w.goto i t pc') e
    rcases cache_apply hcache with ⟨hcache, -⟩ | ⟨rfl, s, rfl, rfl, -⟩
    · exact (hshared.cache key entry expires storedAt der hcache hopen).mono hlog
    · obtain ⟨c, pc⟩ := t
      cases h with
      | store => exact ⟨_, List.mem_cons_self, rfl, storedAt_le hs.2 hopen⟩
      | fresh _ he => simp at he

end Step

/-! ## Runs -/

/-- What holds after the actions `past`. -/
structure RunSound (lib : CrlLibrary) (rule : RevocationRule) (clock : SystemTime)
    (past : List CrlAction) (w : CrlWorld) : Prop where
  shared : SharedSound w
  tasks : ∀ i t, w.tasks[i]? = some t →
    TaskSound lib rule w.log (w.flights (t.call.key lib))
      (FetchedDuring lib rule clock past i (t.call.key lib)) t.call t.pc

/-- A step that changes no slot and no fetch. -/
theorem RunSound.of_eq {clock : SystemTime} {past : List CrlAction}
    (h : RunSound lib rule clock past w) (a : CrlAction) (hshared : SharedSound w')
    (hlog : w'.log = w.log) (hflights : w'.flights = w.flights)
    (htasks : ∀ (i : Nat) (t : CrlTask), w'.tasks[i]? = some t →
      w.tasks[i]? = some t ∨ t.pc = .enter) :
    RunSound lib rule clock (past ++ [a]) w' where
  shared := hshared
  tasks := by
    intro i t ht
    rw [hlog, hflights]
    rcases htasks i t ht with ht | hpc
    · exact (h.tasks i t ht).mono (List.Subset.refl _) (·.append a)
        fun _ _ _ hle hdone => ⟨hle, fun hne hlast => (hdone hne hlast).append a⟩
    · rw [hpc]
      trivial

/-- A step of the world keeps what holds of every task. The task that moves goes by its transition;
    the others see the log grow and perhaps the slot that they wait for released. -/
theorem RunSound.step {clock : SystemTime} {past : List CrlAction} {a : CrlAction}
    (hrun : (CrlWorld.new clock).run lib rule past = some w) (h : RunSound lib rule clock past w)
    (hstep : w.step lib rule a = some w') : RunSound lib rule clock (past ++ [a]) w' := by
  cases a with
  -- only the clock moves; times of fetches are compared with the log, not with it
  | tick nanos =>
    cases hstep
    have hclock : 0 ≤ w.clock + Int.ofNat nanos := Int.add_nonneg h.shared.clock (Int.natCast_nonneg _)
    exact h.of_eq _ ⟨hclock, h.shared.memo, h.shared.cache⟩ rfl rfl fun _ _ ht => .inl ht
  | call c =>
    cases hstep
    refine h.of_eq _ ⟨h.shared.clock, h.shared.memo, h.shared.cache⟩ rfl rfl fun i t ht => ?_
    rcases getElem?_append_singleton ht with ht | rfl
    · exact .inl ht
    · exact .inr rfl
  | forgetCached key =>
    cases hstep
    refine h.of_eq _ ⟨h.shared.clock, h.shared.memo, ?_⟩ rfl rfl fun _ _ ht => .inl ht
    intro k entry expires storedAt der hcache hopen
    dsimp only at hcache
    split at hcache
    · cases hcache
    · exact h.shared.cache k entry expires storedAt der hcache hopen
  | forgetSeen key =>
    cases hstep
    refine h.of_eq _ ⟨h.shared.clock, ?_, h.shared.cache⟩ rfl rfl fun _ _ ht => .inl ht
    intro k s hmemo
    dsimp only at hmemo
    split at hmemo
    · cases hmemo
    · exact h.shared.memo k s hmemo
  | step i response =>
    simp only [CrlWorld.step] at hstep
    split at hstep
    · cases hstep
    · rename_i t ht
      obtain ⟨e, pc, htrans, rfl⟩ := stepTask_transition hstep
      refine ⟨h.shared.apply (h.tasks i t ht) htrans, fun j u hu => ?_⟩
      rcases getElem?_tasks_apply hu with ⟨rfl, rfl⟩ | ⟨-, hold⟩ | ⟨-, rfl⟩
      · rw [log_apply_goto, flights_apply_goto]
        refine htrans.sound h.shared (h.tasks j t ht) (·.append _) ?_ j
        intro check s hpc
        refine ⟨past, _, [], w, rfl, hrun, ⟨t, ht, ?_⟩, j, response, t, check, s, rfl, ht, rfl, hpc⟩
        rw [hpc]
        simp
      -- another task: if the step releases the slot for which it waits, that fetch was in its time
      · refine (h.tasks j u hold).mono (log_subset_apply lib rule i t.call (w.goto i t pc) e)
          (·.append _) ?_
        intro waiting started hpc hle hdone
        rcases flights_apply lib rule i t.call (w.goto i t pc) e (u.call.key lib) with
          ⟨hgeneration, hlast⟩ | ⟨hkey, ok, rfl, hgeneration, hlast⟩
        · rw [hgeneration, hlast]
          exact ⟨hle, fun hne hok => (hdone hne hok).append _⟩
        · rw [hgeneration, hlast]
          refine ⟨Nat.le_succ_of_le hle, fun _ hok => ?_⟩
          obtain ⟨check, s, hcomplete⟩ := htrans.completes (Option.some.inj hok)
          refine ⟨past, _, [], w, rfl, hrun, ⟨u, hold, ?_⟩, i, response, t, check, s, rfl, ht,
            hkey.symm, hcomplete⟩
          rw [hpc]
          simp
      · trivial

/-- After every run memo, cache and all tasks are sound. -/
theorem run_sound {clock : SystemTime} (hclock : 0 ≤ clock) {actions : List CrlAction}
    (h : (CrlWorld.new clock).run lib rule actions = some w) :
    RunSound lib rule clock actions w := by
  refine Option.foldlM_history h ⟨⟨hclock, ?_, ?_⟩, ?_⟩ fun past a u v _ hpast hstep hs =>
    hs.step hpast hstep
  · exact fun key s hmemo => by cases hmemo
  · exact fun key entry expires storedAt der hcache => by cases hcache
  · exact fun i t ht => by simp [CrlWorld.new] at ht

/-- The last fetch for a key. -/
def LastFetch (log : List FetchRecord) (key : Str) (r : FetchRecord) : Prop :=
  r ∈ log ∧ r.key = key ∧ ∀ r' ∈ log, r'.key = key → r'.time ≤ r.time

/-- Among the fetches for a key there is a last one. -/
theorem exists_lastFetch {log : List FetchRecord} {key : Str} {r : FetchRecord} (hr : r ∈ log)
    (hkey : r.key = key) : ∃ last, LastFetch log key last := by
  induction log generalizing r with
  | nil => cases hr
  | cons a log ih =>
    by_cases hrest : ∃ r' ∈ log, r'.key = key
    · obtain ⟨r', hr', hkey'⟩ := hrest
      obtain ⟨last, hlast, hlastKey, hmax⟩ := ih hr' hkey'
      -- the later of `a` and the last one of the rest
      by_cases ha : a.key = key ∧ last.time < a.time
      · refine ⟨a, List.mem_cons_self, ha.1, fun x hx hxkey => ?_⟩
        rcases List.mem_cons.mp hx with rfl | hx
        · exact Int.le_refl _
        · exact Int.le_trans (hmax x hx hxkey) (Int.le_of_lt ha.2)
      · refine ⟨last, List.mem_cons_of_mem a hlast, hlastKey, fun x hx hxkey => ?_⟩
        rcases List.mem_cons.mp hx with rfl | hx
        · exact Int.not_lt.mp fun hlt => ha ⟨hxkey, hlt⟩
        · exact hmax x hx hxkey
    · obtain rfl : r = a := by
        rcases List.mem_cons.mp hr with h | h
        · exact h
        · exact absurd ⟨r, h, hkey⟩ hrest
      refine ⟨r, List.mem_cons_self, hkey, fun x hx hxkey => ?_⟩
      rcases List.mem_cons.mp hx with rfl | hx
      · exact Int.le_refl _
      · exact absurd ⟨x, hx, hxkey⟩ hrest

/-- What the distrust rule asks for before a certificate is answered good from `crl` at `now`:
    the signer of the scope has signed it, it covers the certificate and does not list it, it is
    current, and a fetch succeeded within the check or the last one is at most `window` old. -/
structure GoodAnswer (lib : CrlLibrary) (rule : RevocationRule) (window : Int)
    (log : List FetchRecord) (fetched : Prop) (c : ScopeCall) (now : SystemTime)
    (crl : ParsedCrl) : Prop where
  verified : ∃ der, parseAndVerify lib der c.signer rule.nextUpdateRequired = .ok crl
  covers : crl.covers c.subject c.point = .ok ()
  unlisted : crl.lists c.subject = false
  current : ∃ last, LastFetch log (c.key lib) last ∧
    (∃ fetchedAt ≤ max last.time crl.thisUpdate, now ≤ rule.effectiveNext crl fetchedAt) ∧
    (fetched ∨ now - max last.time crl.thisUpdate ≤ window)

/-- A CRL that applies covers the certificate. -/
theorem covers_of_applies {c : ScopeCall} {now : SystemTime} {crl : ParsedCrl}
    (h : c.applies now crl = true) : crl.covers c.subject c.point = .ok () := by
  rw [ScopeCall.applies, Bool.and_eq_true] at h
  cases hcovers : crl.covers c.subject c.point with
  | error e => simp [hcovers, Except.toOption] at h
  | ok u => rfl

/-- A certificate that a check of the run has answered good is so for a reason. The check has used
    some fetch of the log; the rule speaks of the last one, which is no earlier. -/
theorem good_of_run {clock : SystemTime} (hclock : 0 ≤ clock) {actions : List CrlAction}
    {window : Int} (hwindow : rule.distrustAfter = some window)
    (halike : SignersAlike lib actions)
    (h : (CrlWorld.new clock).run lib rule actions = some w) {i : Nat} {t : CrlTask}
    (ht : w.tasks[i]? = some t) {now : SystemTime} {crl : Option ParsedCrl}
    {source : StatusSource} {warning : Option SystemTime}
    (hpc : t.pc = .done now crl (.good source) warning) :
    ∃ x, crl = some x ∧ GoodAnswer lib rule window w.log
      (FetchedDuring lib rule clock actions i (t.call.key lib)) t.call now x := by
  have hsound := (run_sound hclock h).tasks i t ht
  rw [hpc] at hsound
  obtain ⟨x, rfl, happlies, hunlisted, r, hr, hkey, fetchedAt, hle, hnext, hwhy⟩ :=
    hsound source rfl
  have hmem := List.mem_of_getElem? ht
  obtain ⟨der, hder⟩ := (run_verified h).crls t hmem x (by rw [hpc]; simp [CrlPc.crls])
  obtain ⟨last, hlast⟩ := exists_lastFetch hr hkey
  -- the last fetch is no earlier than the one whose time the check has used
  have hlater : max r.time x.thisUpdate ≤ max last.time x.thisUpdate :=
    Int.max_le.mpr ⟨Int.le_trans (hlast.2.2 r hr hkey) (Int.le_max_left _ _), Int.le_max_right _ _⟩
  refine ⟨x, rfl, ⟨der, hder.parseAndVerify halike ((run_verified h).called t hmem)⟩,
    covers_of_applies happlies, hunlisted, last, hlast,
    ⟨fetchedAt, Int.le_trans hle hlater, hnext⟩, hwhy.imp_right fun hin => ?_⟩
  rw [RevocationRule.inWindow, hwindow, Option.all_some, decide_eq_true_eq] at hin
  have hage : now - fetchedAt ≤ window := Int.le_trans (Int.le_max_right _ _) hin
  exact Int.le_trans (Int.sub_le_sub_left (Int.le_trans hle hlater) now) hage

end CrlWorld

/-! ## Paths -/

namespace PathChecker

variable {σ : Type} {v : PathChecker σ}

theorem bind_apply {α β : Type} (x : StateM σ α) (f : α → StateM σ β) (s : σ) :
    (x >>= f) s = f (x s).1 (x s).2 := rfl

/-- The walk down `path` comes to certificate `i` in the state `s`: none above it is refused. -/
inductive Reaches (v : PathChecker σ) (path : List Bytes) (s₀ : σ) : Nat → σ → Prop
  | top (h : 2 ≤ path.length) : Reaches v path s₀ (path.length - 2) s₀
  | next {i : Nat} {s : σ} (h : Reaches v path s₀ (i + 1) s)
      (hkept : (v.checkOneAt path (i + 1) s).1.refused = false) :
      Reaches v path s₀ i (v.checkOneAt path (i + 1) s).2

/-- One step of the walk: it ends at a refused certificate and goes on below any other. -/
theorem walk_succ (path : List Bytes) (i : Nat) (outcome : PathOutcome) (s : σ) :
    v.walk path (i + 1) outcome s =
      if (v.checkOneAt path i s).1.refused then v.checkOneAt path i s
      else v.walk path i (if (v.checkOneAt path i s).1 ≠ .good then (v.checkOneAt path i s).1
        else outcome) (v.checkOneAt path i s).2 := by
  rw [walk, bind_apply]
  split <;> rfl

/-- A walk that comes to a certificate has left the answer to it and those below it. -/
theorem Reaches.checkPath {path : List Bytes} {s₀ s : σ} {i : Nat} (h : Reaches v path s₀ i s) :
    ∃ outcome, v.checkPath path s₀ = v.walk path (i + 1) outcome s := by
  induction h with
  | top hlen =>
    refine ⟨.good, ?_⟩
    rw [PathChecker.checkPath, if_neg (by omega), show path.length - 1 = path.length - 2 + 1 by omega]
  | @next i s _ hkept ih =>
    obtain ⟨outcome, heq⟩ := ih
    rw [walk_succ, hkept] at heq
    exact ⟨_, heq⟩

/-- The walk stops at the first certificate that is refused. -/
theorem Reaches.refused {path : List Bytes} {s₀ s : σ} {i : Nat} (h : Reaches v path s₀ i s)
    (hrefused : (v.checkOneAt path i s).1.refused = true) :
    (v.checkPath path s₀).1 = (v.checkOneAt path i s).1 := by
  obtain ⟨outcome, heq⟩ := h.checkPath
  rw [heq, walk_succ, if_pos hrefused]

/-- The loop over the URIs answers good only where a scope did. -/
theorem checkUrls_good {issuer signer : Bytes} {subject : CrlSubject} {point : DistributionPoint}
    {urls : List Str} {found : RevocationStatus × Option SystemTime} {s : σ}
    {source : StatusSource}
    (h : (v.checkUrls issuer subject point signer urls found s).1.1.1 = .good source)
    (hfound : found.1 ≠ .good source) :
    ∃ url ∈ urls, ∃ s',
      (v.services.crlScope ⟨issuer, subject, point, signer, url⟩ s').1.1 = .good source := by
  induction urls generalizing found s with
  | nil => exact absurd h hfound
  | cons url urls ih =>
    obtain ⟨fallback, warning⟩ := found
    rw [checkUrls, bind_apply] at h
    -- the answer for this URI decides, or the loop goes on
    generalize hscope : v.services.crlScope ⟨issuer, subject, point, signer, url⟩ s = answer at h
    obtain ⟨⟨status, warn⟩, s'⟩ := answer
    cases status with
    | good source' => exact ⟨url, List.mem_cons_self, s, by rw [hscope]; exact h⟩
    | revoked source' => cases h
    | distrusted reason since source' =>
      obtain ⟨u, hu, hgood⟩ := ih h (by simp)
      exact ⟨u, List.mem_cons_of_mem url hu, hgood⟩
    | notObtainable source' =>
      obtain ⟨u, hu, hgood⟩ := ih h hfound
      exact ⟨u, List.mem_cons_of_mem url hu, hgood⟩
    | absent =>
      obtain ⟨u, hu, hgood⟩ := ih h hfound
      exact ⟨u, List.mem_cons_of_mem url hu, hgood⟩

/-- A CRL signer is a configured certificate with the name that the point gives. -/
theorem crlSigner_some {name signer : Bytes} {s : σ} (h : (v.crlSigner name s).1 = some signer) :
    signer ∈ v.crlSigners ∧ v.reader.subjectDer signer = some name := by
  rw [crlSigner, bind_apply] at h
  generalize v.reader.fromUnix (unixSecs (v.services.clock s).1) = now at h
  cases now with
  | none => cases h
  | some now =>
    have hfind := List.find?_some h
    simp only [Bool.and_eq_true, beq_iff_eq] at hfind
    exact ⟨List.mem_of_find?_eq_some h, hfind.1.1⟩

/-- The signer of a point: the issuer, or a configured signer with the name of the point. -/
def SignerOf (v : PathChecker σ) (issuer : Bytes) (point : DistributionPoint) (signer : Bytes) :
    Prop :=
  point.crlIssuer = none ∧ signer = issuer ∨ ∃ name, point.crlIssuer = some name ∧
    signer ∈ v.crlSigners ∧ v.reader.subjectDer signer = some name

/-- The signer of a point is the issuer or a configured CRL signer. -/
theorem pointSigner_some {issuer signer : Bytes} {point : DistributionPoint} {s : σ}
    (h : (v.pointSigner issuer point s).1 = some signer) : SignerOf v issuer point signer := by
  rw [pointSigner] at h
  cases hissuer : point.crlIssuer with
  | none =>
    rw [hissuer] at h
    cases h
    exact .inl ⟨hissuer, rfl⟩
  | some name =>
    rw [hissuer] at h
    exact .inr ⟨name, hissuer, crlSigner_some h⟩

/-- The loop over the points answers good only where a scope of one of them did. -/
theorem checkPoints_good {issuer : Bytes} {subject : CrlSubject} {points : List DistributionPoint}
    {found : RevocationStatus × Option SystemTime} {s : σ} {source : StatusSource}
    (h : (v.checkPoints issuer subject points found s).1.1 = .good source)
    (hfound : found.1 ≠ .good source) :
    ∃ point ∈ points, ∃ signer, SignerOf v issuer point signer ∧ ∃ url ∈ point.uris, ∃ s',
      (v.services.crlScope ⟨issuer, subject, point, signer, url⟩ s').1.1 = .good source := by
  induction points generalizing found s with
  | nil => exact absurd h hfound
  | cons point points ih =>
    rw [checkPoints, bind_apply] at h
    generalize hsigner : v.pointSigner issuer point s = chosen at h
    obtain ⟨signer, s'⟩ := chosen
    cases signer with
    | none =>
      obtain ⟨p, hp, hgood⟩ := ih h hfound
      exact ⟨p, List.mem_cons_of_mem point hp, hgood⟩
    | some signer =>
      have hof := pointSigner_some (congrArg Prod.fst hsigner)
      by_cases hgood : (v.checkUrls issuer subject point signer point.uris found s').1.1.1 =
          .good source
      · obtain ⟨url, hurl, hscope⟩ := checkUrls_good hgood hfound
        exact ⟨point, List.mem_cons_self, signer, hof, url, hurl, hscope⟩
      · dsimp only at h
        rw [bind_apply] at h
        generalize v.checkUrls issuer subject point signer point.uris found s' = result at h hgood
        obtain ⟨⟨found', decides⟩, s''⟩ := result
        cases decides with
        | true => exact absurd h hgood
        | false =>
          obtain ⟨p, hp, hanswer⟩ := ih h hgood
          exact ⟨p, List.mem_cons_of_mem point hp, hanswer⟩

/-- `crl_scope` has answered `status` for a scope of the certificate: for a URI of one of its
    points, with the signer of the point. -/
def ScopeAnswers (v : PathChecker σ) (cert issuer : Bytes) (status : RevocationStatus) : Prop :=
  ∃ subject points point signer url s, CrlSubject.of v.lib cert = .ok subject ∧
    distributionPoints v.lib cert = .ok (some points) ∧ point ∈ points ∧
    SignerOf v issuer point signer ∧ url ∈ point.uris ∧
    (v.services.crlScope ⟨issuer, subject, point, signer, url⟩ s).1.1 = status

/-- The CRLs of a certificate answer good only where a scope of it did. -/
theorem crlStatus_good {cert issuer : Bytes} {subject : CrlSubject} {s : σ} {source : StatusSource}
    (hsubject : CrlSubject.of v.lib cert = .ok subject)
    (h : (v.crlStatus cert issuer subject s).1.1 = .good source) :
    ScopeAnswers v cert issuer (.good source) := by
  rw [crlStatus] at h
  cases hpoints : distributionPoints v.lib cert with
  | error e =>
    rw [hpoints] at h
    cases h
  | ok points =>
    rw [hpoints] at h
    cases points with
    | none => cases h
    | some points =>
      cases points with
      | nil => cases h
      | cons point points =>
        obtain ⟨p, hp, signer, hsigner, url, hurl, s', hgood⟩ := checkPoints_good h (by simp)
        exact ⟨subject, _, p, signer, url, s', hsubject, hpoints, hp, hsigner, hurl, hgood⟩

/-- A certificate is good by a CRL only where a scope of it is. -/
theorem decideOne_good {cert issuer : Bytes} {upper : List Bytes} {s : σ} {source : StatusSource}
    {warning : Option SystemTime}
    (h : (v.decideOne cert issuer upper s).1 = (.good, .crl, source, warning)) :
    ScopeAnswers v cert issuer (.good source) := by
  rw [decideOne] at h
  cases hsubject : CrlSubject.of v.lib cert with
  | error e =>
    rw [hsubject] at h
    cases h
  | ok subject =>
    rw [hsubject] at h
    dsimp only at h
    rw [bind_apply] at h
    generalize hcrl : v.crlStatus cert issuer subject s = answer at h
    obtain ⟨⟨status, warn⟩, s'⟩ := answer
    -- where the CRLs do not decide, the answer is that of OCSP or not good
    cases status with
    | good source' =>
      cases h
      exact crlStatus_good hsubject (by rw [hcrl])
    | revoked source' => cases h
    | distrusted reason since source' => cases h
    | notObtainable source' =>
      simp only [decided, bind_apply] at h
      generalize v.ocspAnswer cert issuer upper s' = ocsp at h
      obtain ⟨status, s''⟩ := ocsp
      cases status <;> cases h
    | absent =>
      simp only [decided, bind_apply] at h
      generalize v.ocspAnswer cert issuer upper s' = ocsp at h
      obtain ⟨status, s''⟩ := ocsp
      cases status <;> cases h

end PathChecker

/-! ## The rule -/

/-- `Outcome::Revoked` or `Outcome::Distrusted`. -/
def PathOutcome.Condemns (outcome : PathOutcome) : Prop :=
  (∃ subject method, outcome = .revoked subject method) ∨
    ∃ ca reason since, outcome = .distrusted ca reason since

/-- Every certificate that a check of the run has answered good is so for a reason. -/
def GoodForReason (lib : CrlLibrary) (rule : RevocationRule) (window : Int) (clock : SystemTime)
    (actions : List CrlAction) (w : CrlWorld) : Prop :=
  ∀ (i : Nat) (t : CrlTask) (now : SystemTime) (crl : Option ParsedCrl) (source : StatusSource)
    (warning : Option SystemTime), w.tasks[i]? = some t →
    t.pc = .done now crl (.good source) warning →
    ∃ x, crl = some x ∧ CrlWorld.GoodAnswer lib rule window w.log
      (CrlWorld.FetchedDuring lib rule clock actions i (t.call.key lib)) t.call now x

/-- A certificate is good by a CRL only as a scope of it is, and a path with a revoked or
    distrusted certificate that nothing above it hides is refused. -/
def PathsRefused : Prop :=
  ∀ (σ : Type) (v : PathChecker σ),
    (∀ cert issuer upper s source warning,
      (v.decideOne cert issuer upper s).1 = (.good, .crl, source, warning) →
      PathChecker.ScopeAnswers v cert issuer (.good source)) ∧
    ∀ path s₀ i s, PathChecker.Reaches v path s₀ i s → (v.checkOneAt path i s).1.Condemns →
      (v.checkPath path s₀).1.refused = true

/-- In a run whose checks name signers with the same key for the same name, each good answer has
    its reason, and a path with a condemned certificate is refused. -/
theorem distrust_rule_of_alike (lib : CrlLibrary) (rule : RevocationRule) (window : Int)
    (hwindow : rule.distrustAfter = some window) (clock : SystemTime) (hclock : 0 ≤ clock)
    (actions : List CrlAction) (halike : CrlWorld.SignersAlike lib actions) (w : CrlWorld)
    (h : (CrlWorld.new clock).run lib rule actions = some w) :
    GoodForReason lib rule window clock actions w ∧ PathsRefused := by
  constructor
  · intro i t now crl source warning ht hpc
    exact CrlWorld.good_of_run hclock hwindow halike h ht hpc
  · intro σ v
    refine ⟨fun cert issuer upper s source warning hgood => PathChecker.decideOne_good hgood, ?_⟩
    intro path s₀ i s hreaches hcondemns
    have hrefused : (v.checkOneAt path i s).1.refused = true := by
      rcases hcondemns with ⟨subject, method, h⟩ | ⟨ca, reason, since, h⟩
      · rw [h]
        rfl
      · rw [h]
        rfl
    rw [hreaches.refused hrefused]
    exact hrefused

/-- Two checks against the first authority, each to its end: the second is answered from the
    memo. -/
def answeredRun : List CrlAction :=
  CrlAction.call (twinCall [1]) :: List.replicate 12 (.step 0 (some [7])) ++
    CrlAction.call (twinCall [1]) :: List.replicate 5 (.step 1 none)

/-- Two checks against one authority, the second from the memo. -/
theorem distrust_rule_of_alike_one_authority : ∃ w,
    (CrlWorld.new 0).run twinLibrary .bdew answeredRun = some w ∧
    w.tasks.map CrlTask.pc =
      [.done 0 (some ⟨0, some (1000 * nanosPerSec), none, []⟩) (.good .network) none,
        .done 0 (some ⟨0, some (1000 * nanosPerSec), none, []⟩) (.good .cache) none] ∧
    GoodForReason twinLibrary .bdew (3 * dayNanos) 0 answeredRun w := by
  have hrun : (((CrlWorld.new 0).run twinLibrary .bdew answeredRun).map fun w =>
      w.tasks.map CrlTask.pc) =
      some [.done 0 (some ⟨0, some (1000 * nanosPerSec), none, []⟩) (.good .network) none,
        .done 0 (some ⟨0, some (1000 * nanosPerSec), none, []⟩) (.good .cache) none] := by
    decide +kernel
  obtain ⟨w, hw, hdone⟩ := Option.map_eq_some_iff.mp hrun
  refine ⟨w, hw, hdone, (distrust_rule_of_alike _ _ _ rfl _ (by decide) _ ?_ _ hw).1⟩
  have hcalls : ∀ c ∈ CrlWorld.calls answeredRun, c = twinCall [1] := by
    intro c hc
    have hlist : CrlWorld.calls answeredRun = [twinCall [1], twinCall [1]] := rfl
    rw [hlist] at hc
    simpa using hc
  intro c hc d hd _
  rw [hcalls c hc, hcalls d hd]

/-- No CRL verifies with the second authority's certificate. -/
theorem parseAndVerify_twin (der : Bytes) (crl : ParsedCrl) :
    parseAndVerify twinLibrary der [2] true ≠ .ok crl := by
  intro h
  by_cases hder : der = [7]
  · subst hder
    have hfails : (parseAndVerify twinLibrary [7] [2] true).toOption = none := by decide +kernel
    rw [h] at hfails
    cases hfails
  · have hcrl : twinLibrary.isCrl der = false := by simpa [twinLibrary] using hder
    simp only [parseAndVerify, hcrl, Except.bind_eq_ok, Except.rejectIf_eq_ok] at h
    obtain ⟨_, hfalse, -⟩ := h
    exact hfalse trivial

/-- A certificate of the second authority is answered good from the CRL of the first. -/
theorem good_from_crl_of_other_authority : ∃ w,
    (CrlWorld.new 0).run twinLibrary .bdew
      (CrlAction.call (twinCall [1]) :: List.replicate 9 (.step 0 (some [7])) ++
        CrlAction.call (twinCall [2]) :: List.replicate 5 (.step 1 none)) = some w ∧
    ¬ GoodForReason twinLibrary .bdew (3 * dayNanos) 0
      (CrlAction.call (twinCall [1]) :: List.replicate 9 (.step 0 (some [7])) ++
        CrlAction.call (twinCall [2]) :: List.replicate 5 (.step 1 none)) w := by
  have hrun : (((CrlWorld.new 0).run twinLibrary .bdew
      (CrlAction.call (twinCall [1]) :: List.replicate 9 (.step 0 (some [7])) ++
        CrlAction.call (twinCall [2]) :: List.replicate 5 (.step 1 none))).map fun w =>
        w.tasks[1]?) = some (some ⟨twinCall [2],
          .done 0 (some ⟨0, some (1000 * nanosPerSec), none, []⟩) (.good .cache) none⟩) := by
    decide +kernel
  obtain ⟨w, hw, htask⟩ := Option.map_eq_some_iff.mp hrun
  refine ⟨w, hw, fun hgood => ?_⟩
  obtain ⟨x, -, hx⟩ := hgood 1 _ _ _ _ _ htask rfl
  obtain ⟨der, hder⟩ := hx.verified
  exact parseAndVerify_twin der x hder

end Asx
