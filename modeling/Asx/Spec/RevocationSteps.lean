import Asx.ForStd.Run
import Asx.Native.Revocation

/-!
# What a step of a revocation task can do

`CrlWorld.stepTask` as a relation: one constructor of `Transition` for every way on from a
point of a task, with the condition under which it is taken, and the change to what the tasks
share as a value (`Effect`). The invariants are proved over the constructors and never unfold
the step function.

## Main results
- `stepTask_transition`: every step is a transition
- `getElem?_tasks_apply`: the tasks after a step
-/

namespace Asx.CrlWorld

variable {lib : CrlLibrary} {rule : RevocationRule} {w w' : CrlWorld}

/-- A change to what the tasks share. -/
inductive Effect where
  | none
  | dropCached
  | remember (seen : SeenCrl)
  | store (seen : SeenCrl)
  | lock
  | unlock
  | complete (ok : Bool)
  | spawn

/-- The world after a change by task `i`, which was called with `c`. -/
def Effect.apply (lib : CrlLibrary) (rule : RevocationRule) (i : Nat) (c : ScopeCall)
    (w : CrlWorld) : Effect → CrlWorld
  | .none => w
  | .dropCached => { w with cache := fun k => if k = c.key lib then Option.none else w.cache k }
  | .remember seen => w.rememberSeen (c.key lib) seen
  | .store seen =>
    { w with
      cache := fun k =>
        if k = c.key lib then some (sealEntry seen.fetchedAt seen.der, expiresAt rule seen)
        else w.cache k
      log := ⟨c.key lib, seen.fetchedAt, seen.der, seen.crl⟩ :: w.log }
  | .lock => w.setFlight (c.key lib) { w.flights (c.key lib) with holder := some i }
  | .unlock => w.setFlight (c.key lib) { w.flights (c.key lib) with holder := Option.none }
  | .complete ok =>
    w.setFlight (c.key lib) ⟨(w.flights (c.key lib)).generation + 1, some ok,
      if ok then Option.none else some ((w.flights (c.key lib)).failingSince.getD w.clock),
      Option.none⟩
  | .spawn => { w with tasks := w.tasks ++ [⟨c, .tryLock⟩] }

/-- `Transition lib rule w c pc e pc'`: in `w` a task of the call `c` goes on from `pc` to `pc'`
    with the change `e`. -/
inductive Transition (lib : CrlLibrary) (rule : RevocationRule) (w : CrlWorld) (c : ScopeCall) :
    CrlPc → Effect → CrlPc → Prop
  | enter : Transition lib rule w c .enter .none (.readCache w.clock)
  | miss {now} (hcache : w.cache (c.key lib) = Option.none) :
      Transition lib rule w c (.readCache now) .none (.judge now Option.none)
  | expired {now entry expires} (hcache : w.cache (c.key lib) = some (entry, expires))
      (hexpires : ¬ expires > w.clock) :
      Transition lib rule w c (.readCache now) .dropCached (.judge now Option.none)
  | unreadable {now entry expires} (hcache : w.cache (c.key lib) = some (entry, expires))
      (hexpires : expires > w.clock) (hopen : openEntry entry = Option.none) :
      Transition lib rule w c (.readCache now) .none (.judge now Option.none)
  | hit {now entry expires storedAt der} (hcache : w.cache (c.key lib) = some (entry, expires))
      (hexpires : expires > w.clock) (hopen : openEntry entry = some (storedAt, der)) :
      Transition lib rule w c (.readCache now) .none (.lookUp now storedAt der)
  | known {now storedAt s} (hmemo : w.memo (c.key lib) = some s) :
      Transition lib rule w c (.lookUp now storedAt s.der) .none
        (.judge now (some ⟨s.der, s.crl, storedAt⟩))
  | verifies {now storedAt der crl} (hmemo : ∀ s, w.memo (c.key lib) = some s → s.der ≠ der)
      (hok : parseAndVerify lib der c.signer rule.nextUpdateRequired = .ok crl) :
      Transition lib rule w c (.lookUp now storedAt der) .none (.remember now storedAt der crl)
  | fails {now storedAt der} (hmemo : ∀ s, w.memo (c.key lib) = some s → s.der ≠ der) :
      Transition lib rule w c (.lookUp now storedAt der) .none (.judge now Option.none)
  | remember {now storedAt der crl} :
      Transition lib rule w c (.remember now storedAt der crl) (.remember ⟨der, crl, storedAt⟩)
        (.judge now (some ⟨der, crl, storedAt⟩))
  | fresh {now cached e} (hfresh : rule.fresh now (c.current now cached).2
      (c.current now cached).1 = true) (he : e = .none ∨ e = .spawn) :
      Transition lib rule w c (.judge now cached) e
        (.verdict now (c.current now cached).1 .cache false)
  | stale {now cached} (hfresh : rule.fresh now (c.current now cached).2
      (c.current now cached).1 = false) :
      Transition lib rule w c (.judge now cached) .none
        (.fetchEnter (some (now, (c.current now cached).1)))
  | busy (hholder : (w.flights (c.key lib)).holder.isSome) :
      Transition lib rule w c .tryLock .none .ended
  | idle (hholder : (w.flights (c.key lib)).holder = Option.none) :
      Transition lib rule w c .tryLock .none (.fetchEnter Option.none)
  | start {check} :
      Transition lib rule w c (.fetchEnter check) .none
        (.waitLock check (w.flights (c.key lib)).generation)
  | waited {check started} (hholder : (w.flights (c.key lib)).holder = Option.none)
      (hgeneration : (w.flights (c.key lib)).generation ≠ started)
      (hlast : (w.flights (c.key lib)).last = some true) :
      Transition lib rule w c (.waitLock check started) .lock (.waiter check)
  | waitedInVain {check started} (hholder : (w.flights (c.key lib)).holder = Option.none)
      (hgeneration : (w.flights (c.key lib)).generation ≠ started) :
      Transition lib rule w c (.waitLock check started) .none (afterFetch check Option.none)
  | locked {check started} (hholder : (w.flights (c.key lib)).holder = Option.none)
      (hgeneration : (w.flights (c.key lib)).generation = started) :
      Transition lib rule w c (.waitLock check started) .lock (.request check)
  | taken {check} :
      Transition lib rule w c (.waiter check) .unlock (afterFetch check (w.memo (c.key lib)))
  | failed {check} :
      Transition lib rule w c (.request check) .none (.complete check Option.none)
  | received {check der crl}
      (hok : parseAndVerify lib der c.signer rule.nextUpdateRequired = .ok crl)
      (htime : crl.checkTime w.clock = .ok ()) :
      Transition lib rule w c (.request check) .none (.compare check w.clock der crl)
  | keepsNewer {check now der crl s} (hmemo : w.memo (c.key lib) = some s)
      (hnewer : s.crl.thisUpdate > crl.thisUpdate) :
      Transition lib rule w c (.compare check now der crl) .none
        (.store check ⟨s.der, s.crl, now⟩)
  | takesFetched {check now der crl}
      (hmemo : ∀ s, w.memo (c.key lib) = some s → s.crl.thisUpdate ≤ crl.thisUpdate) :
      Transition lib rule w c (.compare check now der crl) .none (.store check ⟨der, crl, now⟩)
  | store {check seen} :
      Transition lib rule w c (.store check seen) (.store seen) (.rememberFetched check seen)
  | rememberFetched {check seen} :
      Transition lib rule w c (.rememberFetched check seen) (.remember seen)
        (.complete check (some seen))
  | complete {check result} :
      Transition lib rule w c (.complete check result) (.complete result.isSome)
        (afterFetch check result)
  | applies {now cached s} (happlies : c.applies now s.crl = true) :
      Transition lib rule w c (.fetched now cached (some s)) .none
        (.verdict now (some (s.crl, s.fetchedAt)) .network false)
  | fallsBack {now cached result} :
      Transition lib rule w c (.fetched now cached result) .none (.verdict now cached .cache true)
  | verdict {now current source fetchFailed} :
      Transition lib rule w c (.verdict now current source fetchFailed) .none
        (.done now (current.map Prod.fst)
          (rule.conclude c.subject now current source fetchFailed).1
          (if (rule.conclude c.subject now current source fetchFailed).2
            then (w.flights (c.key lib)).failingSince else Option.none))

/-- Every step of a task is a transition. -/
theorem stepTask_transition {i : Nat} {t : CrlTask} {response : Option Bytes}
    (h : stepTask lib rule w i t response = some w') :
    ∃ e pc, Transition lib rule w t.call t.pc e pc ∧
      w' = Effect.apply lib rule i t.call (w.goto i t pc) e := by
  -- one case for each point, and in it one for each branch of the step
  obtain ⟨c, pc⟩ := t
  cases pc with
  | enter =>
    cases h
    exact ⟨_, _, .enter, rfl⟩
  | readCache now =>
    simp only [stepTask] at h
    split at h
    · rename_i hcache
      cases h
      exact ⟨_, _, .miss hcache, rfl⟩
    · rename_i entry expires hcache
      split at h
      · rename_i hexpires
        split at h
        · rename_i hopen
          cases h
          exact ⟨_, _, .unreadable hcache hexpires hopen, rfl⟩
        · rename_i hopen
          cases h
          exact ⟨_, _, .hit hcache hexpires hopen, rfl⟩
      · rename_i hexpires
        cases h
        exact ⟨_, _, .expired hcache hexpires, rfl⟩
  | lookUp now storedAt der =>
    simp only [stepTask] at h
    split at h
    · rename_i s hs
      obtain ⟨hmemo, hder⟩ := Option.filter_eq_some_iff.mp hs
      cases h
      obtain rfl := of_decide_eq_true hder
      exact ⟨_, _, .known hmemo, rfl⟩
    · rename_i hs
      have hmemo : ∀ s, w.memo (c.key lib) = some s → s.der ≠ der := by
        intro s hmemo hder
        simp [Option.filter_eq_none_iff, hmemo, hder] at hs
      split at h
      · rename_i hok
        cases h
        exact ⟨_, _, .verifies hmemo hok, rfl⟩
      · cases h
        exact ⟨_, _, .fails hmemo, rfl⟩
  | remember now storedAt der crl =>
    cases h
    exact ⟨_, _, .remember, rfl⟩
  | judge now cached =>
    simp only [stepTask] at h
    split at h
    · rename_i hfresh
      split at h
      · cases h
        exact ⟨_, _, .fresh hfresh (.inr rfl), rfl⟩
      · cases h
        exact ⟨_, _, .fresh hfresh (.inl rfl), rfl⟩
    · rename_i hfresh
      cases h
      exact ⟨_, _, .stale (by simpa using hfresh), rfl⟩
  | tryLock =>
    simp only [stepTask] at h
    split at h
    · rename_i hholder
      cases h
      exact ⟨_, _, .busy hholder, rfl⟩
    · rename_i hholder
      cases h
      exact ⟨_, _, .idle (by simpa using hholder), rfl⟩
  | fetchEnter check =>
    cases h
    exact ⟨_, _, .start, rfl⟩
  | waitLock check started =>
    simp only [stepTask] at h
    split at h
    · cases h
    · rename_i hholder
      have hholder : (w.flights (c.key lib)).holder = none := by simpa using hholder
      split at h
      · rename_i hgeneration
        split at h
        · rename_i hlast
          cases h
          exact ⟨_, _, .waited hholder hgeneration hlast, rfl⟩
        · cases h
          exact ⟨_, _, .waitedInVain hholder hgeneration, rfl⟩
      · rename_i hgeneration
        cases h
        exact ⟨_, _, .locked hholder (not_not.mp hgeneration), rfl⟩
  | waiter check =>
    cases h
    exact ⟨_, _, .taken, rfl⟩
  | request check =>
    simp only [stepTask] at h
    split at h
    · cases h
      exact ⟨_, _, .failed, rfl⟩
    · split at h
      · cases h
        exact ⟨_, _, .failed, rfl⟩
      · rename_i hok
        split at h
        · cases h
          exact ⟨_, _, .failed, rfl⟩
        · rename_i htime
          cases h
          exact ⟨_, _, .received hok htime, rfl⟩
  | compare check now der crl =>
    simp only [stepTask] at h
    split at h
    · rename_i s hs
      obtain ⟨hmemo, hnewer⟩ := Option.filter_eq_some_iff.mp hs
      cases h
      exact ⟨_, _, .keepsNewer hmemo (of_decide_eq_true hnewer), rfl⟩
    · rename_i hs
      cases h
      refine ⟨_, _, .takesFetched fun s hmemo => ?_, rfl⟩
      simpa [Option.filter_eq_none_iff, hmemo] using hs
  | store check seen =>
    cases h
    exact ⟨_, _, .store, rfl⟩
  | rememberFetched check seen =>
    cases h
    exact ⟨_, _, .rememberFetched, rfl⟩
  | complete check result =>
    cases h
    exact ⟨_, _, .complete, rfl⟩
  | fetched now cached result =>
    simp only [stepTask] at h
    split at h
    · rename_i s hs
      obtain ⟨rfl, happlies⟩ := Option.filter_eq_some_iff.mp hs
      cases h
      exact ⟨_, _, .applies happlies, rfl⟩
    · cases h
      exact ⟨_, _, .fallsBack, rfl⟩
  | verdict now current source fetchFailed =>
    cases h
    exact ⟨_, _, .verdict, rfl⟩
  | done now crl status warning => cases h
  | ended => cases h

/-! ## Effects -/

section Effects

variable {i : Nat} {c : ScopeCall} {e : Effect}

theorem memo_apply {k : Str} {s : SeenCrl} (h : (e.apply lib rule i c w).memo k = some s) :
    w.memo k = some s ∨ k = c.key lib ∧ e = .remember s := by
  cases e with
  | remember seen =>
    simp only [Effect.apply, rememberSeen] at h
    split at h
    · rename_i hk
      cases h
      exact .inr ⟨hk, rfl⟩
    · exact .inl h
  | _ => exact .inl h

theorem cache_apply {k : Str} {entry : Bytes} {expires : SystemTime}
    (h : (e.apply lib rule i c w).cache k = some (entry, expires)) :
    (w.cache k = some (entry, expires) ∧ ∀ s, e = .store s → k ≠ c.key lib) ∨
    (k = c.key lib ∧ ∃ s, e = .store s ∧
      entry = sealEntry s.fetchedAt s.der ∧ expires = expiresAt rule s) := by
  cases e with
  | dropCached =>
    simp only [Effect.apply] at h
    split at h
    · cases h
    · exact .inl ⟨h, fun s hs => by cases hs⟩
  | store s =>
    simp only [Effect.apply] at h
    split at h
    · rename_i hk
      cases h
      exact .inr ⟨hk, s, rfl, rfl, rfl⟩
    · rename_i hk
      exact .inl ⟨h, fun _ _ => hk⟩
  | _ => exact .inl ⟨h, fun s hs => by cases hs⟩

theorem log_apply (lib : CrlLibrary) (rule : RevocationRule) (i : Nat) (c : ScopeCall)
    (w : CrlWorld) (e : Effect) :
    (e.apply lib rule i c w).log = w.log ∨ ∃ s, e = .store s ∧
      (e.apply lib rule i c w).log = ⟨c.key lib, s.fetchedAt, s.der, s.crl⟩ :: w.log := by
  cases e with
  | store s => exact .inr ⟨s, rfl, rfl⟩
  | _ => exact .inl rfl

theorem holder_apply (lib : CrlLibrary) (rule : RevocationRule) (i : Nat) (c : ScopeCall)
    (w : CrlWorld) (e : Effect) (k : Str) :
    ((e.apply lib rule i c w).flights k).holder = (w.flights k).holder ∨
      k = c.key lib ∧ (e = .lock ∨ e = .unlock ∨ ∃ ok, e = .complete ok) := by
  cases e with
  | lock => by_cases hk : k = c.key lib <;> simp [Effect.apply, setFlight, hk]
  | unlock => by_cases hk : k = c.key lib <;> simp [Effect.apply, setFlight, hk]
  | complete ok => by_cases hk : k = c.key lib <;> simp [Effect.apply, setFlight, hk]
  | _ => exact .inl rfl

theorem tasks_apply (lib : CrlLibrary) (rule : RevocationRule) (i : Nat) (c : ScopeCall)
    (w : CrlWorld) (e : Effect) : (e.apply lib rule i c w).tasks = w.tasks ∨
    (e.apply lib rule i c w).tasks = w.tasks ++ [⟨c, .tryLock⟩] := by
  cases e with
  | spawn => exact .inr rfl
  | _ => exact .inl rfl

/-- Only the completion of a fetch changes what those who wait for it read. -/
theorem flights_apply (lib : CrlLibrary) (rule : RevocationRule) (i : Nat) (c : ScopeCall)
    (w : CrlWorld) (e : Effect) (k : Str) :
    (((e.apply lib rule i c w).flights k).generation = (w.flights k).generation ∧
      ((e.apply lib rule i c w).flights k).last = (w.flights k).last) ∨
    (k = c.key lib ∧ ∃ ok, e = .complete ok ∧
      ((e.apply lib rule i c w).flights k).generation = (w.flights k).generation + 1 ∧
      ((e.apply lib rule i c w).flights k).last = some ok) := by
  cases e with
  | lock =>
    by_cases hk : k = c.key lib <;> simp [Effect.apply, setFlight, hk]
  | unlock =>
    by_cases hk : k = c.key lib <;> simp [Effect.apply, setFlight, hk]
  | complete ok =>
    by_cases hk : k = c.key lib
    · exact .inr ⟨hk, ok, rfl, by simp [Effect.apply, setFlight, hk],
        by simp [Effect.apply, setFlight, hk]⟩
    · exact .inl (by simp [Effect.apply, setFlight, hk])
  | _ => exact .inl ⟨rfl, rfl⟩

theorem log_apply_goto (lib : CrlLibrary) (rule : RevocationRule) (i : Nat) (t : CrlTask)
    (pc : CrlPc) (e : Effect) : (e.apply lib rule i c (w.goto i t pc)).log =
      (e.apply lib rule i c w).log := by
  cases e <;> rfl

theorem flights_apply_goto (lib : CrlLibrary) (rule : RevocationRule) (i : Nat) (t : CrlTask)
    (pc : CrlPc) (e : Effect) : (e.apply lib rule i c (w.goto i t pc)).flights =
      (e.apply lib rule i c w).flights := by
  cases e <;> rfl

@[simp] theorem clock_apply : (e.apply lib rule i c w).clock = w.clock := by
  cases e <;> rfl

end Effects

/-- The other tasks stay. -/
theorem getElem?_tasks_apply_of_ne {i j : Nat} {t u : CrlTask} {pc : CrlPc} {e : Effect}
    (hne : j ≠ i) (h : w.tasks[j]? = some u) :
    (e.apply lib rule i t.call (w.goto i t pc)).tasks[j]? = some u := by
  have hset : (w.tasks.set i { t with pc })[j]? = some u := by
    rw [List.getElem?_set_ne (Ne.symm hne)]
    exact h
  cases e with
  | spawn =>
    have hlt := (List.getElem?_eq_some_iff.mp hset).1
    simp only [Effect.apply, goto]
    rw [List.getElem?_append_left hlt]
    exact hset
  | _ => exact hset

/-- The task that has taken the step. -/
theorem getElem?_tasks_apply_self {i : Nat} {t : CrlTask} {pc : CrlPc} {e : Effect}
    (h : w.tasks[i]? = some t) :
    (e.apply lib rule i t.call (w.goto i t pc)).tasks[i]? = some { t with pc } := by
  have hset : (w.tasks.set i { t with pc })[i]? = some { t with pc } := by
    rw [List.getElem?_set_self (List.getElem?_eq_some_iff.mp h).1]
  cases e with
  | spawn =>
    have hlt := (List.getElem?_eq_some_iff.mp hset).1
    simp only [Effect.apply, goto]
    rw [List.getElem?_append_left hlt]
    exact hset
  | _ => exact hset

theorem getElem?_append_singleton {l : List CrlTask} {x u : CrlTask} {j : Nat}
    (h : (l ++ [x])[j]? = some u) : l[j]? = some u ∨ u = x := by
  by_cases hj : j < l.length
  · rw [List.getElem?_append_left hj] at h
    exact .inl h
  · rw [List.getElem?_append_right (not_lt.mp hj), List.getElem?_singleton] at h
    split at h
    · cases h
      exact .inr rfl
    · cases h

/-- A task of the world after a step of task `i`. -/
theorem getElem?_tasks_apply {i j : Nat} {t u : CrlTask} {pc : CrlPc} {e : Effect}
    (h : (e.apply lib rule i t.call (w.goto i t pc)).tasks[j]? = some u) :
    (j = i ∧ u = { t with pc }) ∨ (j ≠ i ∧ w.tasks[j]? = some u) ∨
      (e = .spawn ∧ u = ⟨t.call, .tryLock⟩) := by
  have hset {j : Nat} (h : (w.tasks.set i { t with pc })[j]? = some u) :
      (j = i ∧ u = { t with pc }) ∨ (j ≠ i ∧ w.tasks[j]? = some u) := by
    by_cases hij : i = j
    · subst hij
      rw [List.getElem?_set_self'] at h
      obtain ⟨_, -, rfl⟩ := Option.map_eq_some_iff.mp h
      exact .inl ⟨rfl, rfl⟩
    · rw [List.getElem?_set_ne hij] at h
      exact .inr ⟨Ne.symm hij, h⟩
  cases e with
  | spawn =>
    simp only [Effect.apply, goto] at h
    rcases getElem?_append_singleton h with h | rfl
    · exact (hset h).imp_right .inl
    · exact .inr (.inr ⟨rfl, rfl⟩)
  | _ => exact (hset h).imp_right .inl

end Asx.CrlWorld
