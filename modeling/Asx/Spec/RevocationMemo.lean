import Asx.Spec.RevocationSteps

/-!
# Where a remembered CRL was verified

The memo holds one CRL per key, and what it holds is not verified again. The key names the
issuing key and the URI but not the certificate that the CRL is verified with, so what was
verified with one certificate is returned for another one with the same key. Here every CRL
that a task holds is traced to where it was verified (`Transition.seen`), for all
interleavings of checks, fetches and refreshes.

## Main results
- `Transition.seen`: where the CRLs that a task holds come from
- `run_verified`: what every state of a run has verified
- `memo_sound_of_alike`: what is returned verifies, where the signers of a key verify alike
-/

namespace Asx

namespace CrlPc

/-- The CRLs that a check holds for its verdict. -/
def checkCrls (check : Option (SystemTime × Option (ParsedCrl × SystemTime))) : List ParsedCrl :=
  ((check.bind Prod.snd).map Prod.fst).toList

/-- The CRLs that a task holds with their encoding. -/
def seen : CrlPc → List (Bytes × ParsedCrl)
  | .remember _ _ der crl => [(der, crl)]
  | .judge _ cached => (cached.map fun s => (s.der, s.crl)).toList
  | .compare _ _ der crl => [(der, crl)]
  | .store _ s => [(s.der, s.crl)]
  | .rememberFetched _ s => [(s.der, s.crl)]
  | .complete _ result => (result.map fun s => (s.der, s.crl)).toList
  | .fetched _ _ result => (result.map fun s => (s.der, s.crl)).toList
  | _ => []

/-- The CRLs that a task holds without their encoding. -/
def crls : CrlPc → List ParsedCrl
  | .fetchEnter check => checkCrls check
  | .waitLock check _ => checkCrls check
  | .waiter check => checkCrls check
  | .request check => checkCrls check
  | .compare check _ _ _ => checkCrls check
  | .store check _ => checkCrls check
  | .rememberFetched check _ => checkCrls check
  | .complete check _ => checkCrls check
  | .fetched _ cached _ => (cached.map Prod.fst).toList
  | .verdict _ current _ _ => (current.map Prod.fst).toList
  | .done _ crl _ _ => crl.toList
  | _ => []

/-- What `cached_crl` or `fetch_crl` has just returned to a task. -/
def returned : CrlPc → Option SeenCrl
  | .judge _ cached => cached
  | .complete _ result => result
  | .fetched _ _ result => result
  | _ => none

end CrlPc

namespace CrlWorld

variable {lib : CrlLibrary} {rule : RevocationRule} {w w' : CrlWorld}

theorem afterFetch_crls (check : Option (SystemTime × Option (ParsedCrl × SystemTime)))
    (result : Option SeenCrl) : (afterFetch check result).crls = CrlPc.checkCrls check := by
  cases check <;> rfl

theorem mem_seen_afterFetch {check : Option (SystemTime × Option (ParsedCrl × SystemTime))}
    {result : Option SeenCrl} {p : Bytes × ParsedCrl} (h : p ∈ (afterFetch check result).seen) :
    p ∈ (result.map fun s => (s.der, s.crl)).toList := by
  cases check with
  | none => simp [afterFetch, CrlPc.seen] at h
  | some c => exact h

namespace Transition

variable {c : ScopeCall} {pc pc' : CrlPc} {e : Effect}

/-- What a task holds after a step it held before, read from the memo, or has just verified. -/
theorem seen (h : Transition lib rule w c pc e pc') : ∀ p ∈ pc'.seen, p ∈ pc.seen ∨
    (∃ s, w.memo (c.key lib) = some s ∧ p = (s.der, s.crl)) ∨
    parseAndVerify lib p.1 c.signer rule.nextUpdateRequired = .ok p.2 := by
  intro p hp
  cases h with
  | known hmemo =>
    simp only [CrlPc.seen, Option.map_some, Option.toList_some, List.mem_singleton] at hp
    exact .inr (.inl ⟨_, hmemo, hp⟩)
  | verifies _ hok =>
    simp only [CrlPc.seen, List.mem_singleton] at hp
    exact .inr (.inr (by rw [hp]; exact hok))
  | remember => exact .inl (by simpa [CrlPc.seen] using hp)
  | waitedInVain => simpa using mem_seen_afterFetch hp
  | taken =>
    have hp := mem_seen_afterFetch hp
    simp only [Option.mem_toList, Option.map_eq_some_iff] at hp
    obtain ⟨s, hs, rfl⟩ := hp
    exact .inr (.inl ⟨s, hs, rfl⟩)
  | received hok =>
    simp only [CrlPc.seen, List.mem_singleton] at hp
    exact .inr (.inr (by rw [hp]; exact hok))
  | keepsNewer hmemo =>
    simp only [CrlPc.seen, List.mem_singleton] at hp
    exact .inr (.inl ⟨_, hmemo, hp⟩)
  | takesFetched => exact .inl hp
  | store => exact .inl hp
  | rememberFetched => exact .inl (by simpa [CrlPc.seen] using hp)
  | complete => exact .inl (mem_seen_afterFetch hp)
  | _ => simp [CrlPc.seen] at hp

/-- The CRL of a verdict was held with its encoding. -/
theorem crls (h : Transition lib rule w c pc e pc') :
    ∀ crl ∈ pc'.crls, crl ∈ pc.crls ∨ ∃ p ∈ pc.seen, p.2 = crl := by
  intro crl hcrl
  have hcurrent {now : SystemTime} {cached : Option SeenCrl}
      (h : crl ∈ ((c.current now cached).1.map Prod.fst).toList) :
      ∃ p ∈ (CrlPc.judge now cached).seen, p.2 = crl := by
    cases cached with
    | none => simp [ScopeCall.current] at h
    | some s =>
      simp only [ScopeCall.current] at h
      split at h
      · simp only [Option.map_some, Option.toList_some, List.mem_singleton] at h
        exact ⟨(s.der, s.crl), by simp [CrlPc.seen], h.symm⟩
      · simp at h
  cases h with
  | fresh => exact .inr (hcurrent hcrl)
  | stale => exact .inr (hcurrent hcrl)
  | waitedInVain =>
    rw [afterFetch_crls] at hcrl
    exact .inl hcrl
  | taken =>
    rw [afterFetch_crls] at hcrl
    exact .inl hcrl
  | complete =>
    rw [afterFetch_crls] at hcrl
    exact .inl hcrl
  | @applies _ _ s _ =>
    simp only [CrlPc.crls, Option.map_some, Option.toList_some, List.mem_singleton] at hcrl
    exact .inr ⟨(s.der, s.crl), by simp [CrlPc.seen], hcrl.symm⟩
  | _ => exact .inl hcrl

/-- A task remembers what it holds. -/
theorem remembers {s : SeenCrl} (h : Transition lib rule w c pc (.remember s) pc') :
    (s.der, s.crl) ∈ pc.seen := by
  cases h with
  | remember => simp [CrlPc.seen]
  | rememberFetched => simp [CrlPc.seen]
  | fresh _ he => simp at he

end Transition

/-! ## Runs -/

/-- A call with this key has verified the CRL with its signer. -/
def VerifiedFor (lib : CrlLibrary) (rule : RevocationRule) (calls : List ScopeCall) (key : Str)
    (der : Bytes) (crl : ParsedCrl) : Prop :=
  ∃ c ∈ calls, c.key lib = key ∧
    parseAndVerify lib der c.signer rule.nextUpdateRequired = .ok crl

/-- What holds in every state of a run that makes these calls. -/
structure Verified (lib : CrlLibrary) (rule : RevocationRule) (calls : List ScopeCall)
    (w : CrlWorld) : Prop where
  called : ∀ t ∈ w.tasks, t.call ∈ calls
  memo : ∀ key s, w.memo key = some s → VerifiedFor lib rule calls key s.der s.crl
  seen : ∀ t ∈ w.tasks, ∀ p ∈ t.pc.seen,
    VerifiedFor lib rule calls (t.call.key lib) p.1 p.2
  crls : ∀ t ∈ w.tasks, ∀ crl ∈ t.pc.crls,
    ∃ der, VerifiedFor lib rule calls (t.call.key lib) der crl

/-- A new world holds no CRL. -/
theorem verified_new (lib : CrlLibrary) (rule : RevocationRule) (calls : List ScopeCall)
    (clock : SystemTime) : Verified lib rule calls (CrlWorld.new clock) := by
  constructor <;> simp [CrlWorld.new]

/-- A task that has taken no step holds nothing. -/
theorem Verified.append {calls : List ScopeCall} (hv : Verified lib rule calls w) {t : CrlTask}
    (hcall : t.call ∈ calls) (hseen : t.pc.seen = []) (hcrls : t.pc.crls = []) :
    Verified lib rule calls { w with tasks := w.tasks ++ [t] } where
  memo := hv.memo
  called := by
    intro u hu
    rcases List.mem_append.mp hu with hu | hu
    · exact hv.called u hu
    · rw [List.mem_singleton.mp hu]
      exact hcall
  seen := by
    intro u hu p hp
    rcases List.mem_append.mp hu with hu | hu
    · exact hv.seen u hu p hp
    · rw [List.mem_singleton.mp hu, hseen] at hp
      simp at hp
  crls := by
    intro u hu crl hcrl
    rcases List.mem_append.mp hu with hu | hu
    · exact hv.crls u hu crl hcrl
    · rw [List.mem_singleton.mp hu, hcrls] at hcrl
      simp at hcrl

/-- The step of a task keeps what it holds verified. -/
theorem Verified.set {calls : List ScopeCall} (hv : Verified lib rule calls w) {i : Nat}
    {t : CrlTask} (ht : t ∈ w.tasks) {e : Effect} {pc : CrlPc}
    (hstep : Transition lib rule w t.call t.pc e pc) :
    Verified lib rule calls { e.apply lib rule i t.call (w.goto i t pc) with
      tasks := w.tasks.set i { t with pc } } where
  called := by
    intro u hu
    rcases List.mem_or_eq_of_mem_set hu with hu | rfl
    · exact hv.called u hu
    · exact hv.called t ht
  memo := by
    intro key s hs
    rcases memo_apply hs with hs | ⟨rfl, rfl⟩
    · exact hv.memo key s hs
    · exact hv.seen t ht _ hstep.remembers
  seen := by
    intro u hu p hpu
    rcases List.mem_or_eq_of_mem_set hu with hu | rfl
    · exact hv.seen u hu p hpu
    · rcases hstep.seen p hpu with h | ⟨s, hs, rfl⟩ | h
      · exact hv.seen t ht p h
      · exact hv.memo _ s hs
      · exact ⟨t.call, hv.called t ht, rfl, h⟩
  crls := by
    intro u hu crl hcrl
    rcases List.mem_or_eq_of_mem_set hu with hu | rfl
    · exact hv.crls u hu crl hcrl
    · rcases hstep.crls crl hcrl with h | ⟨p, hseen, rfl⟩
      · exact hv.crls t ht crl h
      · exact ⟨p.1, hv.seen t ht p hseen⟩

/-- What changes neither tasks nor adds to the memo keeps the world verified. -/
theorem Verified.of_eq {calls : List ScopeCall} (hv : Verified lib rule calls w)
    (htasks : w'.tasks = w.tasks) (hmemo : ∀ key s, w'.memo key = some s → w.memo key = some s) :
    Verified lib rule calls w' where
  called := htasks ▸ hv.called
  memo := fun key s hs => hv.memo key s (hmemo key s hs)
  seen := htasks ▸ hv.seen
  crls := htasks ▸ hv.crls

/-- Every step of the world keeps it verified. -/
theorem Verified.step {calls : List ScopeCall} (hv : Verified lib rule calls w) {a : CrlAction}
    (ha : ∀ c, a = .call c → c ∈ calls) (h : w.step lib rule a = some w') :
    Verified lib rule calls w' := by
  cases a with
  | tick nanos =>
    cases h
    exact hv.of_eq rfl fun _ _ hs => hs
  | call c =>
    cases h
    exact hv.append (ha c rfl) rfl rfl
  | forgetCached key =>
    cases h
    exact hv.of_eq rfl fun _ _ hs => hs
  | forgetSeen key =>
    cases h
    refine hv.of_eq rfl fun k s hs => ?_
    dsimp only at hs
    split at hs
    · cases hs
    · exact hs
  | step i response =>
    simp only [CrlWorld.step] at h
    split at h
    · cases h
    · rename_i t ht
      obtain ⟨e, pc, hstep, rfl⟩ := stepTask_transition h
      have hmem : t ∈ w.tasks := List.mem_of_getElem? ht
      have hset := hv.set (i := i) hmem hstep
      rcases tasks_apply lib rule i t.call (w.goto i t pc) e with htasks | htasks
      · exact hset.of_eq htasks fun _ _ hs => hs
      · have happ := hset.append (t := ⟨t.call, .tryLock⟩) (hv.called t hmem) rfl rfl
        exact happ.of_eq htasks fun _ _ hs => hs

/-- The calls of a run. -/
def calls (actions : List CrlAction) : List ScopeCall :=
  actions.filterMap fun
    | .call c => some c
    | _ => none

theorem mem_calls {actions : List CrlAction} {c : ScopeCall} (h : .call c ∈ actions) :
    c ∈ calls actions :=
  List.mem_filterMap.mpr ⟨_, h, rfl⟩

/-- Every CRL that is held anywhere was verified with the signer of a call for the same key. -/
theorem run_verified {actions : List CrlAction} {clock : SystemTime}
    (h : (CrlWorld.new clock).run lib rule actions = some w) :
    Verified lib rule (calls actions) w :=
  Option.foldlM_invariant h (verified_new lib rule _ clock)
    fun _ _ _ ha hstep hv => hv.step (fun _ hc => mem_calls (hc ▸ ha)) hstep

/-! ## Signers -/

/-- What `parse_and_verify` reads from the certificate of a signer. -/
def signerFacts (lib : CrlLibrary) (signer : Bytes) :
    Option Bytes × Option (Bytes × Option Bool × Option Bytes) :=
  (lib.publicKey signer,
    (lib.parseCertificate signer).map fun p => (p.subject, p.crlSign, p.subjectKeyIdentifier))

/-- The signers of the calls for one key are alike: same public key, name, `cRLSign` and key
    identifier. The key promises this of none of them but the public key. -/
def SignersAlike (lib : CrlLibrary) (actions : List CrlAction) : Prop :=
  ∀ c ∈ calls actions, ∀ d ∈ calls actions, c.key lib = d.key lib →
    signerFacts lib c.signer = signerFacts lib d.signer

/-- A CRL is verified alike for certificates with the same facts. -/
theorem parseAndVerify_congr {a b : Bytes} (h : signerFacts lib a = signerFacts lib b)
    (der : Bytes) (required : Bool) :
    parseAndVerify lib der a required = parseAndVerify lib der b required := by
  simp only [signerFacts, Prod.mk.injEq] at h
  obtain ⟨hkey, hparsed⟩ := h
  cases ha : lib.parseCertificate a with
  | none =>
    have hb : lib.parseCertificate b = none := by simpa [ha] using hparsed.symm
    simp only [parseAndVerify, hkey, ha, hb]
  | some p =>
    cases hb : lib.parseCertificate b with
    | none => simp [ha, hb] at hparsed
    | some q =>
      simp only [ha, hb, Option.map_some, Option.some.injEq, Prod.mk.injEq] at hparsed
      obtain ⟨hsubject, hsign, hski⟩ := hparsed
      have hbind {β : Type} (r : ParsedCertificate) (f : ParsedCertificate → Except Str β) :
          (Except.okOr (some r) "unparseable CRL signer: ".toList >>= f) = f r := rfl
      simp only [parseAndVerify, hkey, ha, hb, hbind, hsubject, hsign, hski]

/-- What was verified for a key is so for every check of the run with that key. -/
theorem VerifiedFor.parseAndVerify {actions : List CrlAction} (halike : SignersAlike lib actions)
    {c : ScopeCall} (hc : c ∈ calls actions) {der : Bytes} {crl : ParsedCrl}
    (h : VerifiedFor lib rule (calls actions) (c.key lib) der crl) :
    parseAndVerify lib der c.signer rule.nextUpdateRequired = .ok crl := by
  obtain ⟨d, hd, hkey, hok⟩ := h
  rw [← parseAndVerify_congr (halike d hd c hc hkey)]
  exact hok

/-- What `cached_crl` and `fetch_crl` return verifies with the signer they were called with. -/
def MemoSound (lib : CrlLibrary) (rule : RevocationRule) (w : CrlWorld) : Prop :=
  ∀ t ∈ w.tasks, ∀ seen, t.pc.returned = some seen →
    parseAndVerify lib seen.der t.call.signer rule.nextUpdateRequired = .ok seen.crl

theorem mem_seen_of_returned {pc : CrlPc} {s : SeenCrl} (h : pc.returned = some s) :
    (s.der, s.crl) ∈ pc.seen := by
  cases pc <;> simp_all [CrlPc.returned, CrlPc.seen]

/-- In a run whose checks name signers with the same facts for the same key, a CRL that a check
    returns verifies for the signer of that check, from whatever check it was remembered. -/
theorem memo_sound_of_alike (lib : CrlLibrary) (rule : RevocationRule) (clock : SystemTime)
    (actions : List CrlAction) (w : CrlWorld)
    (h : (CrlWorld.new clock).run lib rule actions = some w)
    (halike : SignersAlike lib actions) : MemoSound lib rule w := by
  intro t ht seen hseen
  have hv := run_verified h
  have hfor := hv.seen t ht _ (mem_seen_of_returned hseen)
  exact hfor.parseAndVerify halike (hv.called t ht)

end CrlWorld

/-! ## Two authorities with one key -/

/-- Two certificates for one key under different names, and a CRL of the first name. -/
def twinLibrary : CrlLibrary where
  parseCertificate cert :=
    if cert = [1] ∨ cert = [2] then some ⟨cert, [3], [1], true, some true, none, none⟩ else none
  publicKey cert := if cert = [1] ∨ cert = [2] then some [9] else none
  isCrl der := der == [7]
  verifyCrl der key := der == [7] && key == [9]
  crlFromPem _ := none
  parseCrl der := if der = [7] then some ([], ⟨[1], [], 0, some 1000, []⟩) else none
  generalName _ := none
  sha256 data := data

/-- A check of a certificate that the authority has issued. -/
def twinCall (authority : Bytes) : ScopeCall :=
  ⟨authority, ⟨[5], authority, false⟩, ⟨[.lit "http://c"], [.lit "http://c"], none⟩, authority,
    .lit "http://c"⟩

/-- Two checks against the first authority: the CRL is fetched for one, and the other finds it
    remembered. -/
def rememberedRun : List CrlAction :=
  CrlAction.call (twinCall [1]) :: List.replicate 9 (.step 0 (some [7])) ++
    CrlAction.call (twinCall [1]) :: List.replicate 3 (.step 1 none)

/-- Two checks against one authority, the second from the memo. -/
theorem memo_sound_of_alike_one_authority : ∃ w,
    (CrlWorld.new 0).run twinLibrary .bdew rememberedRun = some w ∧
    w.tasks.map (·.pc.returned.isSome) = [true, true] ∧
    CrlWorld.MemoSound twinLibrary .bdew w := by
  have hrun : (((CrlWorld.new 0).run twinLibrary .bdew rememberedRun).map fun w =>
      w.tasks.map (·.pc.returned.isSome)) = some [true, true] := by decide +kernel
  obtain ⟨w, hw, hreturned⟩ := Option.map_eq_some_iff.mp hrun
  refine ⟨w, hw, hreturned, CrlWorld.memo_sound_of_alike _ _ _ _ _ hw ?_⟩
  have hcalls : ∀ c ∈ CrlWorld.calls rememberedRun, c = twinCall [1] := by
    intro c hc
    have hlist : CrlWorld.calls rememberedRun = [twinCall [1], twinCall [1]] := rfl
    rw [hlist] at hc
    simpa using hc
  intro c hc d hd _
  rw [hcalls c hc, hcalls d hd]

/-- The first authority's CRL is fetched and remembered, and then returned for the second. -/
theorem memo_returns_crl_of_other_authority : ∃ w,
    (CrlWorld.new 0).run twinLibrary .bdew
      (CrlAction.call (twinCall [1]) :: List.replicate 9 (.step 0 (some [7])) ++
        CrlAction.call (twinCall [2]) :: List.replicate 3 (.step 1 none)) = some w ∧
    ¬ CrlWorld.MemoSound twinLibrary .bdew w := by
  have hrun : (((CrlWorld.new 0).run twinLibrary .bdew
      (CrlAction.call (twinCall [1]) :: List.replicate 9 (.step 0 (some [7])) ++
        CrlAction.call (twinCall [2]) :: List.replicate 3 (.step 1 none))).map fun w =>
        decide (⟨twinCall [2], .judge 0 (some ⟨[7], ⟨0, some (1000 * nanosPerSec), none, []⟩, 0⟩)⟩
          ∈ w.tasks)) = some true := by decide +kernel
  obtain ⟨w, hw, htask⟩ := Option.map_eq_some_iff.mp hrun
  refine ⟨w, hw, fun hsound => ?_⟩
  have hok := hsound _ (of_decide_eq_true htask) _ rfl
  have hfails : (parseAndVerify twinLibrary [7] [2] true).toOption = none := by decide +kernel
  rw [show parseAndVerify twinLibrary [7] [2] true = _ from hok] at hfails
  cases hfails

end Asx
