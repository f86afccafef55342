import Asx.Native.Inbound
import Asx.Spec.DedupHistory

/-!
# The claim protocol of the receive endpoints

Any number of AS4 and AS2 requests run side by side against one dedup store. What a request
may do next is said over the calls it has made before; the handlers of both endpoints keep
to it, so every interleaving of requests does.

## Main results
- `as4Handle_meets`, `as2Handle_meets`: the handlers keep the discipline of a claim
- `claim_protocol`: what holds of every run
-/

namespace Asx

open Interact

/-! ## What a call says -/

section Events

/-- The key and the token of a claim that was granted. -/
def claimed? : InboundEvent → Option (Str × ClaimToken)
  | ⟨.claim key, .ok (.claimed token)⟩ => some (key, token)
  | _ => none

/-- The key of a claim that was answered `Duplicate`. -/
def duplicate? : InboundEvent → Option Str
  | ⟨.claim key, .ok .duplicate⟩ => some key
  | _ => none

/-- The key and the token of a settling call. -/
def settles? : InboundCall → Option (Str × ClaimToken)
  | .accept key token => some (key, token)
  | .abandon key token => some (key, token)
  | _ => none

/-- The key and the token of a successful `accept`. -/
def accepted? : InboundEvent → Option (Str × ClaimToken)
  | ⟨.accept key token, .ok ()⟩ => some (key, token)
  | _ => none

/-- The AS4 message that was verified. -/
def verified? : InboundEvent → Option VerifiedInbound
  | ⟨.verify, .ok verified⟩ => some verified
  | _ => none

/-- The application returned `Ok`. -/
def handledOk : InboundEvent → Bool
  | ⟨.handle _ _, .ok ()⟩ => true
  | _ => false

/-- A receipt or an MDN was built. -/
def signedOk : InboundEvent → Bool
  | ⟨.sign _, .ok _⟩ => true
  | _ => false

/-- The audit record with the receipt or MDN was built. -/
def evidenceOk : InboundEvent → Bool
  | ⟨.finish builder, .ok _⟩ => builder.signal.isSome
  | _ => false

/-- The audit sink wrote the record. -/
def recordedOk : InboundEvent → Bool
  | ⟨.record _, .ok ()⟩ => true
  | _ => false

end Events

/-- The audit sink of the endpoint. -/
def InboundRequest.audit : InboundRequest → Option AuditDurability
  | as4 cfg => cfg.audit
  | as2 cfg _ => cfg.audit

/-- The audit step passed: the record with the signal was built and written, unless there is
    no sink or a best-effort one. -/
def AuditPassed (r : InboundRequest) (h : List InboundEvent) : Prop :=
  (∃ e ∈ h, evidenceOk e = true) ∧
    (r.audit = none ∨ r.audit = some .bestEffort ∨ ∃ e ∈ h, recordedOk e = true)

/-- The application accepted, the signal was built and the audit step passed. -/
def Completed (r : InboundRequest) (h : List InboundEvent) : Prop :=
  (∃ e ∈ h, handledOk e = true) ∧ (∃ e ∈ h, signedOk e = true) ∧ AuditPassed r h

/-- The request holds the key under the token: its claim was granted. -/
def Holds (h : List InboundEvent) (key : Str) (token : ClaimToken) : Prop :=
  ∃ e ∈ h, claimed? e = some (key, token)

/-- No claim of the request was granted. -/
def NoClaim (h : List InboundEvent) : Prop := ∀ e ∈ h, claimed? e = none

/-- The request has settled nothing yet. -/
def Unsettled (h : List InboundEvent) : Prop := ∀ e ∈ h, settles? e.call = none

/-- The message is the one that the request carries, as it was verified or as its headers name it,
    and this is its key. -/
def KeyFor : InboundRequest → List InboundEvent → InboundMessage → Str → Prop
  | .as4 cfg, h, message, key => ∃ verified, (∃ e ∈ h, verified? e = some verified) ∧
      message = .as4 (as4UserMessage cfg verified) ∧ key = as4Key cfg.sha256 verified
  | .as2 cfg req, _, message, key => ∃ received, message = .as2 received ∧
      req.messageId = some received.messageId ∧ req.sender = some received.sender ∧
      key = as2Key cfg.sha256 received.sender received.messageId

/-- A key stays that of the message in the longer history. -/
theorem KeyFor.append {r : InboundRequest} {h : List InboundEvent} {message : InboundMessage}
    {key : Str} (hkey : KeyFor r h message key) (h' : List InboundEvent) :
    KeyFor r (h ++ h') message key := by
  cases r with
  | as4 cfg =>
    obtain ⟨verified, ⟨e, he, hv⟩, hmessage, hkey⟩ := hkey
    exact ⟨verified, ⟨e, List.mem_append_left _ he, hv⟩, hmessage, hkey⟩
  | as2 cfg req => exact hkey

/-- A receipt, or an MDN with the disposition `processed`, also of a duplicate. -/
def InboundResponse.Positive : InboundResponse → Prop
  | .receipt _ => True
  | .mdn _ disposition _ => disposition = processed ∨ disposition = duplicateDisposition
  | _ => False

/-- What entitles a request to a positive response: the store has accepted the claim of its
    message, or has found its message a duplicate, or the message is for the test service. -/
def Entitled (r : InboundRequest) (h : List InboundEvent) : Prop :=
  (∃ message key token, KeyFor r h message key ∧ Holds h key token ∧
    ∃ e ∈ h, accepted? e = some (key, token)) ∨
  (∃ message key, KeyFor r h message key ∧ ∃ e ∈ h, duplicate? e = some key) ∨
  (∃ cfg, r = .as4 cfg ∧ ∃ verified, (∃ e ∈ h, verified? e = some verified) ∧
    isTestService verified.parsed = true)

/-! ## The discipline -/

/-- What a request may call, over its earlier calls. -/
def mayCall (r : InboundRequest) (h : List InboundEvent) : InboundCall → Prop
  | .handle message _ => ∃ key token, KeyFor r h message key ∧ Holds h key token
  | .accept key token => Holds h key token ∧ Unsettled h ∧ Completed r h
  | .abandon key token => Holds h key token ∧ Unsettled h ∧ ¬ Completed r h
  | _ => True

/-- What a request may answer, over its calls. -/
def mayAnswer (r : InboundRequest) (h : List InboundEvent) (answer : InboundAnswer) : Prop :=
  (∀ key token, Holds h key token → ∃ e ∈ h, settles? e.call = some (key, token)) ∧
    (answer.response.Positive → Entitled r h)

/-- The handler keeps the discipline after the calls `h`. -/
abbrev Obeys (r : InboundRequest) (h : List InboundEvent) (p : InboundProg) : Prop :=
  Meets (mayCall r) (mayAnswer r) h p

/-- A request that holds one claim, not settled yet. -/
structure Delivering (h : List InboundEvent) (key : Str) (token : ClaimToken) : Prop where
  holds : Holds h key token
  only : ∀ key' token', Holds h key' token' → key' = key ∧ token' = token
  unsettled : Unsettled h

section Delivering

variable {r : InboundRequest} {h : List InboundEvent} {key : Str} {token : ClaimToken}

/-- A token is held from the claim that grants it on. -/
theorem holds_append_iff {e : InboundEvent} :
    Holds (h ++ [e]) key token ↔ Holds h key token ∨ claimed? e = some (key, token) := by
  simp [Holds, or_and_right, exists_or]

theorem NoClaim.snoc (hc : NoClaim h) {e : InboundEvent} (he : claimed? e = none) :
    NoClaim (h ++ [e]) := by
  intro e' he'
  rcases List.mem_append.mp he' with he' | he'
  · exact hc e' he'
  · obtain rfl := List.mem_singleton.mp he'
    exact he

/-- Without a claim there is nothing to settle. -/
theorem NoClaim.not_holds (hc : NoClaim h) : ¬ Holds h key token := by
  rintro ⟨e, he, hsome⟩
  rw [hc e he] at hsome
  simp at hsome

/-- A granted claim begins the delivery of its key. -/
theorem Delivering.start (hc : NoClaim h) (hu : Unsettled h) :
    Delivering (h ++ [⟨.claim key, .ok (.claimed token)⟩]) key token := by
  refine ⟨holds_append_iff.mpr (.inr rfl), fun key' token' hh => ?_, fun e he => ?_⟩
  · rcases holds_append_iff.mp hh with hh | hh
    · exact absurd hh hc.not_holds
    · obtain ⟨rfl, rfl⟩ : key = key' ∧ token = token' := by simpa [claimed?] using hh
      exact ⟨rfl, rfl⟩
  · rcases List.mem_append.mp he with he | he
    · exact hu e he
    · obtain rfl := List.mem_singleton.mp he
      rfl

/-- A call that neither claims nor settles leaves the claim held. -/
theorem Delivering.snoc (hd : Delivering h key token) {e : InboundEvent}
    (hc : claimed? e = none) (hs : settles? e.call = none) : Delivering (h ++ [e]) key token := by
  refine ⟨holds_append_iff.mpr (.inl hd.holds), fun key' token' hh => ?_, fun e' he' => ?_⟩
  · rcases holds_append_iff.mp hh with hh | hh
    · exact hd.only key' token' hh
    · simp [hc] at hh
  · rcases List.mem_append.mp he' with he' | he'
    · exact hd.unsettled e' he'
    · obtain rfl := List.mem_singleton.mp he'
      exact hs

/-- Once the claim is settled, what remains to be shown of an answer is its entitlement. -/
theorem Delivering.mayAnswer (hd : Delivering h key token) {e : InboundEvent}
    (he : settles? e.call = some (key, token)) {h' : List InboundEvent}
    (hc : NoClaim h') {answer : InboundAnswer}
    (hpos : answer.response.Positive → Entitled r (h ++ e :: h')) :
    mayAnswer r (h ++ e :: h') answer := by
  refine ⟨fun key' token' hh => ⟨e, by simp, ?_⟩, hpos⟩
  obtain ⟨e', he', hclaimed⟩ := hh
  rcases List.mem_append.mp he' with he' | he'
  · obtain ⟨rfl, rfl⟩ := hd.only key' token' ⟨e', he', hclaimed⟩
    exact he
  · rcases List.mem_cons.mp he' with rfl | he'
    · -- a settling call is not a claim
      obtain ⟨c, a⟩ := e'
      cases c with
      | claim k => simp [settles?] at he
      | _ => simp [claimed?] at hclaimed
    · simp [hc e' he'] at hclaimed

/-- Releasing the claim, where the work is not complete. -/
theorem Delivering.abandonThen (hd : Delivering h key token) (hc : ¬ Completed r h)
    {rest : InboundProg} (hrest : ∀ a, Obeys r (h ++ [⟨.abandon key token, a⟩]) rest) :
    Obeys r h (abandonThen key token rest) :=
  ⟨⟨hd.holds, hd.unsettled, hc⟩, hrest⟩

/-- Releasing the claim and answering with a refusal. -/
theorem Delivering.abandonThen_ret (hd : Delivering h key token) (hc : ¬ Completed r h)
    {answer : InboundAnswer} (hpos : ¬ answer.response.Positive) :
    Obeys r h (Asx.abandonThen key token (.ret answer)) :=
  hd.abandonThen hc fun _ => hd.mayAnswer rfl (by simp [NoClaim]) fun h => absurd h hpos

end Delivering

/-! ## The handlers -/

/-- No signal was built and nothing was recorded. -/
def NoSignal (h : List InboundEvent) : Prop :=
  ∀ e ∈ h, signedOk e = false ∧ evidenceOk e = false ∧ recordedOk e = false

section Acknowledge

variable {r : InboundRequest} {h : List InboundEvent} {key : Str} {token : ClaimToken}

/-- A call that signs, builds and records nothing leaves no answer prepared. -/
theorem NoSignal.snoc (hn : NoSignal h) {e : InboundEvent} (hs : signedOk e = false)
    (he : evidenceOk e = false) (hr : recordedOk e = false) : NoSignal (h ++ [e]) := by
  intro e' he'
  rcases List.mem_append.mp he' with he' | he'
  · exact hn e' he'
  · obtain rfl := List.mem_singleton.mp he'
    exact ⟨hs, he, hr⟩

/-- Without a signal the work is not complete. -/
theorem NoSignal.not_completed (hn : NoSignal h) : ¬ Completed r h := by
  rintro ⟨_, ⟨e, he, hs⟩, _⟩
  simp [(hn e he).1] at hs

/-- Accepting the claim, where the work is complete: the answer is positive only if the store
    accepted. -/
theorem Delivering.accept (hd : Delivering h key token) (hc : Completed r h)
    {message : InboundMessage} (hkey : KeyFor r h message key) {failure : Str → InboundAnswer} {success : InboundAnswer}
    (hfail : ∀ d, ¬ (failure d).response.Positive) :
    Obeys r h (.call (.accept key token) fun
      | .error err => .ret (failure ("dedup accept failed: " ++ err))
      | .ok () => .ret success) := by
  refine ⟨⟨hd.holds, hd.unsettled, hc⟩, fun answer => ?_⟩
  cases answer with
  | error err => exact hd.mayAnswer rfl (by simp [NoClaim]) fun hpos => absurd hpos (hfail _)
  | ok u =>
    refine hd.mayAnswer rfl (by simp [NoClaim]) fun _ =>
      .inl ⟨message, key, token, hkey.append _, ?_, ⟨.accept key token, .ok ()⟩, ?_, ?_⟩
    · exact holds_append_iff.mpr (.inl hd.holds)
    · simp
    · rfl

/-- Preparing the answer and accepting the claim keeps the protocol: the claim is accepted only
    after the answer is signed and recorded, and abandoned otherwise. -/
theorem acknowledge_obeys {draft : SignalDraft} {builder : Bytes → RecordBuilder}
    {sha256 : Bytes → Bytes} {stage : Str} {failure : Str → InboundAnswer}
    {success : Bytes → InboundAnswer} (hd : Delivering h key token)
    {message : InboundMessage} (hkey : KeyFor r h message key)
    (hhandled : ∃ e ∈ h, handledOk e = true) (hn : NoSignal h)
    (hbuilder : ∀ b, (builder b).signal.isSome = true)
    (hfail : ∀ d, ¬ (failure d).response.Positive) :
    Obeys r h (acknowledge draft builder r.audit sha256 stage failure success key token) := by
  obtain ⟨eh, heh, hok⟩ := hhandled
  refine ⟨trivial, fun answer => ?_⟩
  cases answer with
  | error err =>
    have hn' := hn.snoc (e := ⟨.sign draft, .error err⟩) rfl rfl rfl
    exact (hd.snoc rfl rfl).abandonThen_ret hn'.not_completed (hfail err)
  | ok signal =>
    have hd₁ := hd.snoc (e := ⟨.sign draft, .ok signal⟩) rfl rfl
    refine ⟨trivial, fun finished => ?_⟩
    cases finished with
    | error err =>
      refine (hd₁.snoc rfl rfl).abandonThen_ret ?_ (hfail _)
      -- no record with the signal was built
      rintro ⟨_, _, ⟨e, he, hev⟩, _⟩
      simp only [List.mem_append, List.mem_singleton] at he
      rcases he with (he | rfl) | rfl
      · simp [(hn e he).2.1] at hev
      · simp [evidenceOk] at hev
      · simp [evidenceOk] at hev
    | ok record =>
      have hd₂ := hd₁.snoc (e := ⟨.finish (builder signal), .ok record⟩) rfl rfl
      have hcompleted : ∀ h', (r.audit = none ∨ r.audit = some .bestEffort ∨
          ∃ e ∈ h', recordedOk e = true) →
          Completed r (h ++ [⟨.sign draft, .ok signal⟩] ++ [⟨.finish (builder signal), .ok record⟩] ++
            h') := by
        intro h' haudit
        refine ⟨⟨eh, by simp [heh], hok⟩, ⟨⟨.sign draft, .ok signal⟩, by simp, rfl⟩,
          ⟨⟨.finish (builder signal), .ok record⟩, by simp, hbuilder signal⟩, ?_⟩
        rcases haudit with hnone | hbest | ⟨e, he, hrec⟩
        · exact .inl hnone
        · exact .inr (.inl hbest)
        · exact .inr (.inr ⟨e, by simp [he], hrec⟩)
      cases haudit : r.audit with
      | none =>
        have hc := hcompleted [] (.inl haudit)
        rw [List.append_nil] at hc
        exact hd₂.accept hc ((hkey.append _).append _) hfail
      | some durability =>
        refine ⟨trivial, fun recorded => ?_⟩
        have hd₃ := hd₂.snoc (e := ⟨.record record, recorded⟩) rfl rfl
        have hkey₃ := ((hkey.append [⟨.sign draft, .ok signal⟩]).append
          [⟨.finish (builder signal), .ok record⟩]).append [⟨.record record, recorded⟩]
        cases recorded with
        | ok u =>
          exact hd₃.accept (hcompleted _ (.inr (.inr ⟨_, List.mem_singleton_self _, rfl⟩))) hkey₃ hfail
        | error err =>
          cases durability with
          | bestEffort => exact hd₃.accept (hcompleted _ (.inr (.inl haudit))) hkey₃ hfail
          | durable =>
            refine hd₃.abandonThen_ret ?_ (hfail _)
            -- the sink is durable and did not write the record
            rintro ⟨_, _, _, hpassed⟩
            rcases hpassed with hnone | hbest | ⟨e, he, hrec⟩
            · simp [haudit] at hnone
            · simp [haudit] at hbest
            · simp only [List.mem_append, List.mem_singleton] at he
              rcases he with ((he | rfl) | rfl) | rfl
              · simp [(hn e he).2.2] at hrec
              all_goals simp [recordedOk] at hrec

end Acknowledge

/-- What entitles a request to a positive answer does so after any further call. -/
theorem Entitled.snoc {r : InboundRequest} {h : List InboundEvent} (he : Entitled r h)
    (e : InboundEvent) : Entitled r (h ++ [e]) := by
  rcases he with ⟨message, key, token, hkey, hh, x, hx, hacc⟩ | ⟨message, key, hkey, x, hx, hdup⟩ |
    ⟨cfg, hr, v, ⟨x, hx, hv⟩, ht⟩
  · exact .inl ⟨message, key, token, hkey.append _, holds_append_iff.mpr (.inl hh), x, by simp [hx],
      hacc⟩
  · exact .inr (.inl ⟨message, key, hkey.append _, x, by simp [hx], hdup⟩)
  · exact .inr (.inr ⟨cfg, hr, v, ⟨x, by simp [hx], hv⟩, ht⟩)

/-- A signal as the last step, when nothing is left to settle. -/
theorem signThen_obeys {r : InboundRequest} {h : List InboundEvent} {draft : SignalDraft}
    {success : Bytes → InboundAnswer} {failure : Str → InboundAnswer}
    (hs : ∀ key token, Holds h key token → ∃ e ∈ h, settles? e.call = some (key, token))
    (hok : ∀ b, (success b).response.Positive → Entitled r h)
    (hfail : ∀ d, ¬ (failure d).response.Positive) :
    Obeys r h (signThen draft success failure) := by
  refine ⟨trivial, fun a => ?_⟩
  have hsettled : ∀ key token, Holds (h ++ [⟨.sign draft, a⟩]) key token →
      ∃ e ∈ h ++ [⟨.sign draft, a⟩], settles? e.call = some (key, token) := by
    intro key token hh
    rcases holds_append_iff.mp hh with hh | hh
    · obtain ⟨e, he, hset⟩ := hs key token hh
      exact ⟨e, by simp [he], hset⟩
    · simp [claimed?] at hh
  cases a with
  | ok b => exact ⟨hsettled, fun hpos => (hok b hpos).snoc _⟩
  | error err => exact ⟨hsettled, fun hpos => absurd hpos (hfail err)⟩

/-- An answer before any claim. -/
theorem ret_obeys {r : InboundRequest} {h : List InboundEvent} {answer : InboundAnswer}
    (hc : NoClaim h) (hpos : ¬ answer.response.Positive) :
    Obeys r h (.ret answer) :=
  ⟨fun _ _ hh => absurd hh hc.not_holds, fun h => absurd h hpos⟩

theorem not_positive_refusal (err : AsxError) : ¬ (refusal err).Positive := by
  unfold refusal
  split
  · exact id
  · exact id

theorem not_positive_disposition (status : Nat) (refusal : Refusal) (body : Bytes) :
    ¬ (InboundResponse.mdn status refusal.disposition body).Positive := by
  simp only [InboundResponse.Positive, not_or]
  cases refusal with
  | authenticationFailed | decryptionFailed | insufficientSecurity | decompressionFailed
    | unexpected => exact ⟨by decide, by decide⟩

/-- Delivery by the AS4 handler keeps the protocol, from the granted claim on. -/
theorem as4Deliver_obeys {cfg : As4InboundConfig} {verified : VerifiedInbound} {key : Str}
    {token : ClaimToken} {h : List InboundEvent} (hd : Delivering h key token) (hn : NoSignal h)
    (hv : ∃ e ∈ h, verified? e = some verified) (hkey : key = as4Key cfg.sha256 verified) :
    Obeys (.as4 cfg) h (as4Deliver cfg verified key token) := by
  refine ⟨trivial, fun evidence => ?_⟩
  have hd₁ := hd.snoc (e := ⟨.finish (as4RecordBuilder cfg verified), evidence⟩) rfl rfl
  have hn₁ := hn.snoc (e := ⟨.finish (as4RecordBuilder cfg verified), evidence⟩) rfl
    (by cases evidence <;> rfl) rfl
  cases evidence with
  | error err => exact hd₁.abandonThen_ret hn₁.not_completed id
  | ok record =>
    cases cfg.readable verified.signerDer with
    | false => exact hd₁.abandonThen_ret hn₁.not_completed id
    | true =>
      have hkey₁ : KeyFor (.as4 cfg) (h ++ [⟨.finish (as4RecordBuilder cfg verified), .ok record⟩])
          (.as4 (as4UserMessage cfg verified)) key := by
        obtain ⟨e, he, hver⟩ := hv
        exact ⟨verified, ⟨e, by simp [he], hver⟩, rfl, hkey⟩
      refine ⟨?_, fun answer => ?_⟩
      · exact ⟨key, token, hkey₁, hd₁.holds⟩
      · have hd₂ := hd₁.snoc
          (e := ⟨.handle (.as4 (as4UserMessage cfg verified)) record, answer⟩) rfl rfl
        have hn₂ := hn₁.snoc
          (e := ⟨.handle (.as4 (as4UserMessage cfg verified)) record, answer⟩) rfl rfl rfl
        cases answer with
        | ok u =>
          exact acknowledge_obeys hd₂ (hkey₁.append _)
            ⟨_, List.mem_append_right _ (List.mem_singleton_self _), rfl⟩ hn₂ (fun _ => rfl)
            fun _ => id
        | error fault => exact hd₂.abandonThen_ret hn₂.not_completed id

/-- The AS4 handler keeps the discipline. -/
theorem as4Handle_obeys (cfg : As4InboundConfig) : Obeys (.as4 cfg) [] (as4Handle cfg) := by
  refine ⟨trivial, fun verdict => ?_⟩
  cases verdict with
  | error err => exact ret_obeys (by simp [NoClaim, claimed?]) (not_positive_refusal err)
  | ok verified =>
    have hver : ∃ e ∈ [(⟨.verify, .ok verified⟩ : InboundEvent)], verified? e = some verified :=
      ⟨_, List.mem_singleton_self _, rfl⟩
    simp only [List.nil_append]
    split
    · rename_i htest
      exact signThen_obeys (by simp [Holds, claimed?])
        (fun _ _ => .inr (.inr ⟨cfg, rfl, verified, hver, htest⟩)) fun _ => id
    · refine ⟨trivial, fun answer => ?_⟩
      have hc : NoClaim [(⟨.verify, .ok verified⟩ : InboundEvent)] := by simp [NoClaim, claimed?]
      cases answer with
      | error err => exact ret_obeys (hc.snoc rfl) id
      | ok claim =>
        cases claim with
        | inFlight => exact ret_obeys (hc.snoc rfl) id
        | duplicate =>
          refine signThen_obeys (fun _ _ hh => absurd hh (hc.snoc rfl).not_holds) ?_
            fun _ => id
          have hkey : KeyFor (.as4 cfg) [⟨.verify, .ok verified⟩] (.as4 (as4UserMessage cfg verified))
              (as4Key cfg.sha256 verified) := ⟨verified, hver, rfl, rfl⟩
          exact fun _ _ => .inr (.inl ⟨_, _, hkey.append _, _,
            List.mem_append_right _ (List.mem_singleton_self _), rfl⟩)
        | claimed token =>
          refine as4Deliver_obeys (.start hc ?_) ?_ ?_ rfl
          · simp [Unsettled, settles?]
          · simp [NoSignal, signedOk, evidenceOk, recordedOk]
          · obtain ⟨e, he, hver⟩ := hver
            exact ⟨e, List.mem_append_left _ he, hver⟩

/-- So does delivery by the AS2 handler. -/
theorem as2Deliver_obeys {cfg : As2InboundConfig} {req : As2Request} {messageId sender key : Str}
    {opened : As2Opened} {token : ClaimToken} {h : List InboundEvent}
    (hd : Delivering h key token) (hn : NoSignal h)
    (hkey : ∀ h', KeyFor (.as2 cfg req) h' (.as2 (as2Received messageId sender opened)) key) :
    Obeys (.as2 cfg req) h (as2Deliver cfg messageId sender opened key token) := by
  refine ⟨trivial, fun evidence => ?_⟩
  have hd₁ := hd.snoc (e := ⟨.finish (as2RecordBuilder cfg messageId sender opened), evidence⟩)
    rfl rfl
  have hn₁ := hn.snoc (e := ⟨.finish (as2RecordBuilder cfg messageId sender opened), evidence⟩)
    rfl (by cases evidence <;> rfl) rfl
  cases evidence with
  | error err => exact hd₁.abandonThen_ret hn₁.not_completed id
  | ok record =>
    cases cfg.readable opened.signerDer with
    | false => exact hd₁.abandonThen_ret hn₁.not_completed id
    | true =>
      refine ⟨⟨key, token, hkey _, hd₁.holds⟩, fun answer => ?_⟩
      have hd₂ := hd₁.snoc
        (e := ⟨.handle (.as2 (as2Received messageId sender opened)) record, answer⟩) rfl rfl
      have hn₂ := hn₁.snoc
        (e := ⟨.handle (.as2 (as2Received messageId sender opened)) record, answer⟩) rfl rfl rfl
      cases answer with
      | ok u =>
        exact acknowledge_obeys hd₂ (hkey _)
          ⟨_, List.mem_append_right _ (List.mem_singleton_self _), rfl⟩ hn₂ (fun _ => rfl) fun _ => id
      | error fault =>
        refine hd₂.abandonThen hn₂.not_completed fun a => ?_
        have hpos : ∀ b, ¬ (InboundResponse.mdn 200 Refusal.unexpected.disposition b).Positive :=
          not_positive_disposition 200 .unexpected
        refine signThen_obeys (fun key' token' hh => ?_) (fun b hb => absurd hb (hpos b)) fun _ => id
        obtain ⟨rfl, rfl⟩ : key' = key ∧ token' = token := by
          rcases holds_append_iff.mp hh with hh | hh
          · exact hd₂.only key' token' hh
          · simp [claimed?] at hh
        exact ⟨_, List.mem_append_right _ (List.mem_singleton_self _), rfl⟩

/-- The AS2 handler keeps the protocol from its claim on. -/
theorem as2Claim_obeys {cfg : As2InboundConfig} {req : As2Request} {messageId sender : Str}
    {opened : As2Opened} {h : List InboundEvent} (hid : req.messageId = some messageId)
    (hsender : req.sender = some sender) (hc : NoClaim h) (hu : Unsettled h)
    (hn : NoSignal h) : Obeys (.as2 cfg req) h (as2Claim cfg messageId sender opened) := by
  have hkey : ∀ h', KeyFor (.as2 cfg req) h' (.as2 (as2Received messageId sender opened))
      (as2Key cfg.sha256 sender messageId) :=
    fun h' => ⟨as2Received messageId sender opened, rfl, hid, hsender, rfl⟩
  refine ⟨trivial, fun answer => ?_⟩
  cases answer with
  | error err => exact ret_obeys (hc.snoc rfl) id
  | ok claim =>
    cases claim with
    | inFlight => exact ret_obeys (hc.snoc rfl) id
    | duplicate =>
      refine signThen_obeys (fun _ _ hh => absurd hh (hc.snoc rfl).not_holds) ?_ fun _ => id
      exact fun _ _ => .inr (.inl ⟨_, _, hkey _, _,
        List.mem_append_right _ (List.mem_singleton_self _), rfl⟩)
    | claimed token => exact as2Deliver_obeys (.start hc hu) (hn.snoc rfl rfl rfl) hkey

/-- A refusal of an AS2 message needs no claim. -/
theorem as2Refuse_obeys {r : InboundRequest} {h : List InboundEvent} (hc : NoClaim h)
    (messageId : Str) (status : Nat) (refusal : Refusal) (detail : Str) :
    Obeys r h (as2Refuse messageId status refusal detail) :=
  signThen_obeys (fun _ _ hh => absurd hh hc.not_holds)
    (fun b hb => absurd hb (not_positive_disposition status refusal b)) fun _ => id

/-- The AS2 handler keeps the discipline. -/
theorem as2Handle_obeys (cfg : As2InboundConfig) (req : As2Request) :
    Obeys (.as2 cfg req) [] (as2Handle cfg req) := by
  have hempty : NoClaim ([] : List InboundEvent) := by simp [NoClaim]
  unfold as2Handle
  cases hid : req.messageId with
  | none => exact ret_obeys hempty id
  | some messageId =>
    simp only
    split
    · exact as2Refuse_obeys hempty ..
    cases hsender : req.sender.filter isAs2Id with
    | none => exact as2Refuse_obeys hempty ..
    | some sender =>
      simp only
      split
      · exact as2Refuse_obeys hempty ..
      split
      · exact as2Refuse_obeys hempty ..
      split
      · exact as2Refuse_obeys hempty ..
      split
      · exact as2Refuse_obeys hempty ..
      refine ⟨trivial, fun verdict => ?_⟩
      have hc₁ := hempty.snoc (e := ⟨.openAs2, verdict⟩) rfl
      cases verdict with
      | error err => exact ret_obeys hc₁ id
      | ok outcome =>
        cases outcome with
        | error refused => exact as2Refuse_obeys hc₁ ..
        | ok opened =>
          refine ⟨trivial, fun revoked => ?_⟩
          cases revoked with
          | error description => exact as2Refuse_obeys (hc₁.snoc rfl) ..
          | ok u =>
            refine as2Claim_obeys hid (Option.filter_eq_some_iff.mp hsender).1 (hc₁.snoc rfl) ?_ ?_
            · simp [Unsettled, settles?]
            · simp [NoSignal, signedOk, evidenceOk, recordedOk]

/-- Every request keeps the discipline. -/
theorem handle_obeys (r : InboundRequest) : Obeys r [] r.handle := by
  cases r with
  | as4 cfg => exact as4Handle_obeys cfg
  | as2 cfg req => exact as2Handle_obeys cfg req

/-! ## Runs -/

variable {ι : Type}

/-- The calls of a run that go to the dedup store. -/
def storeEvent? (o : Occurrence ι InboundCall InboundCall.Answer) : Option StoreEvent :=
  match o.event with
  | ⟨.claim key, answer⟩ => some ⟨o.now, key, .claim answer⟩
  | ⟨.accept key token, answer⟩ => some ⟨o.now, key, .accept token answer⟩
  | ⟨.abandon key token, answer⟩ => some ⟨o.now, key, .abandon token answer⟩
  | _ => none

/-- The history of the dedup store in a run. -/
def storeHistory (σ : List (Occurrence ι InboundCall InboundCall.Answer)) : List StoreEvent :=
  σ.filterMap storeEvent?

/-- The number of calls that settle a claim under a token. -/
def settlements (σ : List (Occurrence ι InboundCall InboundCall.Answer)) (key : Str)
    (token : ClaimToken) : Nat :=
  σ.countP fun o => settles? o.event.call = some (key, token)

/-- A granted claim is an answer of the store. -/
theorem granted_of_claimed? {o : Occurrence ι InboundCall InboundCall.Answer} {key : Str}
    {token : ClaimToken} (h : claimed? o.event = some (key, token)) :
    ∃ e, storeEvent? o = some e ∧ e.Granted key token := by
  obtain ⟨now, who, ⟨c, a⟩⟩ := o
  cases c with
  | claim k =>
    rcases a with err | (t | _ | _)
    · simp [claimed?] at h
    · obtain ⟨rfl, rfl⟩ : k = key ∧ t = token := by simpa [claimed?] using h
      exact ⟨_, rfl, rfl, rfl⟩
    · simp [claimed?] at h
    · simp [claimed?] at h
  | _ => simp [claimed?] at h

/-- Fresh tokens: a key and a token belong to one claim. -/
theorem claimed_pairwise {σ : List (Occurrence ι InboundCall InboundCall.Answer)}
    (hfresh : FreshTokens (storeHistory σ)) (key : Str) (token : ClaimToken) :
    σ.Pairwise fun o o' => claimed? o.event = some (key, token) →
      ¬ claimed? o'.event = some (key, token) := by
  refine (List.pairwise_filterMap.mp hfresh).imp ?_
  intro o o' hne h h'
  obtain ⟨e, he, hg⟩ := granted_of_claimed? h
  obtain ⟨e', he', hg'⟩ := granted_of_claimed? h'
  exact hne e he e' he' key token hg hg'

variable [DecidableEq ι]

/-- What holds of a run of requests against one dedup store. -/
structure ClaimProtocol (requests : ι → InboundRequest)
    (σ : List (Occurrence ι InboundCall InboundCall.Answer)) (progs : ι → InboundProg) : Prop where
  /-- The application is called only under a claim of the message's key. -/
  handler_claimed : ∀ σ₁ (o : Occurrence ι InboundCall InboundCall.Answer) σ₂ message record,
    σ = σ₁ ++ o :: σ₂ → o.event.call = .handle message record → ∃ key token,
      KeyFor (requests o.who) (callsOf o.who σ₁) message key ∧ Holds (callsOf o.who σ₁) key token
  /-- A claim is settled once at most, and once when its request has returned. -/
  settled_once : ∀ i key token, Holds (callsOf i σ) key token →
    settlements σ key token ≤ 1 ∧ ((∃ answer, progs i = .ret answer) → settlements σ key token = 1)
  /-- A claim is accepted by its holder, after the application returned `Ok`, the signal was
      built and the audit step passed. -/
  accept_completed : ∀ σ₁ (o : Occurrence ι InboundCall InboundCall.Answer) σ₂ key token,
    σ = σ₁ ++ o :: σ₂ → o.event.call = .accept key token →
    Holds (callsOf o.who σ₁) key token ∧ Completed (requests o.who) (callsOf o.who σ₁)
  /-- A claim is abandoned by its holder, when the work was not complete. -/
  abandon_otherwise : ∀ σ₁ (o : Occurrence ι InboundCall InboundCall.Answer) σ₂ key token,
    σ = σ₁ ++ o :: σ₂ → o.event.call = .abandon key token →
    Holds (callsOf o.who σ₁) key token ∧ ¬ Completed (requests o.who) (callsOf o.who σ₁)
  /-- A positive response needs a successful `accept`, a duplicate or the test service. -/
  positive_entitled : ∀ i answer, progs i = .ret answer → answer.response.Positive →
    Entitled (requests i) (callsOf i σ)

section Run

variable {requests : ι → InboundRequest} {progs : ι → InboundProg}
  {σ : List (Occurrence ι InboundCall InboundCall.Answer)}

/-- In a run every call of a request is one that the protocol allows after its own calls so far.
    -/
theorem mayCall_of_run (hrun : Run (fun i => (requests i).handle) σ progs)
    {σ₁ σ₂ : List (Occurrence ι InboundCall InboundCall.Answer)}
    {o : Occurrence ι InboundCall InboundCall.Answer} (hsplit : σ = σ₁ ++ o :: σ₂) :
    mayCall (requests o.who) (callsOf o.who σ₁) o.event.call :=
  hrun.before (fun i => handle_obeys (requests i)) hsplit

/-- A settling call is made by a request that holds the claim and has settled nothing. -/
theorem holds_of_settles (hrun : Run (fun i => (requests i).handle) σ progs)
    {σ₁ σ₂ : List (Occurrence ι InboundCall InboundCall.Answer)}
    {o : Occurrence ι InboundCall InboundCall.Answer} (hsplit : σ = σ₁ ++ o :: σ₂) {key : Str}
    {token : ClaimToken} (hs : settles? o.event.call = some (key, token)) :
    Holds (callsOf o.who σ₁) key token ∧ Unsettled (callsOf o.who σ₁) := by
  have hmay := mayCall_of_run hrun hsplit
  cases hc : o.event.call with
  | accept k t =>
    rw [hc] at hmay hs
    obtain ⟨rfl, rfl⟩ : k = key ∧ t = token := by simpa [settles?] using hs
    exact ⟨hmay.1, hmay.2.1⟩
  | abandon k t =>
    rw [hc] at hmay hs
    obtain ⟨rfl, rfl⟩ : k = key ∧ t = token := by simpa [settles?] using hs
    exact ⟨hmay.1, hmay.2.1⟩
  | _ => simp [hc, settles?] at hs

/-- A claim has one holder. -/
theorem holder_unique (hfresh : FreshTokens (storeHistory σ)) {key : Str} {token : ClaimToken}
    {i j : ι} (hi : Holds (callsOf i σ) key token) (hj : Holds (callsOf j σ) key token) : i = j := by
  obtain ⟨e, he, hclaimed⟩ := hi
  obtain ⟨e', he', hclaimed'⟩ := hj
  obtain ⟨o, ho, rfl, rfl⟩ := mem_callsOf.mp he
  obtain ⟨o', ho', rfl, rfl⟩ := mem_callsOf.mp he'
  obtain ⟨l₁, l₂, hl⟩ := List.append_of_mem ho
  obtain ⟨l₁', l₂', hl'⟩ := List.append_of_mem ho'
  obtain ⟨_, rfl, _⟩ := (claimed_pairwise hfresh key token).split_unique hl hl' hclaimed hclaimed'
  rfl

theorem holds_mono {h h' : List InboundEvent} {key : Str} {token : ClaimToken}
    (hh : Holds h key token) : Holds (h ++ h') key token := by
  obtain ⟨e, he, hclaimed⟩ := hh
  exact ⟨e, List.mem_append_left _ he, hclaimed⟩

/-- Two settling calls cannot use one claim: the holder settles once. -/
theorem settles_pairwise (hrun : Run (fun i => (requests i).handle) σ progs)
    (hfresh : FreshTokens (storeHistory σ)) (key : Str) (token : ClaimToken) :
    σ.Pairwise fun o o' => decide (settles? o.event.call = some (key, token)) = true →
      ¬ decide (settles? o'.event.call = some (key, token)) = true := by
  refine List.pairwise_of_forall_split fun σ₁ o σ₂ hsplit b hb hset hset' => ?_
  simp only [decide_eq_true_eq] at hset hset'
  obtain ⟨hholds, hunsettled⟩ := holds_of_settles hrun hsplit hset'
  obtain ⟨τ₁, τ₂, rfl⟩ := List.append_of_mem hb
  have hsplit' : σ = τ₁ ++ b :: (τ₂ ++ o :: σ₂) := by simpa using hsplit
  obtain ⟨hholds', _⟩ := holds_of_settles hrun hsplit' hset
  -- both calls are made by the one holder of the claim
  have hb' : Holds (callsOf b.who σ) key token := by
    rw [hsplit', callsOf_append]
    exact holds_mono hholds'
  have ho' : Holds (callsOf o.who σ) key token := by
    rw [hsplit, callsOf_append]
    exact holds_mono hholds
  have hwho : b.who = o.who := holder_unique hfresh hb' ho'
  have hnone := hunsettled b.event (mem_callsOf.mpr ⟨b, by simp, hwho, rfl⟩)
  rw [hset] at hnone
  simp at hnone

/-- The claim protocol: every run of AS4 and AS2 requests against a dedup store that keeps its
    contract. -/
theorem claim_protocol (hrun : Run (fun i => (requests i).handle) σ progs)
    (hcontract : DedupContract (storeHistory σ)) : ClaimProtocol requests σ progs := by
  have hmeets : ∀ i, Obeys (requests i) (callsOf i σ) (progs i) :=
    fun i => hrun.meets (fun i => handle_obeys (requests i)) i
  constructor
  · intro σ₁ o σ₂ message record hsplit hcall
    have hmay := mayCall_of_run hrun hsplit
    rw [hcall] at hmay
    exact hmay
  · intro i key token hholds
    have hle : settlements σ key token ≤ 1 :=
      List.countP_le_one_of_pairwise (settles_pairwise hrun hcontract.fresh key token)
    refine ⟨hle, ?_⟩
    rintro ⟨answer, hret⟩
    have hmay := hmeets i
    rw [hret] at hmay
    obtain ⟨e, he, hset⟩ := hmay.1 key token hholds
    obtain ⟨o, ho, _, rfl⟩ := mem_callsOf.mp he
    have hpos : 0 < settlements σ key token :=
      List.countP_pos_iff.mpr ⟨o, ho, by simpa using hset⟩
    omega
  · intro σ₁ o σ₂ key token hsplit hcall
    have hmay := mayCall_of_run hrun hsplit
    rw [hcall] at hmay
    exact ⟨hmay.1, hmay.2.2⟩
  · intro σ₁ o σ₂ key token hsplit hcall
    have hmay := mayCall_of_run hrun hsplit
    rw [hcall] at hmay
    exact ⟨hmay.1, hmay.2.2⟩
  · intro i answer hret hpos
    have hmay := hmeets i
    rw [hret] at hmay
    exact hmay.2 hpos

end Run

/-! ## A run of two requests -/

/-- The octets that a key is made of, for a sender without a type. -/
def keyOctets (sender messageId : Str) : Bytes :=
  Str.utf8 (.lit "asx-dedup-v1") ++ 0 :: Str.utf8 (.lit "as4") ++ 0 :: 0 :: Str.utf8 sender ++
    0 :: Str.utf8 messageId

/-- SHA-256, for the octets of two keys. -/
def keySha256 (input : Bytes) : Bytes :=
  if input = keyOctets ['x'] ['m'] then
    [0xd4, 0x37, 0xa0, 0x57, 0x34, 0x41, 0x02, 0xac, 0x7e, 0x2a, 0xae, 0x46, 0x83, 0xc8, 0x0d,
     0x12, 0x0c, 0xfb, 0x03, 0x3d, 0x99, 0xb6, 0x81, 0x55, 0xdf, 0x40, 0x98, 0x3d, 0x66, 0x51,
     0x0d, 0x65]
  else if input = keyOctets ['s'] (.lit "m@x") then
    [0x9d, 0xa9, 0x46, 0x65, 0xeb, 0x41, 0x28, 0xa4, 0x56, 0xd1, 0x86, 0x75, 0xf2, 0x7d, 0x95,
     0x38, 0x70, 0xc4, 0x05, 0xf4, 0x49, 0xa1, 0x88, 0x9c, 0x17, 0xf6, 0xdc, 0x35, 0x79, 0x98,
     0xd8, 0xb3]
  else []

/-- An AS4 endpoint with an audit sink of the given durability. -/
def endpoint (audit : Option AuditDurability) : As4InboundConfig where
  localId := ['b']
  profileName := ['p']
  pathSwitch := false
  audit := audit
  sha256 := keySha256
  readable := fun _ => true

/-- A message that both requests carry. -/
def sameMessage : VerifiedInbound where
  parsed :=
    { messageId := ['m'], action := ['a'], fromPartyIds := [['x']], toPartyIds := [['b']],
      fromPartyType := none, toPartyType := none, mpc := none, conversationId := none,
      hasWsSecurityHeader := true, service := none, refToMessageId := none, originalSender := none,
      finalRecipient := none, trackingIdentifier := none, timestamp := none, wsaHeaders := none }
  payloads := []
  signerDer := []
  references := []
  nri := []

/-- The builder of the record with the receipt. -/
def receiptBuilder (cfg : As4InboundConfig) : RecordBuilder :=
  { as4RecordBuilder cfg sameMessage with signal := some ⟨[7], ['m']⟩ }

/-- The request `true` delivers the message while `false` is told that it is in flight; the
    best-effort audit sink fails. -/
def twoRequests : List (Occurrence Bool InboundCall InboundCall.Answer) :=
  let cfg := endpoint (some .bestEffort)
  let key := as4Key keySha256 sameMessage
  let token : ClaimToken := ⟨['0', '1']⟩
  let evidence : AuditRecord := ⟨['1'], as4RecordBuilder cfg sameMessage⟩
  let record : AuditRecord := ⟨['2'], receiptBuilder cfg⟩
  [⟨0, true, ⟨.verify, .ok sameMessage⟩⟩, ⟨0, false, ⟨.verify, .ok sameMessage⟩⟩,
    ⟨1, true, ⟨.claim key, .ok (.claimed token)⟩⟩, ⟨2, false, ⟨.claim key, .ok .inFlight⟩⟩,
    ⟨3, true, ⟨.finish (as4RecordBuilder cfg sameMessage), .ok evidence⟩⟩,
    ⟨4, true, ⟨.handle (.as4 (as4UserMessage cfg sameMessage)) evidence, .ok ()⟩⟩,
    ⟨5, true, ⟨.sign (as4Receipt sameMessage), .ok [7]⟩⟩,
    ⟨6, true, ⟨.finish (receiptBuilder cfg), .ok record⟩⟩,
    ⟨7, true, ⟨.record record, .error ['e']⟩⟩, ⟨8, true, ⟨.accept key token, .ok ()⟩⟩]

/-- Both requests come to the same AS4 endpoint. -/
def twoRequestsAt : Bool → InboundRequest := fun _ => .as4 (endpoint (some .bestEffort))

theorem twoRequests_run : ∃ progs, Run (fun i => (twoRequestsAt i).handle) twoRequests progs ∧
    progs true = .ret ⟨.receipt [7], .accepted, some ['m'], none, none⟩ :=
  let s₀ : Run (fun i => (twoRequestsAt i).handle) [] _ := .nil
  let s₁ := s₀.step true rfl 0 (.ok sameMessage)
  let s₂ := s₁.step false rfl 0 (.ok sameMessage)
  let s₃ := s₂.step true rfl 1 (.ok (.claimed ⟨['0', '1']⟩))
  let s₄ := s₃.step false rfl 2 (.ok .inFlight)
  let s₅ := s₄.step true rfl 3 (.ok _)
  let s₆ := s₅.step true rfl 4 (.ok ())
  let s₇ := s₆.step true rfl 5 (.ok [7])
  let s₈ := s₇.step true rfl 6 (.ok _)
  let s₉ := s₈.step true rfl 7 (.error ['e'])
  let s₁₀ := s₉.step true rfl 8 (.ok ())
  ⟨_, s₁₀, rfl⟩

/-- The calls of the run, as the dedup store sees them. -/
def twoRequestsStore : List DedupRequest :=
  let key := as4Key keySha256 sameMessage
  [⟨1, key, .claim (.ok [1])⟩, ⟨2, key, .claim (.ok [2])⟩, ⟨8, key, .accept ⟨['0', '1']⟩⟩]

/-- The store of the run keeps its contract. -/
theorem twoRequests_contract : DedupContract (storeHistory twoRequests) := by
  have hhistory : storeHistory twoRequests = (MemoryDedup.empty.run twoRequestsStore).2 := by
    rfl
  have hevents : storeHistory twoRequests =
      [⟨1, as4Key keySha256 sameMessage, .claim (.ok (.claimed ⟨['0', '1']⟩))⟩,
        ⟨2, as4Key keySha256 sameMessage, .claim (.ok .inFlight)⟩,
        ⟨8, as4Key keySha256 sameMessage, .accept ⟨['0', '1']⟩ (.ok ())⟩] := by
    rfl
  rw [hhistory]
  refine MemoryDedup.dedupContract_run ?_ ?_
  · simp [MemoryDedup.Clock, twoRequestsStore]
  · rw [← hhistory, hevents]
    simp [FreshTokens, StoreEvent.Granted]

/-- Two requests for one message, whose calls interleave: one delivers it. -/
theorem claim_protocol_two_requests :
    ∃ progs, Run (fun i => (twoRequestsAt i).handle) twoRequests progs ∧
      DedupContract (storeHistory twoRequests) ∧
      ClaimProtocol twoRequestsAt twoRequests progs := by
  obtain ⟨progs, hrun, _⟩ := twoRequests_run
  exact ⟨progs, hrun, twoRequests_contract, claim_protocol hrun twoRequests_contract⟩

/-- With a best-effort audit sink a claim is accepted although no audit record was written. -/
theorem accepted_without_audit_record :
    ∃ progs, Run (fun i => (twoRequestsAt i).handle) twoRequests progs ∧
      DedupContract (storeHistory twoRequests) ∧
      ∃ σ₁, ∃ o : Occurrence Bool InboundCall InboundCall.Answer, ∃ σ₂ key token,
        twoRequests = σ₁ ++ o :: σ₂ ∧ o.event.call = .accept key token ∧ ¬ ∃ e ∈ callsOf o.who σ₁, recordedOk e = true := by
  obtain ⟨progs, hrun, _⟩ := twoRequests_run
  refine ⟨progs, hrun, twoRequests_contract, twoRequests.take 9, twoRequests[9], [],
    as4Key keySha256 sameMessage, ⟨['0', '1']⟩, rfl, rfl, ?_⟩
  rintro ⟨e, he, hrec⟩
  obtain ⟨o, ho, _, rfl⟩ := mem_callsOf.mp he
  simp only [twoRequests, List.take_succ_cons, List.take_zero, List.mem_cons, List.not_mem_nil,
    or_false] at ho
  rcases ho with rfl | rfl | rfl | rfl | rfl | rfl | rfl | rfl | rfl
  all_goals simp [recordedOk] at hrec

end Asx
