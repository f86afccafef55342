import Asx.Native.Inbound
import Asx.Spec.ClaimProtocol
import Asx.Spec.PayloadIntegrity

/-!
# What a receipt confirms

A receipt echoes every reference of the verified signature. The same-document references are
digested when the message is authenticated, the `cid:` references when its parts are opened.
The two exits of `open_inbound` that open no part, the test service and the path switch,
return the same list, so that a receipt confirms a `cid:` reference nobody has digested.

## Main results
- `openInboundTraced_fst`: the recording of what is digested changes no result
- `nri_confirmed_iff`: when the references of a verified message are all digested
- `receipt_confirms_iff`: the same for the receipts that the endpoint signs
-/

namespace Asx

open Xml Interact SameDocumentReferenceIndex

/-- `As4NriReference::from`. -/
def WsSecSignatureReference.nri (r : WsSecSignatureReference) : As4NriReference :=
  ⟨r.uri, r.digestMethod.algorithmUri, r.digestValueBase64⟩

/-! ## Recording what is digested -/

section

variable (lib : As4Library) (session : SessionContext) (policy : As4PushPolicy)
  (authenticated : AuthenticatedInbound) (keys : RecipientKeys) (suite : Suite)

/-- `openParts`, with the parts that `verify_cid_references` digests: Content-ID and digest
    input. -/
def openPartsTraced (inbound : InboundBody) :
    Result (List (Str × Bytes × Str) × List (Str × Bytes)) := do
  let messageId := authenticated.parsed.messageId
  let parts ← matchParts session messageId authenticated.declared inbound.multipart
  let envelope ← resolveInboundEnvelope session policy messageId inbound.doc
    authenticated.declared suite
  let restored ← restoredTypes session messageId authenticated.partProperties envelope
  let plaintexts ← (decryptAttachments lib.ops envelope (encryptedBodies envelope parts)
    keys).mapError (·.withMessageId messageId)
  let inputs ← digestInputs lib.roxmltree plaintexts restored
  let cids := envelope.data.map DataSpec.cid
  (verifyCidReferences lib.pki.digests authenticated.deferred (cids.zip inputs)).mapError
    (·.withMessageId messageId)
  let payloads ← decompressParts lib.ops session messageId authenticated.partProperties
    (cids.zip plaintexts) authenticated.declared
  pure (payloads, cids.zip inputs)

/-- `inboundPayloads`, with the parts that are digested. -/
def inboundPayloadsTraced (inbound : InboundBody) :
    Result (List (Str × Bytes × Str) × List (Str × Bytes)) :=
  if isTestService authenticated.parsed then .ok ([], [])
  else if isPathSwitch policy authenticated then do
    checkPayloadLess session authenticated.parsed.messageId inbound.doc inbound.multipart
    pure ([], [])
  else openPartsTraced lib session policy authenticated keys suite inbound

/-- `openInbound`, with the parts that are digested. -/
def openInboundTraced (now : SystemTime) (body : Bytes) (contentType : Str) :
    Result (VerifiedInbound × List (Str × Bytes)) := do
  enforceTimestampFreshness policy authenticated.parsed now
  let inbound ← readInboundBody lib session body contentType
  let (payloads, digested) ←
    inboundPayloadsTraced lib session policy authenticated keys suite inbound
  pure
    ({ parsed := authenticated.parsed
       payloads
       signerDer := authenticated.signerDer
       references := authenticated.references
       nri := authenticated.nri }, digested)

/-- The trace of the digests is read beside the parts and changes nothing. -/
theorem openPartsTraced_fst (inbound : InboundBody) :
    Prod.fst <$> openPartsTraced lib session policy authenticated keys suite inbound =
      openParts lib session policy authenticated keys suite inbound := by
  simp only [openPartsTraced, openParts, map_bind, map_pure, bind_pure]

/-- Nor does it change the payloads. -/
theorem inboundPayloadsTraced_fst (inbound : InboundBody) :
    Prod.fst <$> inboundPayloadsTraced lib session policy authenticated keys suite inbound =
      inboundPayloads lib session policy authenticated keys suite inbound := by
  unfold inboundPayloadsTraced inboundPayloads
  split
  · rfl
  · split
    · simp only [map_bind, map_pure]
    · exact openPartsTraced_fst lib session policy authenticated keys suite inbound

/-- The recording changes no result. -/
theorem openInboundTraced_fst (now : SystemTime) (body : Bytes) (contentType : Str) :
    Prod.fst <$> openInboundTraced lib session policy authenticated keys suite now body
        contentType =
      openInbound lib session policy now body contentType authenticated keys suite := by
  simp only [openInboundTraced, openInbound, map_bind, map_pure,
    ← inboundPayloadsTraced_fst lib session policy authenticated keys suite, bind_map_left]

end

/-! ## Confirmed references -/

/-- The digest of the reference was recomputed over what was received, and it matched: over an
    element of the document, or over a part that was digested. -/
inductive Confirmed (digests : Digests) (doc : Document)
    (references : List WsSecSignatureReference) (digested : List (Str × Bytes))
    (r : WsSecSignatureReference) : Prop
  | element {n : Node}
      (h : DigestedFor digests (buildForTargets doc (targetIds references)) r n)
  | part {cid : Str} {part : Str × Bytes} (hcid : r.cid? = some cid) (hmem : part ∈ digested)
      (hname : normalizeCidUri part.1 = cid)
      (hdigest : decodeReferenceDigestValue r.uri r.digestMethod r.digestValueBase64 =
        .ok (digests r.digestMethod part.2))

/-- Every entry is a reference of the signature, and it is confirmed. -/
def AllConfirmed (digests : Digests) (doc : Document)
    (references : List WsSecSignatureReference) (digested : List (Str × Bytes))
    (nri : List As4NriReference) : Prop :=
  ∀ entry ∈ nri, ∃ r ∈ references, entry = r.nri ∧ Confirmed digests doc references digested r

/-- The messages whose parts are not opened: the test service, and an accepted path switch
    that declares no part. -/
def OpensNoPart (policy : As4PushPolicy) (header : ParsedAs4UserMessage)
    (declared : List Str) : Prop :=
  isTestService header = true ∨ (declared = [] ∧ policy.acceptPathSwitch = true ∧
    (classifyPathSwitch (header.service.getD []) header.action).isSome = true)

instance (policy : As4PushPolicy) (header : ParsedAs4UserMessage) (declared : List Str) :
    Decidable (OpensNoPart policy header declared) :=
  inferInstanceAs (Decidable (_ ∨ _))

/-- A path switch has no part, is admitted by the policy and asked for by the message. -/
theorem isPathSwitch_iff {policy : As4PushPolicy} {authenticated : AuthenticatedInbound} :
    isPathSwitch policy authenticated = true ↔ authenticated.declared = [] ∧
      policy.acceptPathSwitch = true ∧ (classifyPathSwitch (authenticated.parsed.service.getD [])
        authenticated.parsed.action).isSome = true := by
  simp only [isPathSwitch, Bool.and_eq_true, List.isEmpty_iff, and_assoc]

section

variable {lib : As4Library} {session : SessionContext} {policy : As4PushPolicy}
  {chainPolicy : ChainPolicy} {now : SystemTime} {body : Bytes} {contentType : Str}
  {authorize : SenderAuthorizer} {authenticated : AuthenticatedInbound} {keys : RecipientKeys}
  {suite : Suite} {inbound : InboundBody} {signed : ParsedWsSecSignatureEnvelope}

/-- The references that are read from the document again are those of the signature. -/
theorem parseSignatureReferencesFromDoc_ok {doc : Document} {refs : List WsSecSignatureReference}
    (hsigned : parseSignatureEnvelope doc .userMessage = .ok (some signed))
    (h : parseSignatureReferencesFromDoc doc = .ok refs) : refs = signed.references := by
  obtain ⟨signature, signedInfo, hfound, hinfo, hrefs⟩ := parseSignatureEnvelope_ok hsigned
  simp only [parseSignatureReferencesFromDoc, hfound, Except.bind_eq_ok, Except.okOr_eq_ok,
    parseSignatureReferencesFromSignedInfo, Except.pure_eq_ok, Except.ok.injEq] at h
  obtain ⟨_, rfl, _, hsig, info, hinfo', _, -, _, -, refs', hrefs', _, -, rfl⟩ := h
  cases hsig
  rw [hinfo, Option.some.injEq] at hinfo'
  subst hinfo'
  rw [hrefs, Except.ok.injEq] at hrefs'
  exact hrefs'.symm

/-- A receipt echoes the references of the verified signature. -/
theorem authenticateInbound_nri {localId : Str} {localType : Option Str}
    (h : authenticateInbound lib session policy chainPolicy now body contentType authorize localId
      localType = .ok authenticated)
    (ha : Authenticated lib session chainPolicy now body contentType authorize authenticated
      inbound signed) :
    authenticated.nri = signed.references.map WsSecSignatureReference.nri := by
  simp only [authenticateInbound, Except.bind_eq_ok, Except.okOr_eq_ok, Except.pure_eq_ok] at h
  obtain ⟨header, hheader, _, -, _, -, _, -, references, hreferences, _, -, rfl⟩ := h
  simp only [parseAndVerifyReceivePushMetadata, Except.bind_eq_ok, Except.pure_eq_ok] at hheader
  obtain ⟨inbound', hread, _, -, _, -, _, -, _, -, _, -, _, -, rfl⟩ := hheader
  rw [ha.read, Except.ok.injEq] at hread
  subst hread
  have hread := ha.read
  simp only [readInboundBody, parseAs4UserMessageDocument, Except.bind_eq_ok,
    Except.mapError_eq_ok, Except.pure_eq_ok] at hread
  obtain ⟨_, -, xml, -, doc, hdoc, rfl⟩ := hread
  simp only [parseSignatureReferences, Except.bind_eq_ok, Except.mapError_eq_ok] at hreferences
  obtain ⟨doc', hdoc', hrefs⟩ := hreferences
  -- the two parses of the text differ in the stage that their errors name
  have hsame := (parseXml_ok hdoc').2
  rw [(parseXml_ok hdoc).2, Except.ok.injEq] at hsame
  subst hsame
  rw [parseSignatureReferencesFromDoc_ok ha.signature hrefs]
  rfl

/-- The URI of a reference tells its kind. -/
theorem parsedUri_of_nri_eq {doc : Document} {docClass : SignedDocClass}
    (hsigned : parseSignatureEnvelope doc docClass = .ok (some signed))
    {r r' : WsSecSignatureReference} (hr : r ∈ signed.references) (hr' : r' ∈ signed.references)
    (h : r.nri = r'.nri) : r.parsedUri = r'.parsedUri := by
  obtain ⟨_, _, _, _, hnodes⟩ := parseSignatureEnvelope_ok hsigned
  have hall := (parseSignatureReferenceNodes_ok hnodes).1
  obtain ⟨_, -, -, hparse⟩ := hall.exists_left hr
  obtain ⟨_, -, -, hparse'⟩ := hall.exists_left hr'
  have huri : r.uri = r'.uri := (As4NriReference.mk.inj h).1
  rw [huri, hparse', Except.ok.injEq] at hparse
  exact hparse.symm

/-- Without a digested part no `cid:` reference is confirmed. -/
theorem Confirmed.cid_eq_none {digests : Digests} {doc : Document}
    {references : List WsSecSignatureReference} {r : WsSecSignatureReference}
    (h : Confirmed digests doc references [] r) : r.cid? = none := by
  cases h with
  | element hd =>
    obtain ⟨id, hid, -⟩ := hd.resolved
    simp [WsSecSignatureReference.cid?, hid]
  | part _ hmem => cases hmem

/-- The same-document references are confirmed when the message is authenticated. -/
theorem Authenticated.confirmed_of_sameDocument
    (ha : Authenticated lib session chainPolicy now body contentType authorize authenticated
      inbound signed) {r : WsSecSignatureReference} (hr : r ∈ signed.references)
    (hcid : r.cid? = none) (digested : List (Str × Bytes)) :
    Confirmed lib.pki.digests inbound.doc signed.references digested r := by
  obtain ⟨_, coverage, -, hv, -⟩ := ha.verified
  obtain ⟨parsed, hparsed, -, -, -, hall⟩ := verifyEnvelopedSignatureOptionalWithDoc_ok hv
  rw [ha.signature, Except.ok.injEq, Option.some.injEq] at hparsed
  subst hparsed
  cases huri : r.parsedUri with
  | sameDocument id =>
    obtain ⟨n, hn⟩ := hall r hr id huri
    exact .element hn
  | cid cid => simp [WsSecSignatureReference.cid?, huri] at hcid

/-- The `cid:` references are confirmed when the parts are opened. -/
theorem Authenticated.confirmed_of_opened
    (ha : Authenticated lib session chainPolicy now body contentType authorize authenticated
      inbound signed) {opened : InboundBody} {payloads : List (Str × Bytes × Str)}
    {digested : List (Str × Bytes)}
    (h : openPartsTraced lib session policy authenticated keys suite opened =
      .ok (payloads, digested))
    {r : WsSecSignatureReference} (hr : r ∈ signed.references) {cid : Str}
    (hcid : r.cid? = some cid) :
    Confirmed lib.pki.digests inbound.doc signed.references digested r := by
  simp only [openPartsTraced, Except.bind_eq_ok, Except.mapError_eq_ok, Except.pure_eq_ok,
    Prod.mk.injEq] at h
  obtain ⟨_, -, _, -, _, -, _, -, _, -, _, hverify, _, -, -, rfl⟩ := h
  have hpending : r.pending? = some ⟨r.uri, cid, r.digestMethod, r.digestValueBase64⟩ := by
    simp [WsSecSignatureReference.pending?, hcid]
  have hmem : ⟨r.uri, cid, r.digestMethod, r.digestValueBase64⟩ ∈ authenticated.deferred := by
    rw [ha.pending]
    exact List.mem_filterMap.mpr ⟨r, hr, hpending⟩
  obtain ⟨part, hpart, hname, hdigest⟩ :=
    verifyCidReference_ok (Except.forM_eq_ok.mp hverify _ hmem)
  exact .part hcid hpart hname hdigest

/-- Nothing is digested on the exits that open no part. -/
theorem inboundPayloadsTraced_of_opensNoPart {payloads : List (Str × Bytes × Str)}
    {digested : List (Str × Bytes)}
    (h : inboundPayloadsTraced lib session policy authenticated keys suite inbound =
      .ok (payloads, digested))
    (hnone : OpensNoPart policy authenticated.parsed authenticated.declared) : digested = [] := by
  unfold inboundPayloadsTraced at h
  split at h
  · cases h
    rfl
  · rename_i htest
    have hswitch := isPathSwitch_iff.mpr (hnone.resolve_left htest)
    simp only [hswitch, if_true, Except.bind_eq_ok, Except.pure_eq_ok, Prod.mk.injEq] at h
    obtain ⟨_, -, -, rfl⟩ := h
    rfl

/-- A message that opens its parts has digested them all. -/
theorem inboundPayloadsTraced_of_opens {payloads : List (Str × Bytes × Str)}
    {digested : List (Str × Bytes)}
    (h : inboundPayloadsTraced lib session policy authenticated keys suite inbound =
      .ok (payloads, digested))
    (hopens : ¬ OpensNoPart policy authenticated.parsed authenticated.declared) :
    openPartsTraced lib session policy authenticated keys suite inbound =
      .ok (payloads, digested) := by
  rw [OpensNoPart, not_or, ← isPathSwitch_iff] at hopens
  rwa [inboundPayloadsTraced, if_neg hopens.1, if_neg hopens.2] at h

/-- A message whose parts are not opened returns the references with nothing digested. -/
theorem openInboundTraced_of_opensNoPart {now' : SystemTime} {verified : VerifiedInbound}
    {digested : List (Str × Bytes)}
    (hopen : openInboundTraced lib session policy authenticated keys suite now' body contentType =
      .ok (verified, digested))
    (hnone : OpensNoPart policy authenticated.parsed authenticated.declared) :
    verified.nri = authenticated.nri ∧ digested = [] := by
  simp only [openInboundTraced, Except.bind_eq_ok, Except.pure_eq_ok, Prod.mk.injEq] at hopen
  obtain ⟨_, -, opened, -, ⟨payloads, digested⟩, hpayloads, rfl, rfl⟩ := hopen
  exact ⟨rfl, inboundPayloadsTraced_of_opensNoPart hpayloads hnone⟩

/-- The references of a verified message are all confirmed exactly when its parts are opened
    or the signature has no `cid:` reference. -/
theorem nri_confirmed_iff {localId : Str} {localType : Option Str} {now' : SystemTime}
    {verified : VerifiedInbound} {digested : List (Str × Bytes)}
    (hauth : authenticateInbound lib session policy chainPolicy now body contentType authorize
      localId localType = .ok authenticated)
    (ha : Authenticated lib session chainPolicy now body contentType authorize authenticated
      inbound signed)
    (hopen : openInboundTraced lib session policy authenticated keys suite now' body contentType =
      .ok (verified, digested)) :
    AllConfirmed lib.pki.digests inbound.doc signed.references digested verified.nri ↔
      ¬ OpensNoPart policy authenticated.parsed authenticated.declared ∨
        ∀ r ∈ signed.references, r.cid? = none := by
  simp only [openInboundTraced, Except.bind_eq_ok, Except.pure_eq_ok, Prod.mk.injEq] at hopen
  obtain ⟨_, -, opened, -, ⟨payloads, digested⟩, hpayloads, rfl, rfl⟩ := hopen
  simp only [AllConfirmed, authenticateInbound_nri hauth ha]
  constructor
  · intro hall
    by_cases hnone : OpensNoPart policy authenticated.parsed authenticated.declared
    · refine .inr fun r hr => ?_
      obtain ⟨r', hr', hnri, hconfirmed⟩ := hall _ (List.mem_map_of_mem hr)
      rw [inboundPayloadsTraced_of_opensNoPart hpayloads hnone] at hconfirmed
      rw [WsSecSignatureReference.cid?, parsedUri_of_nri_eq ha.signature hr hr' hnri]
      exact hconfirmed.cid_eq_none
    · exact .inl hnone
  · intro hcond entry hentry
    obtain ⟨r, hr, rfl⟩ := List.mem_map.mp hentry
    refine ⟨r, hr, rfl, ?_⟩
    cases hcid : r.cid? with
    | none => exact ha.confirmed_of_sameDocument hr hcid _
    | some cid =>
      rcases hcond with hopens | hnone
      · exact ha.confirmed_of_opened (inboundPayloadsTraced_of_opens hpayloads hopens) hr hcid
      · rw [hnone r hr] at hcid
        cases hcid

end

/-! ## The receipts of the endpoint -/

/-- A receipt in the answer was signed over the references of the verified message. -/
def ReceiptOf (h : List InboundEvent) (answer : InboundAnswer) : Prop :=
  ∀ receipt, answer.response = .receipt receipt → ∃ verified,
    (⟨.verify, .ok verified⟩ : InboundEvent) ∈ h ∧
    (⟨.sign (as4Receipt verified), .ok receipt⟩ : InboundEvent) ∈ h

/-- From here on every receipt is one of the verified message. -/
abbrev Receipts : List InboundEvent → InboundProg → Prop := Meets (fun _ _ => True) ReceiptOf

section

variable {h : List InboundEvent} {cfg : As4InboundConfig} {verified : VerifiedInbound}

theorem ret_receipts {answer : InboundAnswer} (ha : ∀ receipt, answer.response ≠ .receipt receipt) :
    Receipts h (.ret answer) :=
  fun receipt heq => absurd heq (ha receipt)

theorem abandonThen_receipts {key : Str} {token : ClaimToken} {answer : InboundAnswer}
    (ha : ∀ receipt, answer.response ≠ .receipt receipt) :
    Receipts h (abandonThen key token (.ret answer)) :=
  ⟨trivial, fun _ => ret_receipts ha⟩

theorem as4BackendFailure_ne_receipt (messageId detail : Str) (receipt : Bytes) :
    (as4BackendFailure messageId detail).response ≠ .receipt receipt := by
  simp [as4BackendFailure]

theorem refusal_ne_receipt (err : AsxError) (receipt : Bytes) : refusal err ≠ .receipt receipt := by
  unfold refusal
  split
  · exact InboundResponse.noConfusion
  · exact InboundResponse.noConfusion

/-- A receipt alone is drafted from the verified message. -/
theorem as4ReceiptOnly_receipts (hv : (⟨.verify, .ok verified⟩ : InboundEvent) ∈ h)
    (outcome : ReceiveOutcome) : Receipts h (as4ReceiptOnly verified outcome) := by
  refine ⟨trivial, fun answer => ?_⟩
  cases answer with
  | error err => exact ret_receipts (as4BackendFailure_ne_receipt _ _)
  | ok signal =>
    intro receipt heq
    cases heq
    exact ⟨verified, by simp [hv], by simp⟩

/-- So is the receipt of the acknowledgement. -/
theorem as4Acknowledge_receipts (hv : (⟨.verify, .ok verified⟩ : InboundEvent) ∈ h) {key : Str}
    {token : ClaimToken} : Receipts h (as4Acknowledge cfg verified key token) := by
  have hfail := as4BackendFailure_ne_receipt verified.parsed.messageId
  refine ⟨trivial, fun answer => ?_⟩
  cases answer with
  | error err => exact abandonThen_receipts (hfail _)
  | ok signal =>
    refine ⟨trivial, fun finished => ?_⟩
    cases finished with
    | error err => exact abandonThen_receipts (hfail _)
    | ok record =>
      -- the record may be written or not; what follows is the same
      have haccept : ∀ (h' : List InboundEvent) {next : Except Str Unit → InboundProg},
          (∀ err, next (.error err) = .ret (as4BackendFailure verified.parsed.messageId
            ("dedup accept failed: " ++ err))) →
          next (.ok ()) = .ret ⟨.receipt signal, .accepted, some verified.parsed.messageId, none,
            none⟩ →
          Receipts (h ++ [⟨.sign (as4Receipt verified), .ok signal⟩] ++ h')
            (.call (.accept key token) next) := by
        intro h' next herror hok
        refine ⟨trivial, fun accepted => ?_⟩
        cases accepted with
        | error err =>
          rw [herror]
          exact ret_receipts (hfail _)
        | ok u =>
          rw [hok]
          intro receipt heq
          cases heq
          exact ⟨verified, by simp [hv], by simp⟩
      unfold recordAudit
      cases cfg.audit with
      | none => exact haccept _ (fun _ => rfl) rfl
      | some durability =>
        refine ⟨trivial, fun recorded => ?_⟩
        rw [List.append_assoc]
        cases recorded with
        | ok u => exact haccept _ (fun _ => rfl) rfl
        | error err =>
          cases durability with
          | bestEffort => exact haccept _ (fun _ => rfl) rfl
          | durable => exact abandonThen_receipts (hfail _)

/-- Delivery answers with that receipt or with none. -/
theorem as4Deliver_receipts (hv : (⟨.verify, .ok verified⟩ : InboundEvent) ∈ h) {key : Str}
    {token : ClaimToken} : Receipts h (as4Deliver cfg verified key token) := by
  have hfail := as4BackendFailure_ne_receipt verified.parsed.messageId
  refine ⟨trivial, fun evidence => ?_⟩
  cases evidence with
  | error err => exact abandonThen_receipts (hfail _)
  | ok record =>
    cases cfg.readable verified.signerDer with
    | false => exact abandonThen_receipts (hfail _)
    | true =>
      refine ⟨trivial, fun answer => ?_⟩
      cases answer with
      | ok u => exact as4Acknowledge_receipts (by simp [hv])
      | error fault => exact abandonThen_receipts (by simp)

/-- In every run a receipt follows the verification of its message. -/
theorem as4Handle_receipts (cfg : As4InboundConfig) : Receipts [] (as4Handle cfg) := by
  refine ⟨trivial, fun verdict => ?_⟩
  cases verdict with
  | error err => exact ret_receipts (refusal_ne_receipt err)
  | ok verified =>
    have hv : (⟨.verify, .ok verified⟩ : InboundEvent) ∈
        ([] ++ [⟨.verify, .ok verified⟩] : List InboundEvent) := by simp
    dsimp only
    split
    · exact as4ReceiptOnly_receipts hv _
    · refine ⟨trivial, fun answer => ?_⟩
      cases answer with
      | error err => exact ret_receipts (as4BackendFailure_ne_receipt _ _)
      | ok claim =>
        cases claim with
        | inFlight => exact ret_receipts (by simp)
        | duplicate => exact as4ReceiptOnly_receipts (List.mem_append_left _ hv) _
        | claimed token => exact as4Deliver_receipts (List.mem_append_left _ hv)

end

/-- What the endpoint has checked of a message it verified. -/
theorem as4Verify_ok {ctx : As4VerifyContext} {body : Bytes} {contentType : Str}
    {verified : VerifiedInbound} (h : as4Verify ctx body contentType = .ok verified) :
    ∃ authenticated digested,
      authenticateInbound ctx.lib ctx.session ctx.policy ctx.chainPolicy ctx.authenticatedAt body
        contentType ctx.authorize ctx.localId ctx.localType = .ok authenticated ∧
      openInboundTraced ctx.lib ctx.session ctx.policy authenticated ctx.keys ctx.suite
        ctx.openedAt body contentType = .ok (verified, digested) := by
  simp only [as4Verify, Except.bind_eq_ok] at h
  obtain ⟨authenticated, hauth, _, -, hopen⟩ := h
  rw [← openInboundTraced_fst, map_eq_pure_bind] at hopen
  simp only [Except.bind_eq_ok, Except.pure_eq_ok] at hopen
  obtain ⟨⟨_, digested⟩, htraced, rfl⟩ := hopen
  exact ⟨authenticated, digested, hauth, htraced⟩

theorem as4Verify_of_ok {ctx : As4VerifyContext} {body : Bytes} {contentType : Str}
    {authenticated : AuthenticatedInbound} {verified : VerifiedInbound}
    (hauth : authenticateInbound ctx.lib ctx.session ctx.policy ctx.chainPolicy
      ctx.authenticatedAt body contentType ctx.authorize ctx.localId ctx.localType =
        .ok authenticated)
    (hrevocation : ctx.revocation authenticated.signerPath = none)
    (hopen : openInbound ctx.lib ctx.session ctx.policy ctx.openedAt body contentType
      authenticated ctx.keys ctx.suite = .ok verified) :
    as4Verify ctx body contentType = .ok verified := by
  simp only [as4Verify, Except.bind_eq_ok]
  exact ⟨authenticated, hauth, (), by rw [hrevocation]; rfl, hopen⟩

/-- Every receipt of the endpoint was signed over references of the verified signature of its
    message, and all of them were digested exactly when the parts of the message were opened
    or the signature has no `cid:` reference. `h` is any run of the endpoint on the message. -/
theorem receipt_confirms_iff (ctx : As4VerifyContext) (cfg : As4InboundConfig) (body : Bytes)
    (contentType : Str) (h : List InboundEvent) (answer : InboundAnswer) (receipt : Bytes)
    (hpath : Path (as4Handle cfg) h (.ret answer))
    (hverify : ∀ verdict, (⟨.verify, verdict⟩ : InboundEvent) ∈ h →
      verdict = as4Verify ctx body contentType)
    (hreceipt : answer.response = .receipt receipt) :
    ∃ messageId nri inbound header declared signed authenticated verified digested,
      (⟨.sign (.receipt messageId nri), .ok receipt⟩ : InboundEvent) ∈ h ∧
      readInboundBody ctx.lib ctx.session body contentType = .ok inbound ∧
      parseAs4UserMessageFromDoc ctx.session inbound.doc = .ok header ∧
      declaredParts ctx.session inbound.doc header.messageId = .ok declared ∧
      parseSignatureEnvelope inbound.doc .userMessage = .ok (some signed) ∧
      authenticateInbound ctx.lib ctx.session ctx.policy ctx.chainPolicy ctx.authenticatedAt body
        contentType ctx.authorize ctx.localId ctx.localType = .ok authenticated ∧
      openInboundTraced ctx.lib ctx.session ctx.policy authenticated ctx.keys ctx.suite
        ctx.openedAt body contentType = .ok (verified, digested) ∧
      (AllConfirmed ctx.lib.pki.digests inbound.doc signed.references digested nri ↔
        ¬ OpensNoPart ctx.policy header declared ∨ ∀ r ∈ signed.references, r.cid? = none) := by
  have hpost : ReceiptOf h answer := (as4Handle_receipts cfg).path hpath
  obtain ⟨verified, hverified, hsigned⟩ := hpost receipt hreceipt
  obtain ⟨authenticated, digested, hauth, hopen⟩ := as4Verify_ok (hverify _ hverified).symm
  obtain ⟨inbound, signed, ha⟩ := authenticateInbound_ok hauth
  exact ⟨_, _, inbound, _, _, signed, authenticated, verified, digested, hsigned, ha.read,
    ha.header, ha.declares, ha.signature, hauth, hopen, nri_confirmed_iff hauth ha hopen⟩

/-! ## A path switch with a `cid:` reference -/

/-- The SHA-256 of the canonical header of `switchMessage`. -/
def switchDigest : Str := .lit "kjM+JsnUl/VDk0ILZLzrlaTAQAEj167J6rZAp4FugEw="

/-- A path switch. Its signature names a part that the message does not have. -/
def switchMessage : Document where
  children := soapEnvelope [
    element (.lit "eb") (.lit "Messaging")
      [(.lit "S", .lit "mustUnderstand", .lit "true"), (.lit "wsu", .lit "Id", .lit "m")] [
      element (.lit "eb") (.lit "UserMessage") [] [
        element (.lit "eb") (.lit "MessageInfo") []
          [leaf (.lit "eb") (.lit "MessageId") (.lit "m@x")],
        element (.lit "eb") (.lit "PartyInfo") [] [
          element (.lit "eb") (.lit "From") [] [leaf (.lit "eb") (.lit "PartyId") (.lit "s")],
          element (.lit "eb") (.lit "To") [] [leaf (.lit "eb") (.lit "PartyId") (.lit "r")]],
        element (.lit "eb") (.lit "CollaborationInfo") []
          [leaf (.lit "eb") (.lit "Service") pathSwitchService,
          leaf (.lit "eb") (.lit "Action") requestSwitchAction]]],
    element (.lit "wsse") (.lit "Security") [] [signature
      [dsReference "#m" (.c14n .exclusive) switchDigest,
        dsReference "cid:p@x" .attachmentContent plainPartDigest]
      (Str.lit "JRozigeibt/jHIic2MhuZBh9xCt0aPzcrNKv/J8CPJF5m5t7b2tyuzv9jDqV/6eUnFeA0iQDjUijdy3PsO3I" ++
        "Eg==")]]
  ok := by decide +kernel

/-- An endpoint that accepts path switches. -/
def switchContext : As4VerifyContext where
  lib := recipientLibrary switchMessage switchDigest
  session := signedSession
  policy := { profilePolicy with acceptPathSwitch := true }
  chainPolicy := signedOptions.chainPolicy
  authorize := pinnedSender
  localId := "r"
  localType := none
  revocation := fun _ => none
  keys := recipientKeys
  suite := rsaSuite
  authenticatedAt := 0
  openedAt := 0

@[inherit_doc switchMessage]
def switchBody : Bytes := Str.utf8 (documentText switchMessage)

/-- Authentication and opening of the path switch: whether parts are opened, whether it is the
    test service, and the URIs that a receipt echoes. -/
def switchOutcome : Result (Bool × Bool × List Str) := do
  let authenticated ← authenticateInbound switchContext.lib switchContext.session
    switchContext.policy switchContext.chainPolicy 0 switchBody "application/soap+xml" pinnedSender
    "r" none
  let verified ← openInbound switchContext.lib switchContext.session switchContext.policy 0
    switchBody "application/soap+xml" authenticated recipientKeys rsaSuite
  pure (decide (OpensNoPart switchContext.policy authenticated.parsed authenticated.declared),
    isTestService verified.parsed, verified.nri.map As4NriReference.uri)

theorem switchOutcome_eq : switchOutcome.toOption =
    some (true, false, [(.lit "#m" : Str), .lit "cid:p@x"]) := by
  rw [switchOutcome, switchBody, utf8_documentText]
  decide +kernel

/-- A path switch is verified, and its signature names a part. -/
theorem switchMessage_verified :
    ∃ authenticated verified, as4Verify switchContext switchBody "application/soap+xml" =
        .ok verified ∧
      authenticateInbound switchContext.lib switchContext.session switchContext.policy
        switchContext.chainPolicy 0 switchBody "application/soap+xml" pinnedSender "r" none =
          .ok authenticated ∧
      openInbound switchContext.lib switchContext.session switchContext.policy 0 switchBody
        "application/soap+xml" authenticated recipientKeys rsaSuite = .ok verified ∧
      OpensNoPart switchContext.policy authenticated.parsed authenticated.declared ∧
      isTestService verified.parsed = false ∧
      verified.nri.map As4NriReference.uri = [(.lit "#m" : Str), .lit "cid:p@x"] := by
  have h := Except.toOption_eq_some.mp switchOutcome_eq
  simp only [switchOutcome, Except.bind_eq_ok, Except.pure_eq_ok, Prod.mk.injEq,
    decide_eq_true_eq] at h
  obtain ⟨authenticated, hauth, verified, hopen, hnone, htest, huris⟩ := h
  refine ⟨authenticated, verified, ?_, hauth, hopen, hnone, htest, huris⟩
  exact as4Verify_of_ok hauth rfl hopen

/-- The calls of an endpoint that receipts a duplicate. -/
def duplicateCalls (verified : VerifiedInbound) (receipt : Bytes) : List InboundEvent :=
  [⟨.verify, .ok verified⟩, ⟨.claim (as4Key keySha256 verified), .ok .duplicate⟩,
    ⟨.sign (as4Receipt verified), .ok receipt⟩]

theorem duplicateCalls_path {verified : VerifiedInbound}
    (htest : isTestService verified.parsed = false) (receipt : Bytes) :
    Path (as4Handle (endpoint none)) (duplicateCalls verified receipt)
      (.ret ⟨.receipt receipt, .duplicate, some verified.parsed.messageId, none, none⟩) := by
  have h₁ := (Path.nil (p := as4Handle (endpoint none))).snoc
    (.ok verified : Result VerifiedInbound)
  simp only [htest, Bool.false_eq_true, if_false] at h₁
  have h₂ := h₁.snoc (.ok .duplicate : Except Str Claim)
  exact h₂.snoc (.ok receipt : Except Str Bytes)

theorem verdict_of_mem_duplicateCalls {verified : VerifiedInbound} {receipt : Bytes}
    {verdict : Result VerifiedInbound}
    (h : (⟨.verify, verdict⟩ : InboundEvent) ∈ duplicateCalls verified receipt) :
    verdict = .ok verified := by
  simp only [duplicateCalls, List.mem_cons, List.not_mem_nil, or_false] at h
  rcases h with h | h | h
  · cases h
    rfl
  · cases h
  · cases h

/-- The receipt of a second `switchMessage`, and when it confirms what was digested. -/
theorem receipt_confirms_switch :
    ∃ verified messageId nri inbound header declared signed digested,
      (⟨.sign (.receipt messageId nri), .ok [7]⟩ : InboundEvent) ∈ duplicateCalls verified [7] ∧
      (AllConfirmed switchContext.lib.pki.digests inbound signed digested nri ↔
        ¬ OpensNoPart switchContext.policy header declared ∨ ∀ r ∈ signed, r.cid? = none) := by
  obtain ⟨_, verified, hverify, -, -, -, htest, -⟩ := switchMessage_verified
  obtain ⟨messageId, nri, inbound, header, declared, signed, _, _, digested, hsigned, -, -, -, -, -,
    -, hiff⟩ := receipt_confirms_iff switchContext (endpoint none) switchBody
      "application/soap+xml" _ _ [7] (duplicateCalls_path htest [7])
      (fun verdict hmem => (verdict_of_mem_duplicateCalls hmem).trans hverify.symm) rfl
  exact ⟨verified, messageId, nri, inbound.doc, header, declared, signed.references, digested,
    hsigned, hiff⟩

/-- A path switch without a payload is receipted, the first time and as a duplicate; the
    receipt echoes a `cid:` reference although the message has no such part and nothing but
    the header was digested. -/
theorem receipt_echoes_undigested_part :
    ∃ verified authenticated inbound signed digested,
      Path (as4Handle (endpoint none)) (duplicateCalls verified [7])
        (.ret ⟨.receipt [7], .duplicate, some verified.parsed.messageId, none, none⟩) ∧
      as4Verify switchContext switchBody "application/soap+xml" = .ok verified ∧
      Authenticated switchContext.lib switchContext.session switchContext.chainPolicy 0 switchBody
        "application/soap+xml" pinnedSender authenticated inbound signed ∧
      openInboundTraced switchContext.lib switchContext.session switchContext.policy authenticated
        recipientKeys rsaSuite 0 switchBody "application/soap+xml" = .ok (verified, digested) ∧
      (∃ entry ∈ verified.nri, entry.uri = .lit "cid:p@x") ∧ digested = [] ∧
      ¬ AllConfirmed switchContext.lib.pki.digests inbound.doc signed.references digested
        verified.nri := by
  obtain ⟨authenticated, verified, hverify, hauth, -, hnone, htest, huris⟩ :=
    switchMessage_verified
  obtain ⟨authenticated', digested, hauth', hopen⟩ := as4Verify_ok hverify
  obtain rfl : authenticated = authenticated' := Except.ok.inj (hauth.symm.trans hauth')
  obtain ⟨inbound, signed, ha⟩ := authenticateInbound_ok hauth
  obtain ⟨hnri, hdigested⟩ := openInboundTraced_of_opensNoPart hopen hnone
  have hcid : (.lit "cid:p@x" : Str) ∈ verified.nri.map As4NriReference.uri := by simp [huris]
  obtain ⟨entry, hentry, huri⟩ := List.mem_map.mp hcid
  refine ⟨verified, authenticated, inbound, signed, digested, duplicateCalls_path htest [7],
    hverify, ha, hopen, ⟨entry, hentry, huri⟩, hdigested, ?_⟩
  rw [nri_confirmed_iff hauth ha hopen]
  rintro (hopens | hall)
  · exact hopens hnone
  · rw [hnri, authenticateInbound_nri hauth ha] at hentry
    obtain ⟨r, hr, rfl⟩ := List.mem_map.mp hentry
    obtain ⟨_, _, _, _, hnodes⟩ := parseSignatureEnvelope_ok ha.signature
    obtain ⟨_, -, -, hparse⟩ := (parseSignatureReferenceNodes_ok hnodes).1.exists_left hr
    have hsame : r.uri = .lit "cid:p@x" := huri
    have hparsed : r.parsedUri = .cid "p@x" := by
      rw [hsame] at hparse
      exact (Except.ok.inj ((by decide +kernel : parseReferenceUri (.lit "cid:p@x")
        "wssec_parse_references" = .ok (.cid "p@x")).symm.trans hparse)).symm
    have hnocid := hall r hr
    simp [WsSecSignatureReference.cid?, hparsed] at hnocid

end Asx
