import Asx.Native.Receive
import Asx.Spec.Verification

/-!
# What the inbound path has checked

Inversion lemmas for `authenticate_inbound` and `open_inbound`. Both parse the body, and both
get the same document.

## Key results
- `authenticateInbound_ok`: the header, the signature and the declared parts
- `openInbound_ok`: freshness, and the payloads of the same body
- `openParts_ok`: the steps that open the declared parts
-/

namespace Asx

open Xml

section

variable {lib : As4Library} {session : SessionContext} {policy : As4PushPolicy}
  {chainPolicy : ChainPolicy} {now : SystemTime} {body : Bytes} {contentType : Str}
  {authorize : SenderAuthorizer} {authenticated : AuthenticatedInbound}

/-! ## Authentication -/

/-- What `authenticate_inbound` has established about a body: `inbound` is what was read of
    it, and `signed` its signature. -/
structure Authenticated (lib : As4Library) (session : SessionContext) (chainPolicy : ChainPolicy)
    (now : SystemTime) (body : Bytes) (contentType : Str) (authorize : SenderAuthorizer)
    (authenticated : AuthenticatedInbound) (inbound : InboundBody)
    (signed : ParsedWsSecSignatureEnvelope) : Prop where
  read : readInboundBody lib session body contentType = .ok inbound
  header : parseAs4UserMessageFromDoc session inbound.doc = .ok authenticated.parsed
  signature : parseSignatureEnvelope inbound.doc .userMessage = .ok (some signed)
  /-- The signature verified, and it covers the header. -/
  verified : ∃ authorization coverage, authorize authenticated.parsed = .ok authorization ∧
    verifyEnvelopedSignatureOptionalWithDoc lib.pki inbound.doc .userMessage
      (receiveVerifyOptions chainPolicy now authorization) = .ok (some coverage) ∧
    enforceMessagingSignatureCoverage session inbound.doc authenticated.parsed.messageId
      coverage = .ok ()
  declares : declaredParts session inbound.doc authenticated.parsed.messageId =
    .ok authenticated.declared
  /-- Every declared part is named by a `cid:` reference. -/
  covered : ∀ d ∈ authenticated.declared, ∃ r ∈ signed.references, ∃ cid, r.cid? = some cid ∧
    coverageNormalizeCid cid = coverageNormalizeCid d
  properties : partProperties session inbound.doc authenticated.parsed.messageId =
    .ok authenticated.partProperties
  /-- What is left to be checked is the `cid:` references. -/
  pending : authenticated.deferred =
    signed.references.filterMap WsSecSignatureReference.pending?

theorem verifySecurity_ok {pki : Pki} {doc : Document} {messageId fromPartyId : Str}
    {external : List Str} {authorization : SenderAuthorization}
    {coverage : VerifiedSignatureCoverage}
    (h : verifySecurity pki session policy chainPolicy now doc messageId external fromPartyId
      authorization = .ok (some coverage)) :
    verifyEnvelopedSignatureOptionalWithDoc pki doc .userMessage
        (receiveVerifyOptions chainPolicy now authorization) = .ok (some coverage) ∧
      enforceMessagingSignatureCoverage session doc messageId coverage = .ok () := by
  simp only [verifySecurity, Except.bind_eq_ok] at h
  obtain ⟨coverage?, hv, -, -, -, -, h⟩ := h
  cases coverage? with
  | none => cases h
  | some coverage' =>
    simp only [Except.bind_eq_ok, Except.pure_eq_ok, Option.some.injEq] at h
    obtain ⟨_, hm, -, -, rfl⟩ := h
    exact ⟨hv, hm⟩

theorem enforceAttachmentSignatureCoverage_ok {messageId : Str} {attachments : List Str}
    {coverage : VerifiedSignatureCoverage}
    (h : enforceAttachmentSignatureCoverage session messageId attachments coverage = .ok ()) :
    ∀ d ∈ attachments, ∃ cid ∈ coverage.signedCidReferences,
      coverageNormalizeCid cid = coverageNormalizeCid d := by
  intro d hd
  have hone := Except.forM_eq_ok.mp h d hd
  rw [Except.rejectIf_eq_ok, not_not] at hone
  obtain ⟨cid, hcid, heq⟩ := List.any_eq_true.mp hone
  exact ⟨cid, hcid, by simpa using heq⟩

/-- What a successful authentication has established. -/
theorem authenticateInbound_ok {localId : Str} {localType : Option Str}
    (h : authenticateInbound lib session policy chainPolicy now body contentType authorize localId
      localType = .ok authenticated) :
    ∃ inbound signed, Authenticated lib session chainPolicy now body contentType authorize
      authenticated inbound signed := by
  simp only [authenticateInbound, Except.bind_eq_ok, Except.okOr_eq_ok, Except.pure_eq_ok] at h
  obtain ⟨header, hheader, coverage, hcoverage, -, -, deferred, hdeferred, -, -, -, -, rfl⟩ := h
  simp only [parseAndVerifyReceivePushMetadata, Except.bind_eq_ok, Except.pure_eq_ok] at hheader
  obtain ⟨inbound, hread, parsed, hparsed, authorization, hauth, signature, hsecurity, declared,
    hdeclared, _, hcovered, properties, hproperties, rfl⟩ := hheader
  dsimp only at hcoverage
  subst hcoverage
  obtain ⟨hv, hm⟩ := verifySecurity_ok hsecurity
  obtain ⟨signed, hsigned, -, hcids, hpending, -⟩ := verifyEnvelopedSignatureOptionalWithDoc_ok hv
  refine ⟨inbound, signed, hread, hparsed, hsigned, ⟨authorization, coverage, hauth, hv, hm⟩,
    hdeclared, fun d hd => ?_, hproperties, ?_⟩
  · obtain ⟨cid, hcid, heq⟩ := enforceAttachmentSignatureCoverage_ok hcovered d hd
    rw [hcids] at hcid
    obtain ⟨r, hr, hrc⟩ := List.mem_filterMap.mp hcid
    exact ⟨r, hr, cid, hrc, heq⟩
  · rw [hdeferred] at hpending
    exact Option.some.inj hpending

/-! ## The declared parts -/

/-- The Content-ID that an `eb:PartInfo` declares. -/
def partInfoCid (partInfo : Node) : Str := normalizeCid ((partInfo.attribute? "href").getD [])

theorem theMessaging_ok {doc : Document} {messageId : Str} {messaging : Node}
    (h : theMessaging session doc messageId = .ok messaging) :
    messagingNodes doc = [messaging] := by
  unfold theMessaging at h
  split at h
  · rename_i one hone
    cases h
    exact hone
  · cases h

/-- The declared parts are those of the `eb:PartInfo` elements under an `eb:PayloadInfo`, in
    order, and no two of them have the same Content-ID. -/
theorem declaredParts_ok {doc : Document} {messageId : Str} {declared : List Str}
    (h : declaredParts session doc messageId = .ok declared) :
    ∃ messaging, messagingNodes doc = [messaging] ∧
      declared = (declaringPartInfos messaging).map partInfoCid ∧ declared.Nodup := by
  simp only [declaredParts, Except.bind_eq_ok, Except.pure_eq_ok] at h
  obtain ⟨messaging, hmessaging, declared, hfold, -, -, rfl⟩ := h
  refine ⟨messaging, theMessaging_ok hmessaging, ?_, ?_⟩
  · refine Except.foldlM_append hfold fun partInfo before after hstep => ?_
    simp only [declarePart, Except.bind_eq_ok, Except.pure_eq_ok] at hstep
    obtain ⟨-, -, -, -, rfl⟩ := hstep
    rfl
  · refine Except.foldlM_invariant hfold List.nodup_nil fun partInfo _ before after hnodup hstep => ?_
    simp only [declarePart, Except.bind_eq_ok, Except.rejectIf_eq_ok, Except.pure_eq_ok] at hstep
    obtain ⟨-, -, -, hnew, rfl⟩ := hstep
    exact List.nodup_append.mpr ⟨hnodup, List.nodup_singleton _, fun c hc c' hc' heq =>
      (not_or.mp hnew).2 (by rw [← List.mem_singleton.mp hc', ← heq]; exact hc)⟩

/-! ## Opening -/

variable {keys : RecipientKeys} {suite : Suite} {inbound : InboundBody}
  {payloads : List (Str × Bytes × Str)}

/-- What a successful opening has established. -/
theorem openInbound_ok {verified : VerifiedInbound}
    (h : openInbound lib session policy now body contentType authenticated keys suite =
      .ok verified) :
    verified.parsed = authenticated.parsed ∧
      enforceTimestampFreshness policy authenticated.parsed now = .ok () ∧
      ∃ inbound, readInboundBody lib session body contentType = .ok inbound ∧
        inboundPayloads lib session policy authenticated keys suite inbound =
          .ok verified.payloads := by
  simp only [openInbound, Except.bind_eq_ok, Except.pure_eq_ok] at h
  obtain ⟨_, hfresh, inbound, hread, payloads, hpayloads, rfl⟩ := h
  exact ⟨rfl, hfresh, inbound, hread, hpayloads⟩

/-- The values that `open_inbound` computes on the way to the payloads. -/
structure Opened (lib : As4Library) (session : SessionContext) (policy : As4PushPolicy)
    (authenticated : AuthenticatedInbound) (keys : RecipientKeys) (suite : Suite)
    (inbound : InboundBody) (envelope : ResolvedEnvelope) (restored : List (Option Str))
    (plaintexts inputs : List Bytes) : Prop where
  resolved : resolveInboundEnvelope session policy authenticated.parsed.messageId inbound.doc
    authenticated.declared suite = .ok envelope
  types : restoredTypes session authenticated.parsed.messageId authenticated.partProperties
    envelope = .ok restored
  decrypted : ∃ parts, matchParts session authenticated.parsed.messageId authenticated.declared
      inbound.multipart = .ok parts ∧
    decryptAttachments lib.ops envelope (encryptedBodies envelope parts) keys = .ok plaintexts
  digestInput : digestInputs lib.roxmltree plaintexts restored = .ok inputs
  digested : verifyCidReferences lib.pki.digests authenticated.deferred
    ((envelope.data.map DataSpec.cid).zip inputs) = .ok ()

theorem openParts_ok
    (h : openParts lib session policy authenticated keys suite inbound = .ok payloads) :
    ∃ envelope restored plaintexts inputs,
      Opened lib session policy authenticated keys suite inbound envelope restored plaintexts
        inputs ∧
      decompressParts lib.ops session authenticated.parsed.messageId authenticated.partProperties
        ((envelope.data.map DataSpec.cid).zip plaintexts) authenticated.declared =
          .ok payloads := by
  simp only [openParts, Except.bind_eq_ok, Except.mapError_eq_ok] at h
  obtain ⟨parts, hparts, envelope, henvelope, restored, hrestored, plaintexts, hplaintexts, inputs,
    hinputs, _, hverify, hpayloads⟩ := h
  exact ⟨envelope, restored, plaintexts, inputs,
    ⟨henvelope, hrestored, ⟨parts, hparts, hplaintexts⟩, hinputs, hverify⟩, hpayloads⟩

/-- The payloads are those of the declared parts, unless there are none. -/
theorem inboundPayloads_ok
    (h : inboundPayloads lib session policy authenticated keys suite inbound = .ok payloads) :
    payloads = [] ∨ openParts lib session policy authenticated keys suite inbound =
      .ok payloads := by
  unfold inboundPayloads at h
  split at h
  · exact .inl (Except.ok.inj h).symm
  · split at h
    · simp only [Except.bind_eq_ok, Except.pure_eq_ok] at h
      obtain ⟨-, -, rfl⟩ := h
      exact .inl rfl
    · exact .inr h

/-! ## Decompression -/

theorem mem_of_swapRemove {α : Type} {l rest : List α} {i : Nat} {a : α}
    (h : swapRemove l i = some (a, rest)) : l[i]? = some a ∧ ∀ x ∈ rest, x ∈ l := by
  unfold swapRemove at h
  split at h
  · rename_i a' last ha hlast
    cases h
    refine ⟨ha, fun x hx => ?_⟩
    -- the last element is the only one that may have moved
    rcases List.mem_or_eq_of_mem_set (List.mem_of_mem_dropLast hx) with hx | rfl
    · exact hx
    · exact List.mem_of_getLast? hlast
  · cases h

theorem takeByCid_ok {byCid rest : List (Str × Bytes)} {cid : Str} {part : Str × Bytes}
    (h : takeByCid byCid cid = some (part, rest)) :
    part ∈ byCid ∧ part.1 = cid ∧ ∀ x ∈ rest, x ∈ byCid := by
  obtain ⟨i, hi, hswap⟩ := Option.bind_eq_some_iff.mp h
  obtain ⟨hpart, hrest⟩ := mem_of_swapRemove hswap
  obtain ⟨hlt, hcid, -⟩ := List.findIdx?_eq_some_iff_getElem.mp hi
  have hget : byCid[i] = part := by
    rw [List.getElem?_eq_getElem hlt] at hpart
    exact Option.some.inj hpart
  rw [hget] at hcid
  exact ⟨List.mem_of_getElem? hpart, by simpa using hcid, hrest⟩

/-- A payload comes from the decrypted part with its Content-ID. -/
def FromPart (ops : XmlEncOps) (session : SessionContext) (properties : PartProperties)
    (byCid : List (Str × Bytes)) (cid : Str) (payload : Str × Bytes × Str) : Prop :=
  payload.1 = cid ∧
    payload.2.2 = (properties.mimeTypes.get cid).getD "application/octet-stream" ∧
    ∃ bytes, (cid, bytes) ∈ byCid ∧
      decompressPayloadIfDeclared ops session cid properties.compression bytes = .ok payload.2.1

/-- Each payload comes from the decrypted part with its Content-ID, in declared order; the
    parts that are left move, but none is added. -/
theorem decompressParts_ok {ops : XmlEncOps} {messageId : Str} {properties : PartProperties}
    {all byCid : List (Str × Bytes)} {declared : List Str} (hall : ∀ x ∈ byCid, x ∈ all)
    (h : decompressParts ops session messageId properties byCid declared = .ok payloads) :
    List.Forall₂ (FromPart ops session properties all) declared payloads := by
  induction declared generalizing byCid payloads with
  | nil =>
    cases h
    exact .nil
  | cons cid declared ih =>
    simp only [decompressParts, Except.bind_eq_ok, Except.okOr_eq_ok, Except.pure_eq_ok] at h
    obtain ⟨⟨part, left⟩, htake, bytes, hbytes, rest, hrest, rfl⟩ := h
    obtain ⟨hpart, rfl, hleft⟩ := takeByCid_ok htake
    exact .cons ⟨rfl, rfl, part.2, hall part hpart, hbytes⟩
      (ih (fun x hx => hall x (hleft x hx)) hrest)

end

end Asx
