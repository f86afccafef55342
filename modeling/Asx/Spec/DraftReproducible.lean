import Asx.ForStd.Base64
import Asx.Native.DraftSend
import Asx.Spec.Prescan
import Asx.Spec.ReceiptCheck
import Asx.Spec.XmlOutPieces

/-!
# A retry signs the same bytes

Two drafts of the same inputs and the same message timestamp, made at different times and with
different randomness, have the same envelope and so the same canonical `ds:SignedInfo`: the clock
is read for the message timestamp alone, and randomness is drawn after the signature is prepared.
A receipt that echoes the references of one verifies against the other.

## Key results
- `draftSend_ok`: what a draft is made of
- `draftSend_reproducible`: two drafts agree
-/

namespace Asx

variable {ρ : Type}

/-- The Content-IDs of the parts, the primary one first. -/
def DraftParts.contentIds (parts : DraftParts) : List Str :=
  parts.contentId :: parts.extra.map OutboundExtraPart.contentId

/-- A prepared reference as a receipt echoes it. -/
def PreparedReference.toNri (r : PreparedReference) : As4NriReference :=
  ⟨r.uri, referenceDigest.algorithmUri, Base64.encode r.digest⟩

/-- The signature of a draft is over these references: they were prepared from its own envelope,
    and its `ds:SignedInfo` is written from them. -/
def SendDraft.SignsOver (lib : SendLibrary ρ) (draft : SendDraft)
    (references : List PreparedReference) : Prop :=
  ∃ envelope prepared chainDer doc external, draft.envelope = .signed envelope prepared chainDer ∧
    parseXml lib.roxmltree envelope.text .envelope signStage = .ok doc ∧
    prepareReferences lib.digests doc (references.map PreparedReference.uri) external =
      .ok references ∧
    writeSignedInfo prepared.algorithm referenceDigest references = .ok prepared.signedInfo

section

variable {lib : SendLibrary ρ} {session : SessionContext} {inputs : DraftInputs}

/-! ## What a draft is made of -/

theorem contentIds_withBodies (parts : DraftParts) (bodies : List Bytes) :
    (parts.withBodies bodies).contentIds = parts.contentIds := by
  have hextra : ∀ (extra : List OutboundExtraPart) (rest : List Bytes),
      (extra.zipWith OutboundExtraPart.withBody rest ++ extra.drop rest.length).map
        OutboundExtraPart.contentId = extra.map OutboundExtraPart.contentId := by
    intro extra
    induction extra with
    | nil => simp
    | cons part extra ih =>
      intro rest
      cases rest with
      | nil => rfl
      | cons body rest =>
        simp only [List.zipWith_cons_cons, List.length_cons, List.drop_succ_cons, List.cons_append,
          List.map_cons, ih rest, OutboundExtraPart.withBody]
  simp only [DraftParts.contentIds, DraftParts.withBodies, hextra]

/-- Encryption changes the bytes of the parts and nothing that is signed. -/
theorem contentIds_encryptDraft {random : ρ} {recipientCert : Option Bytes} {parts : DraftParts}
    {sent : Option Str × DraftParts}
    (h : encryptDraft lib session random inputs recipientCert parts = .ok sent) :
    sent.2.contentIds = parts.contentIds := by
  unfold encryptDraft at h
  split at h
  · simp only [Except.bind_eq_ok] at h
    obtain ⟨_, -, envelope, -, h⟩ := h
    cases envelope with
    | none =>
      rw [← Except.pure_eq_ok.mp h]
    | some envelope =>
      rw [← Except.pure_eq_ok.mp h]
      exact contentIds_withBodies parts envelope.bodies
  · rw [← Except.ok.inj h]

/-- A draft is made of parts, of their envelope at the message timestamp, and of an encryption. -/
theorem draftSend_ok {now : SystemTime} {random : ρ} {recipientCert : Option Bytes}
    {keyPresent certPresent : Bool} {draft : SendDraft}
    (h : draftSend lib session now random inputs recipientCert keyPresent certPresent = .ok draft) :
    inputs.policy.sign = true ∧ ∃ parts, draftParts lib session inputs = .ok parts ∧
      draftEnvelope lib session inputs parts (inputs.messageTimestamp now) = .ok draft.envelope ∧
      draft.parts.contentIds = parts.contentIds := by
  simp only [draftSend, Except.bind_eq_ok, Except.pure_eq_ok] at h
  obtain ⟨_, hvalid, parts, hparts, envelope, henvelope, sent, hsent, rfl⟩ := h
  refine ⟨?_, parts, hparts, henvelope, contentIds_encryptDraft hsent⟩
  simp only [validateDraft, Except.bind_eq_ok, Except.rejectIf_eq_ok] at hvalid
  obtain ⟨_, -, _, hsign, -⟩ := hvalid
  simpa using hsign

/-! ## What is signed -/

private theorem prepareReference_uri {digests : Digests} {doc : Xml.Document}
    {external : List (Str × Bytes)} {uri : Str} {reference : PreparedReference}
    (h : prepareReference digests doc external uri = .ok reference) : reference.uri = uri := by
  unfold prepareReference at h
  split at h
  · simp only [Except.bind_eq_ok, Except.pure_eq_ok] at h
    obtain ⟨_, -, rfl⟩ := h
    rfl
  · simp only [Except.bind_eq_ok, Except.pure_eq_ok] at h
    obtain ⟨_, -, _, -, _, -, rfl⟩ := h
    rfl

private theorem prepareReferences_uris {digests : Digests} {doc : Xml.Document} {uris : List Str}
    {external : List (Str × Bytes)} {references : List PreparedReference}
    (h : prepareReferences digests doc uris external = .ok references) :
    references.map PreparedReference.uri = uris := by
  simp only [prepareReferences, Except.bind_eq_ok, Except.mapM_eq_ok] at h
  obtain ⟨_, -, hall⟩ := h
  induction hall with
  | nil => rfl
  | cons hreference _ ih => rw [List.map_cons, ih, prepareReference_uri hreference]

/-- A signed envelope is signed over one reference for each URI. -/
theorem draftEnvelope_ok {parts : DraftParts} {timestamp : Str} {draft : SendDraft}
    (hsign : inputs.policy.sign = true)
    (h : draftEnvelope lib session inputs parts timestamp = .ok draft.envelope) :
    ∃ references, draft.SignsOver lib references ∧
      references.map PreparedReference.uri = referenceUris parts := by
  simp only [draftEnvelope, hsign, if_true, Except.bind_eq_ok, Except.pure_eq_ok,
    prepareEnvelopeSignature, prepareSignedInfo] at h
  obtain ⟨signer, -, _, -, envelope, -, external, -, prepared,
    ⟨_, -, doc, hdoc, references, hreferences, signedInfo, hinfo, canonical, -, rfl⟩,
    henvelope⟩ := h
  have huris := prepareReferences_uris hreferences
  refine ⟨references, ?_, huris⟩
  exact ⟨_, _, _, doc, external, henvelope.symm, hdoc, huris ▸ hreferences, hinfo⟩

/-! ## Receipts -/

theorem digest?_toNri (r : PreparedReference) : r.toNri.digest? = some r.digest := by
  have hvisible : (Base64.encode r.digest).filter (fun c => !Str.isAsciiWhitespace c) =
      Base64.encode r.digest := by
    refine List.filter_eq_self.mpr fun c hc => ?_
    obtain ⟨hlow, -⟩ := Base64.visible_of_mem_encode hc
    have hne : ∀ d : Char, d.toNat < 0x21 → (c == d) = false := by
      rintro d hd
      exact beq_eq_false_iff_ne.mpr fun heq => absurd (heq ▸ hlow) (Nat.not_le.mpr hd)
    simp only [Str.isAsciiWhitespace, hne ' ' (by decide), hne '\t' (by decide),
      hne '\n' (by decide), hne '\x0c' (by decide), hne '\r' (by decide), Bool.or_false,
      Bool.not_false]
  rw [As4NriReference.digest?, PreparedReference.toNri, hvisible, Base64.decode_encode]

/-- The entries that echo some references are in bijection with them. -/
theorem inBijection_toNri (references : List PreparedReference) :
    InBijection (references.map PreparedReference.toNri)
      (references.map PreparedReference.toNri) := by
  refine ⟨Equiv.refl _, fun i => ⟨rfl, rfl, ?_⟩⟩
  have hi : i.1 < references.length := by simpa using i.2
  refine ⟨references[i.1].digest, ?_, ?_⟩
  · simp [digest?_toNri]
  · simp [digest?_toNri]

/-- Entries in bijection with the references of a message as it was sent verify, whether or not
    unexpected ones are refused. -/
theorem verifyNonRepudiation_of_inBijection {roxmltree : Roxmltree} {policy : As4ReceiptPolicy}
    {messageId : Str} {sent : As4SendOutput} {receipt sentRefs : List As4NriReference}
    (hsent : sentSignatureReferences roxmltree session messageId sent = .ok sentRefs)
    (h : InBijection receipt sentRefs) :
    verifyNonRepudiation roxmltree session policy messageId sent receipt =
      .ok (.verified receipt) := by
  obtain ⟨hne, hdistinct⟩ := sentSignatureReferences_ok hsent
  have hreceipt : receipt ≠ [] := by
    rintro rfl
    obtain ⟨e, -⟩ := h
    exact (e.symm ⟨0, List.length_pos_of_ne_nil hne⟩).elim0
  obtain ⟨hnodup, hecho, hexpected⟩ := (inBijection_iff hdistinct).mp h
  have hunexpected : checkUnexpected session policy messageId sentRefs receipt = .ok () := by
    have hnone : receipt.find? (fun c => !sentRefs.any fun s => s.uri == c.uri) = none := by
      refine List.find?_eq_none.mpr fun c hc => ?_
      obtain ⟨s, hs, heq⟩ := hexpected c hc
      simpa using ⟨s, hs, heq⟩
    rw [checkUnexpected, hnone]
  rw [verifyNonRepudiation, if_neg hreceipt]
  simp only [Except.bind_eq_ok, Except.pure_eq_ok, Except.forM_eq_ok, checkEchoed_eq_ok,
    checkDistinctUris_eq_ok]
  exact ⟨sentRefs, hsent, (), ⟨hnodup, by simp⟩, (), hecho, (), hunexpected, trivial⟩

/-! ## Two drafts -/

/-- **Retries are reproducible**: two drafts of the same inputs whose message timestamp is the same,
    made at any two times, with any randomness and for any recipient, have the same canonical
    `ds:SignedInfo`, the same envelope and the same Content-IDs. They are signed over the same
    references, one for the header, one for the body and one for each part, and a receipt whose
    entries echo the references of one attempt verifies against the other as it was sent. -/
theorem draftSend_reproducible (lib : SendLibrary ρ) (session : SessionContext)
    (inputs : DraftInputs) (now₁ now₂ : SystemTime) (random₁ random₂ : ρ)
    (recipient₁ recipient₂ : Option Bytes) (key₁ cert₁ key₂ cert₂ : Bool) (d₁ d₂ : SendDraft)
    (htime : inputs.messageTimestamp now₁ = inputs.messageTimestamp now₂)
    (h₁ : draftSend lib session now₁ random₁ inputs recipient₁ key₁ cert₁ = .ok d₁)
    (h₂ : draftSend lib session now₂ random₂ inputs recipient₂ key₂ cert₂ = .ok d₂) :
    (d₁.toSign.isSome ∧ d₁.toSign = d₂.toSign) ∧ d₁.envelope = d₂.envelope ∧
      d₁.parts.contentIds = d₂.parts.contentIds ∧
      ∃ references parts, draftParts lib session inputs = .ok parts ∧
        references.map PreparedReference.uri = referenceUris parts ∧
        d₁.SignsOver lib references ∧ d₂.SignsOver lib references ∧
        InBijection (references.map PreparedReference.toNri)
          (references.map PreparedReference.toNri) ∧
        ∀ policy messageId sent receipt,
          sentSignatureReferences lib.roxmltree session messageId sent =
            .ok (references.map PreparedReference.toNri) →
          InBijection receipt (references.map PreparedReference.toNri) →
          verifyNonRepudiation lib.roxmltree session policy messageId sent receipt =
            .ok (.verified receipt) := by
  obtain ⟨hsign, parts, hparts, henvelope₁, hids₁⟩ := draftSend_ok h₁
  obtain ⟨-, parts', hparts', henvelope₂, hids₂⟩ := draftSend_ok h₂
  obtain rfl : parts = parts' := Except.ok.inj (hparts.symm.trans hparts')
  rw [← htime] at henvelope₂
  have henvelope : d₁.envelope = d₂.envelope := Except.ok.inj (henvelope₁.symm.trans henvelope₂)
  obtain ⟨references, hsigns, huris⟩ := draftEnvelope_ok hsign henvelope₁
  refine ⟨⟨?_, ?_⟩, henvelope, hids₁.trans hids₂.symm, references, parts, hparts, huris, hsigns,
    ?_, inBijection_toNri references, ?_⟩
  · obtain ⟨_, _, _, _, _, hsigned, -⟩ := hsigns
    simp only [SendDraft.toSign, hsigned, Option.isSome_some]
  · simp only [SendDraft.toSign, henvelope]
  · unfold SendDraft.SignsOver
    rw [← henvelope]
    exact hsigns
  · intro policy messageId sent receipt hsent hreceipt
    exact verifyNonRepudiation_of_inBijection hsent hreceipt

end

/-- A message of one part, encrypted; its timestamp is given. -/
def invoiceDraft : DraftInputs where
  messageId := .lit "m1"
  payload := some (Str.utf8 (.lit "UNB+UNOC"))
  policy :=
    { sign := true
      encrypt := true
      outboundXmlencPayloadAlgorithm := .aes128Gcm
      recipientForm := .bst
      compress := false
      action := .lit "deliver"
      service := .lit "invoices"
      serviceType := []
      fromPartyId := some (.lit "alpha")
      toPartyId := some (.lit "beta")
      fromPartyIdType := none
      toPartyIdType := none
      fromRole := .lit "sender"
      toRole := .lit "receiver"
      agreementRef := none
      agreementRefType := none
      refToMessageId := none
      originalSender := none
      finalRecipient := none
      trackingIdentifier := none
      conversationId := none
      wsAddressing := none
      sbdhHeader := none }
  payloadFilename := none
  overrideMimeType := some (.lit "text/plain")
  overrideContentId := none
  additionalPayloads := []
  timestamp := some (.lit "2026-05-18T12:00:00Z")
  signer := some (.rsaSha256, [[0x30]])
  contentDisposition := false

/-- The libraries of the example: a digest of the first bytes, no compression, and an encryption
    that puts its randomness before every body. -/
def exampleLibrary : SendLibrary UInt8 where
  roxmltree := roxmltreeReads
  rootElementText := id
  digests := fun _ bytes => bytes.take 12
  gzip := fun _ bytes => bytes
  encryptAttachments := fun random parts _ _ _ seed =>
    .ok (some ⟨seed, parts.map fun part => random :: part.plaintext⟩)

/-- The draft of the message at a time, with some randomness. -/
def exampleDraft (now : SystemTime) (random : UInt8) : Result SendDraft :=
  draftSend exampleLibrary ⟨.lit "session", .lit "partner", true⟩ now random invoiceDraft
    (some [0x30]) true true

private theorem messageTimestamp_invoiceDraft (now : SystemTime) :
    invoiceDraft.messageTimestamp now = invoiceDraft.messageTimestamp 0 := by
  simp only [DraftInputs.messageTimestamp, invoiceDraft, Option.getD_some]

private theorem encryptDraft_invoiceDraft (session : SessionContext) (random : UInt8)
    (parts : DraftParts) :
    ∃ sent, encryptDraft exampleLibrary session random invoiceDraft (some [0x30]) parts =
      .ok sent :=
  ⟨_, rfl⟩

/-- The message can be drafted at any time and with any randomness: the time is not read, since a
    timestamp is given, and the encryption never fails. -/
private theorem exampleDraft_ok (now : SystemTime) (random : UInt8) :
    ∃ draft, exampleDraft now random = .ok draft := by
  have heval : (exampleDraft 0 0).toOption.isSome := by
    unfold exampleDraft draftSend
    simp only [draftEnvelope, SoapEnvelopeBuilder.buildWithSecuritySlot, SoapEnvelopeBuilder.write,
      prepareEnvelopeSignature, prepareSignedInfo, writeSignedInfo, XmlOut.run_eq_runOnto]
    decide +kernel
  obtain ⟨draft, hdraft⟩ := Option.isSome_iff_exists.mp heval
  have hok := Except.toOption_eq_some.mp hdraft
  simp only [exampleDraft, draftSend, Except.bind_eq_ok, Except.pure_eq_ok] at hok ⊢
  obtain ⟨_, hvalid, parts, hparts, envelope, henvelope, -⟩ := hok
  obtain ⟨sent, hsent⟩ := encryptDraft_invoiceDraft ⟨.lit "session", .lit "partner", true⟩ random
    parts
  rw [← messageTimestamp_invoiceDraft now] at henvelope
  exact ⟨_, (), hvalid, parts, hparts, envelope, henvelope, sent, hsent, rfl⟩

/-- Two attempts on different days, with different randomness. -/
theorem draftSend_reproducible_invoice :
    ∃ d₁ d₂, exampleDraft 0 7 = .ok d₁ ∧ exampleDraft 86400000000000 9 = .ok d₂ ∧
      d₁.toSign = d₂.toSign := by
  obtain ⟨d₁, h₁⟩ := exampleDraft_ok 0 7
  obtain ⟨d₂, h₂⟩ := exampleDraft_ok 86400000000000 9
  have htime := (messageTimestamp_invoiceDraft 86400000000000).symm
  refine ⟨d₁, d₂, h₁, h₂, ?_⟩
  unfold exampleDraft at h₁ h₂
  obtain ⟨⟨-, hsame⟩, -⟩ := draftSend_reproducible _ _ _ _ _ _ _ _ _ _ _ _ _ d₁ d₂ htime h₁ h₂
  exact hsame

end Asx
