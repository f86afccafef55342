import Asx.Native.Calendar
import Asx.Native.MimePackaging
import Asx.Native.Payload
import Asx.Native.Sbdh
import Asx.Native.SignedInfo
import Asx.Native.SoapBuilder

/-!
# Drafting a message

`draft_send` of `as4/send.rs`: a message is checked, wrapped, compressed, described by its
envelope, prepared for its signature and then encrypted. The clock of the session and the
randomness of the encryption are arguments of their own, so that a draft is a function of its
inputs and of these two. The gzip of `flate2`, the SHA-256 of the `sha2` crate and
`encrypt_attachments` are functions of the `SendLibrary`; of these only the last takes randomness.
The debug text in the error of a builder that fails for another reason than its input is cut, and
the key info profile, which only `finish_send` reads, is left out.
-/

namespace Asx

/-! ## Inputs -/

/-- `RecipientForm`. -/
inductive RecipientForm where
  | bst
  | ski
deriving DecidableEq, Repr

/-- `As4SendPolicy`. -/
structure As4SendPolicy where
  sign : Bool
  encrypt : Bool
  outboundXmlencPayloadAlgorithm : XmlEncPayloadAlgorithm
  recipientForm : RecipientForm
  compress : Bool
  action : Str
  service : Str
  serviceType : Str
  fromPartyId : Option Str
  toPartyId : Option Str
  fromPartyIdType : Option Str
  toPartyIdType : Option Str
  fromRole : Str
  toRole : Str
  agreementRef : Option Str
  agreementRefType : Option Str
  refToMessageId : Option Str
  originalSender : Option Str
  finalRecipient : Option Str
  trackingIdentifier : Option Str
  conversationId : Option Str
  wsAddressing : Option WsAddressingHeaders
  sbdhHeader : Option SbdhHeader
deriving DecidableEq, Repr

/-- `As4AdditionalPayload`. -/
structure As4AdditionalPayload where
  bytes : Bytes
  mimeType : Str
  contentId : Option Str
  filename : Option Str
deriving DecidableEq, Repr

/-- `DraftInputs`; the overrides of the primary part are fields of their own. -/
structure DraftInputs where
  messageId : Str
  payload : Option Bytes
  policy : As4SendPolicy
  payloadFilename : Option Str
  overrideMimeType : Option Str
  overrideContentId : Option Str
  additionalPayloads : List As4AdditionalPayload
  timestamp : Option Str
  signer : Option (SignatureAlgorithm × List Bytes)
  contentDisposition : Bool
deriving DecidableEq, Repr

/-- `OutboundPart`. -/
structure OutboundPart where
  contentId : Str
  mimeType : Str
  plaintext : Bytes
deriving DecidableEq, Repr

/-- `OutboundEnvelope`: the header and the encrypted bodies in part order. -/
structure OutboundEnvelope where
  header : Str
  bodies : List Bytes
deriving DecidableEq, Repr

/-- The libraries of `draft_send`; `ρ` is the randomness that an encryption draws. -/
structure SendLibrary (ρ : Type) where
  roxmltree : Roxmltree
  rootElementText : RootElementText
  digests : Digests
  /-- The `GzEncoder` of a level. -/
  gzip : Nat → Bytes → Bytes
  /-- `encrypt_attachments`: the parts, the recipient, its form, the cipher and the id seed. -/
  encryptAttachments : ρ → List OutboundPart → Bytes → RecipientForm → XmlEncPayloadAlgorithm →
    Str → Result (Option OutboundEnvelope)

/-! ## Parts -/

/-- `OutboundExtraPart`. -/
structure OutboundExtraPart where
  contentId : Str
  mimeType : Str
  bytes : Bytes
  filename : Option Str
deriving DecidableEq, Repr

/-- A part with its encrypted body. -/
def OutboundExtraPart.withBody (part : OutboundExtraPart) (body : Bytes) : OutboundExtraPart :=
  { part with bytes := body }

section

variable {ρ : Type}

/-- `compress_gzip`; the encoder writes to memory, which does not fail. -/
def compressGzip (lib : SendLibrary ρ) (payload : Bytes) (compressionLevel : Nat) : Bytes :=
  lib.gzip (if 1 ≤ compressionLevel ∧ compressionLevel ≤ 9 then compressionLevel else 6) payload

/-- `part_plain_content_type`. -/
def partPlainContentType (policy : As4SendPolicy) (declaredMime : Str) : Str :=
  if policy.compress then as4CompressionType else declaredMime

/-- `derived_content_id`. -/
def derivedContentId (digests : Digests) (messageId : Str) (index : Nat) : Str :=
  Str.lit "part" ++ showNat index ++ ['.'] ++
    hexLower ((digests .sha256 (Str.utf8 messageId)).take 12) ++ Str.lit "@asx"

/-- `envelope_id_seed`. -/
def envelopeIdSeed (digests : Digests) (messageId : Str) : Str :=
  hexLower ((digests .sha256 (Str.utf8 messageId)).take 8)

/-- An error of `draft_send`. -/
def draftError (session : SessionContext) (stage : Str) (code : ErrorCode) (message : Str) :
    AsxError :=
  ⟨code, message, .forSession stage session⟩

/-- The checks of the caller's identifiers. -/
def validateIdentifiers (session : SessionContext) (inputs : DraftInputs) : Result Unit := do
  Except.rejectIf (Str.trim inputs.messageId = []) (draftError session "as4_send_validate"
    .invalidInput "message_id must not be empty")
  forM inputs.overrideContentId.toList (validateContentId · "payload_content_id")
  forM inputs.overrideMimeType.toList (validateMediaType · "payload_mime_type")
  forM inputs.additionalPayloads.zipIdx fun (part, index) => do
    forM part.contentId.toList (validateContentId · ("additional_payloads[" ++ showNat index ++
      "].content_id"))
    validateMediaType part.mimeType ("additional_payloads[" ++ showNat index ++ "].mime_type")

/-- The checks of the policy, of the payloads' presence and of the credentials. -/
def validateDraft (session : SessionContext) (inputs : DraftInputs) (recipientCert : Option Bytes)
    (signingKeyPresent signingCertPresent : Bool) : Result Unit := do
  validateIdentifiers session inputs
  Except.rejectIf (inputs.policy.sign = false) (draftError session "as4_send_validate"
    .policyViolation "strict AS4 send policy forbids sign=false")
  Except.rejectIf (inputs.payload = some []) (draftError session "as4_send_validate" .invalidInput
    "AS4 payload must not be empty")
  Except.rejectIf (inputs.payload.isNone ∧
      (inputs.additionalPayloads ≠ [] ∨ inputs.policy.sbdhHeader.isSome))
    (draftError session "as4_send_validate" .invalidInput
      "an AS4 message without a primary payload carries no other part and no SBDH")
  Except.rejectIf (inputs.policy.sign ∧ ¬ (signingKeyPresent ∧ signingCertPresent))
    (draftError session "as4_send_validate" .policyViolation
      "AS4 signing requires signing_key_pem and signing_cert_pem")
  Except.rejectIf (inputs.policy.encrypt ∧ recipientCert.isNone)
    (draftError session "as4_send_validate" .policyViolation
      "AS4 encryption requires recipient_cert_pem")

/-- The primary payload in its SBDH, if it has one. -/
def wrapPayload (lib : SendLibrary ρ) (session : SessionContext) (inputs : DraftInputs) :
    Result (Option Bytes) :=
  match inputs.policy.sbdhHeader, inputs.payload with
  | some header, some payload =>
    let document : StandardBusinessDocument := ⟨header, payload⟩
    ((document.wrap lib.roxmltree lib.rootElementText).map some).mapError fun err =>
      draftError session "as4_send_sbdh_wrap" err.code
        ("failed to wrap AS4 payload with SBDH: " ++ err.message)
  | _, payload => .ok payload

/-- The bytes of a part as they are signed. -/
def compressPart (lib : SendLibrary ρ) (policy : As4SendPolicy) (bytes : Bytes) : Bytes :=
  if policy.compress then compressGzip lib bytes 6 else bytes

/-- An additional part, transformed. -/
def extraPart (lib : SendLibrary ρ) (inputs : DraftInputs) (part : As4AdditionalPayload)
    (index : Nat) : OutboundExtraPart :=
  ⟨part.contentId.getD (derivedContentId lib.digests inputs.messageId (index + 1)),
    part.mimeType, compressPart lib inputs.policy part.bytes, part.filename⟩

/-- The check that every part has a Content-ID of its own, `seen` being those before. -/
def checkContentIds (session : SessionContext) : List Str → List OutboundExtraPart → Result Unit
  | _, [] => .ok ()
  | seen, part :: parts => do
    Except.rejectIf (seen.contains part.contentId) (draftError session "as4_send_validate"
      .invalidInput ("duplicate payload Content-ID: " ++ part.contentId))
    checkContentIds session (part.contentId :: seen) parts

/-- The parts of a draft before encryption. -/
structure DraftParts where
  payload : Option Bytes
  contentId : Str
  mimeType : Str
  extra : List OutboundExtraPart
deriving DecidableEq, Repr

/-- The parts that the inputs make. -/
def draftParts (lib : SendLibrary ρ) (session : SessionContext) (inputs : DraftInputs) :
    Result DraftParts := do
  let payload ← wrapPayload lib session inputs
  Except.rejectIf (inputs.policy.encrypt ∧ ¬ inputs.policy.sign) (draftError session
    "as4_send_encrypt" .policyViolation
    "AS4 encryption requires a signed message (sign, then encrypt)")
  let payloadToSend := payload.map (compressPart lib inputs.policy)
  let mimeType := inputs.overrideMimeType.getD
    (if inputs.policy.encrypt then .lit "application/xml" else .lit "application/octet-stream")
  let contentId := inputs.overrideContentId.getD (derivedContentId lib.digests inputs.messageId 0)
  let extra := inputs.additionalPayloads.zipIdx.map fun (part, index) =>
    extraPart lib inputs part index
  checkContentIds session [contentId] extra
  pure ⟨payloadToSend, contentId, mimeType, extra⟩

/-! ## The envelope -/

/-- `eb:Timestamp`: the caller's, or the time of the draft. -/
def DraftInputs.messageTimestamp (inputs : DraftInputs) (now : SystemTime) : Str :=
  inputs.timestamp.getD (formatRfc3339Secs now)

/-- The `envelope_builder` of `draft_send`. -/
def envelopeBuilder (session : SessionContext) (inputs : DraftInputs) (parts : DraftParts)
    (messageTimestamp : Str) : SoapEnvelopeBuilder :=
  let policy := inputs.policy
  let fourCorner := policy.originalSender.isSome || policy.finalRecipient.isSome ||
    policy.trackingIdentifier.isSome || policy.sbdhHeader.isSome
  let compressionType := if policy.compress then some as4CompressionType else none
  let new := SoapEnvelopeBuilder.new inputs.messageId (policy.fromPartyId.getD session.sessionId)
    (policy.toPartyId.getD session.partnerId)
  { new with
    messageTimestamp := some messageTimestamp
    fromPartyIdType := policy.fromPartyIdType
    toPartyIdType := policy.toPartyIdType
    fromRole := policy.fromRole
    toRole := policy.toRole
    agreementRef := policy.agreementRef
    agreementRefType := if policy.agreementRef.isSome then policy.agreementRefType else none
    action := policy.action
    service := policy.service
    serviceType := policy.serviceType
    conversationId := policy.conversationId
    refToMessageId := policy.refToMessageId
    messageProperties := fourCorner || !session.profileBuilt
    originalSender := if fourCorner || !session.profileBuilt
      then policy.originalSender.getD session.sessionId else new.originalSender
    finalRecipient := if fourCorner || !session.profileBuilt
      then policy.finalRecipient.getD session.partnerId else new.finalRecipient
    trackingIdentifier := if fourCorner || !session.profileBuilt
      then policy.trackingIdentifier.getD inputs.messageId else new.trackingIdentifier
    detachedPayloadReference := parts.payload.isSome
    primary := if parts.payload.isSome then ⟨parts.contentId, parts.mimeType, compressionType⟩
      else new.primary
    extraPartInfos := parts.extra.map fun part => ⟨part.contentId, part.mimeType, compressionType⟩
    wsAddressing := policy.wsAddressing }

/-- The `build_failed` of `draft_send`. -/
def buildFailed (session : SessionContext) (err : AsxError) : AsxError :=
  if err.code = .invalidInput then err
  else draftError session "as4_soap_builder" .parseFailed "failed to build SOAP envelope: "

/-- The references of the signature: the `eb:Messaging`, the body and every part. -/
def referenceUris (parts : DraftParts) : List Str :=
  [('#' : Char) :: messagingWsuId, '#' :: soapBodyWsuId] ++
    (if parts.payload.isSome then [Str.lit "cid:" ++ parts.contentId] else []) ++
    parts.extra.map fun part => Str.lit "cid:" ++ part.contentId

/-- What the references to the parts digest. -/
def externalReferences (lib : SendLibrary ρ) (policy : As4SendPolicy) (parts : DraftParts) :
    Result (List (Str × Bytes)) := do
  let primary ← parts.payload.toList.mapM fun bytes => do
    let input ← swaAttachmentDigestInput lib.roxmltree
      (some (partPlainContentType policy parts.mimeType)) bytes
    pure (Str.lit "cid:" ++ parts.contentId, input)
  let extra ← parts.extra.mapM fun part => do
    let input ← swaAttachmentDigestInput lib.roxmltree
      (some (partPlainContentType policy part.mimeType)) part.bytes
    pure (Str.lit "cid:" ++ part.contentId, input)
  pure (primary ++ extra)

/-- `DraftEnvelope`. -/
inductive DraftEnvelope where
  | unsigned (xml : Str)
  | signed (envelope : UnsignedEnvelope) (prepared : PreparedSignature) (chainDer : List Bytes)
deriving DecidableEq, Repr

/-- The envelope of a draft, prepared for its signature. -/
def draftEnvelope (lib : SendLibrary ρ) (session : SessionContext) (inputs : DraftInputs)
    (parts : DraftParts) (messageTimestamp : Str) : Result DraftEnvelope :=
  let builder := envelopeBuilder session inputs parts messageTimestamp
  if inputs.policy.sign then do
    let signer ← Except.okOr inputs.signer (draftError session "as4_send_sign" .policyViolation
      "AS4 signing key is missing")
    Except.rejectIf (signer.2 = []) (draftError session "as4_send_sign" .policyViolation
      "AS4 signing certificate is missing")
    let envelope ← builder.buildWithSecuritySlot.mapError (buildFailed session)
    let external ← externalReferences lib inputs.policy parts
    let prepared ← prepareEnvelopeSignature lib.roxmltree lib.digests envelope.text
      (referenceUris parts) external signer.1
    pure (.signed envelope prepared signer.2)
  else do
    let built ← builder.build.mapError (buildFailed session)
    pure (.unsigned built)

/-! ## Encryption -/

/-- The parts given to the encryption. -/
def outboundParts (policy : As4SendPolicy) (parts : DraftParts) : List OutboundPart :=
  (parts.payload.toList.map fun plaintext =>
    ⟨parts.contentId, partPlainContentType policy parts.mimeType, plaintext⟩) ++
  parts.extra.map fun part =>
    ⟨part.contentId, partPlainContentType policy part.mimeType, part.bytes⟩

/-- Put the encrypted bodies in place of the parts' bytes. -/
def DraftParts.withBodies (parts : DraftParts) (bodies : List Bytes) : DraftParts :=
  let rest := if parts.payload.isSome then bodies.drop 1 else bodies
  { parts with
    payload := if parts.payload.isSome then bodies.head? else none
    extra := parts.extra.zipWith OutboundExtraPart.withBody rest ++ parts.extra.drop rest.length }

/-- The encryption of a draft: the header and the parts as they are sent. -/
def encryptDraft (lib : SendLibrary ρ) (session : SessionContext) (random : ρ)
    (inputs : DraftInputs) (recipientCert : Option Bytes) (parts : DraftParts) :
    Result (Option Str × DraftParts) :=
  if inputs.policy.encrypt then do
    let recipient ← Except.okOr recipientCert (draftError session "as4_send_encrypt"
      .policyViolation "AS4 recipient certificate is missing")
    let envelope ← lib.encryptAttachments random (outboundParts inputs.policy parts) recipient
      inputs.policy.recipientForm inputs.policy.outboundXmlencPayloadAlgorithm
      (envelopeIdSeed lib.digests inputs.messageId)
    match envelope with
    | some envelope => pure (some envelope.header, parts.withBodies envelope.bodies)
    | none => pure (none, parts)
  else .ok (none, parts)

/-! ## Drafts -/

/-- `SendDraft`; what is only handed on from the inputs is left out. -/
structure SendDraft where
  envelope : DraftEnvelope
  parts : DraftParts
  encryption : Option Str
deriving DecidableEq, Repr

/-- `SendDraft::to_sign`. -/
def SendDraft.toSign (draft : SendDraft) : Option (SignatureAlgorithm × Bytes) :=
  match draft.envelope with
  | .unsigned _ => none
  | .signed _ prepared _ => some (prepared.algorithm, prepared.canonicalSignedInfo)

/-- `draft_send` at the time `now` with the randomness `random`. -/
def draftSend (lib : SendLibrary ρ) (session : SessionContext) (now : SystemTime) (random : ρ)
    (inputs : DraftInputs) (recipientCert : Option Bytes)
    (signingKeyPresent signingCertPresent : Bool) : Result SendDraft := do
  validateDraft session inputs recipientCert signingKeyPresent signingCertPresent
  let parts ← draftParts lib session inputs
  let envelope ← draftEnvelope lib session inputs parts (inputs.messageTimestamp now)
  let sent ← encryptDraft lib session random inputs recipientCert parts
  pure ⟨envelope, sent.2, sent.1⟩

end

end Asx
