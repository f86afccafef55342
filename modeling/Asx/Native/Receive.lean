import Asx.Native.Payload

/-!
# The inbound path

`as4/receive/metadata.rs` and `as4/receive/processing.rs`: an inbound body is authenticated,
and after the revocation check opened. The two steps parse the body each on its own; the
clock is read by each of them.
-/

namespace Asx

open Xml

/-- What the receive path takes from libraries. -/
structure As4Library where
  roxmltree : Roxmltree
  pki : Pki
  ops : XmlEncOps

/-- `SenderAuthorizer`: what the claimed sender may sign with. -/
abbrev SenderAuthorizer := ParsedAs4UserMessage → Result SenderAuthorization

/-- `bytes_to_utf8_str`. -/
def bytesToUtf8Str (bytes : Bytes) (stage : Str) (session : SessionContext) : Result Str :=
  Except.okOr (Str.fromUtf8 bytes)
    ⟨.parseFailed, stage ++ ": payload is not valid UTF-8", .forSession stage session⟩

/-- `parse_as4_user_message_document`. -/
def parseAs4UserMessageDocument (roxmltree : Roxmltree) (xml : Str) (session : SessionContext) :
    Result Document :=
  (parseXml roxmltree xml .envelope "as4_parse_user_message").mapError fun err =>
    ⟨.parseFailed, "failed to parse AS4 SOAP envelope: " ++ err.message,
      .forSession "as4_parse_user_message" session⟩

/-- `sender_party_id`; the parser never leaves the list empty. -/
def ParsedAs4UserMessage.senderPartyId (p : ParsedAs4UserMessage) : Str := p.fromPartyIds.headD []

/-- `to_party_id`; the parser never leaves the list empty. -/
def ParsedAs4UserMessage.toPartyId (p : ParsedAs4UserMessage) : Str := p.toPartyIds.headD []

/-! ## Reading the body -/

/-- The parsed body: the MIME parts, the text of the envelope and its document. -/
structure InboundBody where
  multipart : Option MultipartAs4Payload
  xml : Str
  doc : Document

/-- The first steps of both halves of the receive path. -/
def readInboundBody (lib : As4Library) (session : SessionContext) (body : Bytes)
    (contentType : Str) : Result InboundBody := do
  let multipart ← extractMultipartRelatedPayloadIfPresent body contentType session
    "as4_receive_push"
  let xml ← bytesToUtf8Str ((multipart.map (·.soapXml)).getD body) "as4_receive_push" session
  let doc ← parseAs4UserMessageDocument lib.roxmltree xml session
  pure ⟨multipart, xml, doc⟩

/-! ## The verified header -/

/-- `VerifiedHeader`. -/
structure VerifiedHeader where
  soapXml : Str
  parsed : ParsedAs4UserMessage
  declared : List Str
  partProperties : PartProperties
  signature : Option VerifiedSignatureCoverage

/-- The coverage of the declared parts, when there is a signature. -/
def enforceDeclaredCoverage (session : SessionContext) (messageId : Str) (declared : List Str) :
    Option VerifiedSignatureCoverage → Result Unit
  | some signature => enforceAttachmentSignatureCoverage session messageId declared signature
  | none => .ok ()

/-- `parse_and_verify_receive_push_metadata`, with an authorizer. -/
def parseAndVerifyReceivePushMetadata (lib : As4Library) (session : SessionContext)
    (policy : As4PushPolicy) (chainPolicy : ChainPolicy) (now : SystemTime) (body : Bytes)
    (contentType : Str) (authorize : SenderAuthorizer) : Result VerifiedHeader := do
  let inbound ← readInboundBody lib session body contentType
  let parsed ← parseAs4UserMessageFromDoc session inbound.doc
  let authorization ← authorize parsed
  let signature ← verifySecurity lib.pki session policy chainPolicy now inbound.doc
    parsed.messageId [] parsed.senderPartyId authorization
  let declared ← declaredParts session inbound.doc parsed.messageId
  enforceDeclaredCoverage session parsed.messageId declared signature
  let partProperties ← partProperties session inbound.doc parsed.messageId
  pure ⟨inbound.xml, parsed, declared, partProperties, signature⟩

/-! ## Authentication -/

/-- `As4NriReference`. -/
structure As4NriReference where
  uri : Str
  digestMethodUri : Str
  digestValueB64 : Str
deriving DecidableEq, Repr

/-- `parse_signature_references_from_doc`. -/
def parseSignatureReferencesFromDoc (doc : Document) : Result (List WsSecSignatureReference) := do
  let signature? ← findSingleSignatureNode doc "wssec_parse_references"
  let signature ← Except.okOr signature?
    ⟨.parseFailed, "no ds:Signature elements found", .new "wssec_parse_references"⟩
  let signedInfo ← Except.okOr (dsChild? signature "SignedInfo")
    ⟨.parseFailed, "ds:Signature missing ds:SignedInfo", .new "wssec_parse_references"⟩
  Except.rejectIf ((dsChild? signature "SignatureValue").bind trimmedText?).isNone
    ⟨.securityVerificationFailed, "ds:Signature missing non-empty ds:SignatureValue",
      .new "wssec_parse_references"⟩
  parseSignatureReferencesFromSignedInfo signedInfo .userMessage

/-- `parse_signature_references`. -/
def parseSignatureReferences (roxmltree : Roxmltree) (xml : Str) :
    Result (List WsSecSignatureReference) := do
  let doc ← (parseXml roxmltree xml .envelope "wssec_parse_references").mapError fun err =>
    ⟨.parseFailed, "failed to parse XML while reading signature references: " ++ err.message,
      .new "wssec_parse_references"⟩
  parseSignatureReferencesFromDoc doc

/-- `AuthenticatedInbound`. -/
structure AuthenticatedInbound where
  parsed : ParsedAs4UserMessage
  declared : List Str
  partProperties : PartProperties
  deferred : List PendingCidReference
  signerDer : Bytes
  references : List (Str × Str × Str)
  nri : List As4NriReference
  signerPath : List Bytes

/-- Whether the header is addressed to another party than this one. -/
def notThisParty (parsed : ParsedAs4UserMessage) (localId : Str) (localType : Option Str) : Bool :=
  parsed.toPartyId != localId ||
    (match parsed.toPartyType, localType with
      | some theirs, some ours => theirs != ours
      | _, _ => false)

/-- `authenticate_inbound`. -/
def authenticateInbound (lib : As4Library) (session : SessionContext) (policy : As4PushPolicy)
    (chainPolicy : ChainPolicy) (now : SystemTime) (body : Bytes) (contentType : Str)
    (authorize : SenderAuthorizer) (localId : Str) (localType : Option Str) :
    Result AuthenticatedInbound := do
  let header ← parseAndVerifyReceivePushMetadata lib session policy chainPolicy now body
    contentType authorize
  let messageId := header.parsed.messageId
  let signature ← Except.okOr header.signature (receiveError session messageId
    .securityVerificationFailed "AS4 push message signature is required but not present")
  Except.rejectIf (notThisParty header.parsed localId localType) ⟨.interopViolation,
    "eb:To/eb:PartyId " ++ Str.debug header.parsed.toPartyId ++ " is not this party (" ++
      Str.debug localId ++ ")",
    .forSessionWithMessage "as4_inbound_to_party" session messageId⟩
  let deferred ← Except.okOr signature.deferred (receiveError session messageId
    .securityVerificationFailed "the attachment references were not deferred")
  let references ← parseSignatureReferences lib.roxmltree header.soapXml
  let nri := references.map fun r =>
    As4NriReference.mk r.uri r.digestMethod.algorithmUri r.digestValueBase64
  let signerDer ← Except.okOr signature.signerCertificateDer (receiveError session messageId
    .securityVerificationFailed "the verified signature names no signer certificate")
  pure
    { parsed := header.parsed
      declared := header.declared
      partProperties := header.partProperties
      deferred, signerDer, nri
      references := signature.references
      signerPath := signature.signerPath }

/-! ## Opening -/

/-- Whole seconds of a duration in nanoseconds (`Duration::as_secs`). -/
def durationSecs (d : Nat) : Int := d / 1000000000

/-- The `refused` of `check_timestamp_freshness`. -/
def freshnessError (messageId detail : Str) : AsxError :=
  ⟨.securityVerificationFailed, "eb:Timestamp " ++ detail ++
    "; message rejected to prevent replay",
    (ErrorContext.new "as4_timestamp_freshness").withMessageId messageId⟩

/-- `check_timestamp_freshness`. -/
def checkTimestampFreshness (parsed : ParsedAs4UserMessage) (window : TimestampWindow)
    (now : SystemTime) : Result Unit :=
  match parsed.timestamp with
  | none => .ok ()
  | some text => do
    let tsSecs ← Except.okOr (parseRfc3339ToUnixSecs text) ⟨.parseFailed,
      "eb:Timestamp value '" ++ text ++ "' is not a valid RFC 3339 timestamp",
      .new "as4_timestamp_freshness"⟩
    let nowSecs := unixSecs now
    let ahead := tsSecs - nowSecs
    let behind := nowSecs - tsSecs
    Except.rejectIf (ahead > durationSecs window.future) (freshnessError parsed.messageId
      ("is " ++ showInt ahead ++ " s in the future (allowed " ++
        showInt (durationSecs window.future) ++ " s)"))
    Except.rejectIf (behind > durationSecs window.past) (freshnessError parsed.messageId
      ("is " ++ showInt behind ++ " s old, beyond the duplicate-detection retention (" ++
        showInt (durationSecs window.past) ++ " s)"))

/-- `enforce_non_fragment_timestamp_freshness`. -/
def enforceTimestampFreshness (policy : As4PushPolicy) (parsed : ParsedAs4UserMessage)
    (now : SystemTime) : Result Unit :=
  match policy.timestampWindow with
  | some window => checkTimestampFreshness parsed window now
  | none => .ok ()

/-- `TEST_SERVICE`. -/
def testService : Str :=
  Str.lit "http://docs.oasis-open.org/ebxml-msg/ebms/v3.0/ns/core/200704/service"

/-- `TEST_ACTION`. -/
def testAction : Str :=
  Str.lit "http://docs.oasis-open.org/ebxml-msg/ebms/v3.0/ns/core/200704/test"

/-- Whether a message is for the test service. -/
def isTestService (parsed : ParsedAs4UserMessage) : Bool :=
  parsed.service == some testService && parsed.action == testAction

/-- `PATH_SWITCH_SERVICE`. -/
def pathSwitchService : Str := Str.lit "https://www.bdew.de/as4/communication/services/pathSwitch"

/-- `REQUEST_SWITCH_ACTION`. -/
def requestSwitchAction : Str :=
  Str.lit "https://www.bdew.de/as4/communication/actions/requestSwitch"

/-- `CONFIRM_SWITCH_ACTION`. -/
def confirmSwitchAction : Str :=
  Str.lit "https://www.bdew.de/as4/communication/actions/confirmSwitch"

/-- `PathSwitch`. -/
inductive PathSwitch where
  | request
  | confirm
deriving DecidableEq, Repr

/-- `classify_path_switch`. -/
def classifyPathSwitch (service action : Str) : Option PathSwitch :=
  if service ≠ pathSwitchService then none
  else if action = requestSwitchAction then some .request
  else if action = confirmSwitchAction then some .confirm
  else none

/-- Whether an authenticated message is taken as a path switch without a payload. -/
def isPathSwitch (policy : As4PushPolicy) (authenticated : AuthenticatedInbound) : Bool :=
  authenticated.declared.isEmpty && policy.acceptPathSwitch &&
    (classifyPathSwitch (authenticated.parsed.service.getD [])
      authenticated.parsed.action).isSome

/-- `VerifiedInbound`: a payload is its Content-ID, its bytes and its `MimeType`. -/
structure VerifiedInbound where
  parsed : ParsedAs4UserMessage
  payloads : List (Str × Bytes × Str)
  signerDer : Bytes
  references : List (Str × Str × Str)
  nri : List As4NriReference

/-- The refusal of a part that is not encrypted. -/
def notEncrypted (session : SessionContext) (messageId cid : Str) : AsxError :=
  receiveError session messageId .policyViolation ("inbound AS4 payload cid:" ++ cid ++
    " is not encrypted; the profile requires every payload part to be encrypted")

/-- Every declared part is encrypted. -/
def checkEncrypted (session : SessionContext) (messageId : Str) (declared : List Str)
    (envelope : ResolvedEnvelope) : Result Unit :=
  match declared.find? fun cid => !envelope.data.any (·.cid == cid) with
  | some plain => .error (notEncrypted session messageId plain)
  | none => .ok ()

/-- The envelope structure of `open_inbound`: what the header encrypts, which is every
    declared part. -/
def resolveInboundEnvelope (session : SessionContext) (policy : As4PushPolicy)
    (messageId : Str) (doc : Document) (declared : List Str) (suite : Suite) :
    Result ResolvedEnvelope := do
  let security ← Except.okOr
    ((doc.descendants.find? (isDsElement · "Signature")).bind Node.parent?)
    (receiveError session messageId .securityVerificationFailed
      "the verified signature has no wsse:Security header")
  let envelope? ← (resolveEnvelope doc security declared (some suite) maxInboundPayloads).mapError
    (·.withMessageId messageId)
  let envelope ← Except.okOr (envelope?.filter fun _ => policy.requireEncryptedInbound)
    (notEncrypted session messageId (declared.headD []))
  checkEncrypted session messageId declared envelope
  pure envelope

/-- The restored types of the encrypted parts. -/
def restoredTypes (session : SessionContext) (messageId : Str) (properties : PartProperties)
    (envelope : ResolvedEnvelope) : Result (List (Option Str)) :=
  envelope.data.mapM fun data => restoredType session messageId data.cid data.mimeType
    (properties.compression.get data.cid).isSome

/-- The ciphertexts of the encrypted parts. -/
def encryptedBodies (envelope : ResolvedEnvelope) (parts : List InboundAttachment) : List Bytes :=
  envelope.data.map fun d => ((parts.find? (·.contentId == d.cid)).map (·.bytes)).getD []

/-- The digest inputs of the decrypted parts. -/
def digestInputs (roxmltree : Roxmltree) (plaintexts : List Bytes) (restored : List (Option Str)) :
    Result (List Bytes) :=
  (plaintexts.zip restored).mapM fun p => swaAttachmentDigestInput roxmltree p.2 p.1

/-- `Vec::swap_remove`: the last element takes the place of the one removed. -/
def swapRemove {α : Type} (l : List α) (i : Nat) : Option (α × List α) :=
  match l[i]?, l.getLast? with
  | some a, some last => some (a, (l.set i last).dropLast)
  | _, _ => none

/-- The `position` and `swap_remove` of `open_inbound`; `none` where the `expect` fails. -/
def takeByCid (byCid : List (Str × Bytes)) (cid : Str) :
    Option ((Str × Bytes) × List (Str × Bytes)) :=
  (byCid.findIdx? fun p => p.1 == cid).bind (swapRemove byCid)

/-- The loop of `open_inbound` that decompresses the parts in declared order. The `expect` of
    the source is the error `coverage checked above`, which is never reached. -/
def decompressParts (ops : XmlEncOps) (session : SessionContext) (messageId : Str)
    (properties : PartProperties) :
    List (Str × Bytes) → List Str → Result (List (Str × Bytes × Str))
  | _, [] => .ok []
  | byCid, cid :: declared => do
    let (part, byCid) ← Except.okOr (takeByCid byCid cid) (receiveError session messageId
      .invalidInput "coverage checked above")
    let bytes ← decompressPayloadIfDeclared ops session part.1 properties.compression part.2
    let mimeType := (properties.mimeTypes.get part.1).getD "application/octet-stream"
    let rest ← decompressParts ops session messageId properties byCid declared
    pure ((part.1, bytes, mimeType) :: rest)

/-- The part of `open_inbound` that opens the declared parts. -/
def openParts (lib : As4Library) (session : SessionContext) (policy : As4PushPolicy)
    (authenticated : AuthenticatedInbound) (keys : RecipientKeys) (suite : Suite)
    (inbound : InboundBody) : Result (List (Str × Bytes × Str)) := do
  let messageId := authenticated.parsed.messageId
  let parts ← matchParts session messageId authenticated.declared inbound.multipart
  let envelope ← resolveInboundEnvelope session policy messageId inbound.doc
    authenticated.declared suite
  let restored ← restoredTypes session messageId authenticated.partProperties envelope
  let plaintexts ← (decryptAttachments lib.ops envelope (encryptedBodies envelope parts)
    keys).mapError (·.withMessageId messageId)
  let inputs ← digestInputs lib.roxmltree plaintexts restored
  let cids := envelope.data.map DataSpec.cid
  (verifyCidReferences lib.pki.digests authenticated.deferred (cids.zip inputs)).mapError
    (·.withMessageId messageId)
  decompressParts lib.ops session messageId authenticated.partProperties (cids.zip plaintexts)
    authenticated.declared

/-- The payloads that `open_inbound` delivers. -/
def inboundPayloads (lib : As4Library) (session : SessionContext) (policy : As4PushPolicy)
    (authenticated : AuthenticatedInbound) (keys : RecipientKeys) (suite : Suite)
    (inbound : InboundBody) : Result (List (Str × Bytes × Str)) :=
  if isTestService authenticated.parsed then .ok []
  else if isPathSwitch policy authenticated then do
    checkPayloadLess session authenticated.parsed.messageId inbound.doc inbound.multipart
    pure []
  else openParts lib session policy authenticated keys suite inbound

/-- `open_inbound`. -/
def openInbound (lib : As4Library) (session : SessionContext) (policy : As4PushPolicy)
    (now : SystemTime) (body : Bytes) (contentType : Str) (authenticated : AuthenticatedInbound)
    (keys : RecipientKeys) (suite : Suite) : Result VerifiedInbound := do
  enforceTimestampFreshness policy authenticated.parsed now
  let inbound ← readInboundBody lib session body contentType
  let payloads ← inboundPayloads lib session policy authenticated keys suite inbound
  pure
    { parsed := authenticated.parsed
      payloads
      signerDer := authenticated.signerDer
      references := authenticated.references
      nri := authenticated.nri }

end Asx
