import Asx.Native.Receive

/-!
# Verifying a receipt

The signal parser of `as4/parser.rs`, the coverage rule of `as4/services.rs` and
`as4/receipt_verify.rs`: the answer to a pushed message is a receipt or an error, and a
receipt is checked against the signature of the message that was sent. The classification of
a refusal that goes to the log is left out.
-/

namespace Asx

open Xml

namespace Ns

def ebbpSignals : Str := Str.lit "http://docs.oasis-open.org/ebxml-bp/ebbp-signals-2.0"

end Ns

/-! ## Parsing -/

/-- `As4ReceivedError`. -/
structure As4ReceivedError where
  errorCode : Str
  severity : Option Str
  category : Option Str
  origin : Option Str
  refToMessageId : Option Str
  shortDescription : Option Str
  description : Option Str
  errorDetail : Option Str
deriving DecidableEq, Repr

/-- `ParsedAs4SignalEnvelope`. -/
structure ParsedAs4SignalEnvelope where
  hasSignalMessage : Bool := false
  hasReceipt : Bool := false
  hasNonRepudiationInfo : Bool := false
  hasSignature : Bool := false
  messageId : Option Str := none
  refToMessageId : Option Str := none
  timestamp : Option Str := none
  nriReferences : List As4NriReference := []
  errors : List As4ReceivedError := []
deriving DecidableEq, Repr

/-- `MAX_SIGNAL_NRI_REFERENCES`. -/
def maxSignalNriReferences : Nat := 256

/-- `MAX_SIGNAL_ERRORS`. -/
def maxSignalErrors : Nat := 64

/-- `element_text`. -/
def elementText (n : Node) : Option Str :=
  let trimmed := Str.trim (descendantTextNodes n).flatten
  if trimmed = [] then none else some trimmed

/-- `signal_attribute`. -/
def signalAttribute (n : Node) (name : Str) : Option Str :=
  ((n.attribute? name).map Str.trim).filter (· ≠ [])

/-- The `parse_error` and `wrapping_error` of `parse_as4_signal_envelope`. -/
def signalError (session : SessionContext) (stage : Str) (code : ErrorCode) (message : Str) :
    AsxError :=
  ⟨code, message, .forSession stage session⟩

/-- The elements of a subtree with this ebMS3 name. -/
def ebDescendants (n : Node) (loc : Str) : List Node := n.descendants.filter (isEb · loc)

/-- One `eb:MessageInfo` child in the loop of `parse_as4_signal_envelope`: the slot it fills. -/
def fillSlot (session : SessionContext) (stage loc : Str) (slot : Option Str) (n : Node) :
    Result (Option Str) :=
  match elementText n with
  | none => .ok slot
  | some value => do
    Except.rejectIf slot.isSome (signalError session stage .securityVerificationFailed
      ("AS4 eb:SignalMessage contains more than one eb:" ++ loc ++ "; a repeated element makes " ++
        "the signal ambiguous (possible element injection)"))
    pure (some value)

/-- The round of the `eb:MessageInfo` loop for one `eb:MessageInfo`. -/
def readMessageInfo (session : SessionContext) (stage : Str) (out : ParsedAs4SignalEnvelope)
    (info : Node) : Result ParsedAs4SignalEnvelope := do
  let messageId ← (ebDescendants info "MessageId").foldlM (fillSlot session stage "MessageId")
    out.messageId
  let refToMessageId ← (ebDescendants info "RefToMessageId").foldlM
    (fillSlot session stage "RefToMessageId") out.refToMessageId
  let timestamp ← (ebDescendants info "Timestamp").foldlM (fillSlot session stage "Timestamp")
    out.timestamp
  pure { out with messageId, refToMessageId, timestamp }

/-- What a `ds:Reference` of the `NonRepudiationInformation` says, if it is complete. -/
def nriReference? (reference : Node) : Option As4NriReference := do
  let uri ← signalAttribute reference "URI"
  let method ← (reference.descendants.find? (isDsElement · "DigestMethod")).bind
    (signalAttribute · "Algorithm")
  let value ← (reference.descendants.find? (isDsElement · "DigestValue")).bind elementText
  some ⟨uri, method, value⟩

/-- One `ds:Reference` of a `NonRepudiationInformation`. -/
def addNriReference (session : SessionContext) (stage : Str) (refs : List As4NriReference)
    (reference : Node) : Result (List As4NriReference) := do
  Except.rejectIf (refs.length ≥ maxSignalNriReferences) (signalError session stage .parseFailed
    ("AS4 receipt NonRepudiationInformation exceeds the MessagePartNRInformation limit (" ++
      showNat maxSignalNriReferences ++ ")"))
  pure (refs ++ (nriReference? reference).toList)

/-- The `NonRepudiationInformation` elements of a receipt. -/
def nriNodes (receipt : Node) : List Node :=
  receipt.descendants.filter fun n => n.hasTagName Ns.ebbpSignals "NonRepudiationInformation" ||
    isEb n "NonRepudiationInformation"

/-- The round of the loop over the receipts. -/
def readReceipt (session : SessionContext) (stage : Str) (out : ParsedAs4SignalEnvelope)
    (receipt : Node) : Result ParsedAs4SignalEnvelope := do
  let references := (nriNodes receipt).flatMap fun nri =>
    nri.descendants.filter (isDsElement · "Reference")
  let nriReferences ← references.foldlM (addNriReference session stage) out.nriReferences
  pure { out with
    hasReceipt := true
    hasNonRepudiationInfo := out.hasNonRepudiationInfo || !(nriNodes receipt).isEmpty
    nriReferences }

/-- An `eb:Error`. -/
def readError (error : Node) : As4ReceivedError :=
  let childText := fun loc => ((error.descendants.find? (isEb · loc)).bind elementText)
  { errorCode := (signalAttribute error "errorCode").getD "unknown"
    severity := signalAttribute error "severity"
    category := signalAttribute error "category"
    origin := signalAttribute error "origin"
    refToMessageId := signalAttribute error "refToMessageId"
    shortDescription := signalAttribute error "shortDescription"
    description := childText "Description"
    errorDetail := childText "ErrorDetail" }

/-- What `parse_as4_signal_envelope` reads of the `eb:SignalMessage`. -/
def readSignal (session : SessionContext) (stage : Str) (hasSignature : Bool) (signal : Node) :
    Result ParsedAs4SignalEnvelope := do
  let out ← (ebDescendants signal "MessageInfo").foldlM (readMessageInfo session stage)
    { hasSignature, hasSignalMessage := true }
  let out ← (ebDescendants signal "Receipt").foldlM (readReceipt session stage) out
  pure { out with
    errors := ((ebDescendants signal "Error").take maxSignalErrors).map readError }

/-- The `eb:SignalMessage` elements of a document. -/
def signalNodes (doc : Document) : List Node := doc.descendants.filter (isEb · "SignalMessage")

/-- `parse_as4_signal_envelope`. -/
def parseAs4SignalEnvelope (doc : Document) (session : SessionContext) (stage : Str) :
    Result ParsedAs4SignalEnvelope := do
  let hasSignature := doc.descendants.any (isDsElement · "Signature")
  Except.rejectIf ((messagingNodes doc).length > 1) (signalError session stage
    .securityVerificationFailed ("AS4 signal envelope contains more than one eb:Messaging " ++
      "header block (possible XML signature wrapping)"))
  match signalNodes doc with
  | [] => pure { hasSignature }
  | [signal] => readSignal session stage hasSignature signal
  | _ => throw (signalError session stage .securityVerificationFailed
      ("AS4 signal envelope contains more than one eb:SignalMessage; bundled signals are not " ++
        "accepted because the acknowledgement cannot be unambiguously correlated to the sent " ++
        "message"))

/-! ## Coverage -/

/-- `enforce_signal_signature_coverage`. -/
def enforceSignalSignatureCoverage (session : SessionContext) (doc : Document)
    (stage messageId : Str) (coverage : VerifiedSignatureCoverage) : Result Unit :=
  match signalNodes doc with
  | [signal] =>
    Except.rejectIf (¬ (signal.ancestors.filterMap coverageId?).any
        (coverage.signedSameDocumentIds.contains ·))
      ⟨.securityVerificationFailed, "AS4 eb:SignalMessage is not covered by the verified " ++
        "WS-Security signature (possible XML signature wrapping); the acknowledgement asserts " ++
        "content the counterparty did not sign",
        .forSessionWithMessage stage session messageId⟩
  | nodes => .error ⟨.securityVerificationFailed,
      "AS4 signal must contain exactly one eb:SignalMessage (found " ++ showNat nodes.length ++ ")",
      .forSessionWithMessage stage session messageId⟩

/-! ## Verification -/

/-- The `STAGE` of `receipt_verify.rs`. -/
def syncResponseStage : Str := "as4_verify_sync_response"

/-- `As4ReceiptPolicy`; durations are in nanoseconds. -/
structure As4ReceiptPolicy where
  rejectUnexpectedReferences : Bool
  requireSignedReceipt : Bool
  requireNonRepudiation : Bool
  expectedSignerFingerprintSha256 : Option Str
  timestampFreshnessWindow : Option Nat
  maxReceiptBytes : Nat
deriving DecidableEq, Repr

/-- What the receipt check reads of `As4SendOutput`. -/
structure As4SendOutput where
  messageId : Str
  body : Bytes
  httpContentType : Str
deriving DecidableEq, Repr

/-- The `reject` of `receipt_verify.rs`. -/
def receiptError (session : SessionContext) (messageId : Str) (code : ErrorCode) (message : Str) :
    AsxError :=
  ⟨code, message, .forSessionWithMessage syncResponseStage session messageId⟩

/-- `CertFingerprint::parse`: the digest that 64 hexadecimal digits write. -/
def parseFingerprint (value : Str) : Result Bytes := do
  let digits := Str.utf8 (value.filter fun c =>
    Str.isAsciiDigit c || ('a' ≤ c && c ≤ 'f') || ('A' ≤ c && c ≤ 'F'))
  Except.rejectIf (digits.length ≠ 64) ⟨.invalidInput,
    "a SHA-256 certificate fingerprint has 64 hex digits, this one has " ++
      showNat digits.length ++ " — check for a truncated or SHA-1 value",
    .new "cert_fingerprint_parse"⟩
  hexOctets digits

/-- `session_signer_pins`, for the pins of the session and the fingerprint of its certificate. -/
def sessionSignerPins (session : SessionContext) (signerPins : List Bytes) (fingerprint : Str) :
    Result (List Bytes) :=
  if session.profileBuilt then .ok signerPins
  else
    let fp := Str.trim fingerprint
    if fp = [] then .ok []
    else
      match parseFingerprint fp with
      | .ok pin => .ok [pin]
      | .error err => .error ⟨.invalidInput, "session cert_handle.fingerprint_sha256 is a " ++
          "malformed signer pin: " ++ err.message, .forSession "as4_signer_pins" session⟩

/-- The pins of `verify_receipt_signature`. -/
def receiptPins (session : SessionContext) (policy : As4ReceiptPolicy) (messageId : Str)
    (sessionSignerPins : Result (List Bytes)) : Result (List Bytes) :=
  match policy.expectedSignerFingerprintSha256 with
  | none => sessionSignerPins
  | some raw =>
    if Str.trim raw = [] then .ok []
    else
      match parseFingerprint raw with
      | .ok fingerprint => .ok [fingerprint]
      | .error err => .error (receiptError session messageId .invalidInput
          ("As4ReceiptPolicy::expected_signer_fingerprint_sha256 is a malformed signer pin: " ++
            err.message))

/-- The options of the receipt's signature check. -/
def receiptVerifyOptions (pins : List Bytes) (chainPolicy : ChainPolicy) (now : SystemTime) :
    WsSecVerifyOptions :=
  { expectedCertFingerprints := pins
    signerCheck := none
    chainPolicy, now
    externalReferences := []
    deferAttachments := false }

/-- The signature check of `verify_receipt_signature`: an error of the verifier and a missing
    signature are both refusals of the receipt. -/
def verifiedReceiptCoverage (pki : Pki) (session : SessionContext) (messageId : Str)
    (doc : Document) (opts : WsSecVerifyOptions) : Result VerifiedSignatureCoverage :=
  match verifyEnvelopedSignatureOptionalWithDoc pki doc .signal opts with
  | .ok (some coverage) => .ok coverage
  | .ok none => .error (receiptError session messageId .securityVerificationFailed
      ("AS4 receipt contains a ds:Signature element that is not a verifiable WS-Security " ++
        "enveloped signature"))
  | .error err => .error (receiptError session messageId .securityVerificationFailed
      ("AS4 receipt signature verification failed: " ++ err.message))

/-- `VerifiedReceiptSigner`: the pinned fingerprint, the signer and its path. -/
structure VerifiedReceiptSigner where
  fingerprint : Option Str := none
  der : Option Bytes := none
  path : List Bytes := []
deriving DecidableEq, Repr

/-- What `verify_receipt_signature` does with a signature that is present. -/
def verifyPresentSignature (pki : Pki) (session : SessionContext) (policy : As4ReceiptPolicy)
    (chainPolicy : ChainPolicy) (sessionSignerPins : Result (List Bytes)) (now : SystemTime)
    (messageId : Str) (doc : Document) : Result VerifiedReceiptSigner := do
  let pins ← receiptPins session policy messageId sessionSignerPins
  Except.rejectIf (pins = []) (receiptError session messageId .policyViolation
    ("AS4 receipt signature verification requires a pinned signer certificate: set " ++
      "cert_handle.fingerprint_sha256 on the session or " ++
      "As4ReceiptPolicy::expected_signer_fingerprint_sha256"))
  let coverage ← verifiedReceiptCoverage pki session messageId doc
    (receiptVerifyOptions pins chainPolicy now)
  enforceSignalSignatureCoverage session doc syncResponseStage messageId coverage
  pure ⟨pins.head?.map hexLower, coverage.signerCertificateDer, coverage.signerPath⟩

/-- `verify_receipt_signature`. -/
def verifyReceiptSignature (pki : Pki) (session : SessionContext) (policy : As4ReceiptPolicy)
    (chainPolicy : ChainPolicy) (sessionSignerPins : Result (List Bytes)) (now : SystemTime)
    (messageId : Str) (doc : Document) (parsed : ParsedAs4SignalEnvelope) :
    Result VerifiedReceiptSigner :=
  if parsed.hasSignature then
    verifyPresentSignature pki session policy chainPolicy sessionSignerPins now messageId doc
  else do
    Except.rejectIf policy.requireSignedReceipt (receiptError session messageId
      .securityVerificationFailed ("AS4 receipt carries no ds:Signature but the policy " ++
        "requires Non-Repudiation of Receipt; set As4ReceiptPolicy::require_signed_receipt to " ++
        "false only for counterparties that do not sign receipts"))
    pure {}

/-- `check_receipt_freshness`. -/
def checkReceiptFreshness (session : SessionContext) (policy : As4ReceiptPolicy) (messageId : Str)
    (timestamp : Option Str) (now : SystemTime) : Result Unit :=
  match policy.timestampFreshnessWindow with
  | none => .ok ()
  | some window => do
    let timestamp ← Except.okOr timestamp (receiptError session messageId
      .securityVerificationFailed ("AS4 receipt has no eb:Timestamp, so it cannot be checked " ++
        "against the replay window; set As4ReceiptPolicy::timestamp_freshness_window to None " ++
        "only for counterparties that omit it and where replay is bounded elsewhere"))
    let tsSecs ← Except.okOr (parseRfc3339ToUnixSecs timestamp) (receiptError session messageId
      .parseFailed ("AS4 receipt eb:Timestamp '" ++ timestamp ++
        "' is not a valid RFC 3339 timestamp"))
    let delta := (unixSecs now - tsSecs).natAbs
    Except.rejectIf (durationSecs window < delta) (receiptError session messageId
      .securityVerificationFailed ("AS4 receipt eb:Timestamp is outside the freshness window " ++
        "(delta=" ++ showNat delta ++ "s, allowed=" ++ showInt (durationSecs window) ++
        "s); receipt rejected to prevent replay"))

/-! ## Non-repudiation of receipt -/

/-- `As4NonRepudiation`. -/
inductive As4NonRepudiation where
  | verified (references : List As4NriReference)
  | notProvided
deriving DecidableEq, Repr

/-- `From<WsSecSignatureReference> for As4NriReference`. -/
def WsSecSignatureReference.toNri (r : WsSecSignatureReference) : As4NriReference :=
  ⟨r.uri, r.digestMethod.algorithmUri, r.digestValueBase64⟩

/-- `sent_signature_references`. -/
def sentSignatureReferences (roxmltree : Roxmltree) (session : SessionContext) (messageId : Str)
    (sent : As4SendOutput) : Result (List As4NriReference) := do
  let multipart ← extractMultipartRelatedPayloadIfPresent sent.body sent.httpContentType session
    syncResponseStage
  let soap ← bytesToUtf8Str ((multipart.map (·.soapXml)).getD sent.body) syncResponseStage session
  let refs ← (parseSignatureReferences roxmltree soap).mapError fun err =>
    ⟨.invalidInput, "cannot verify Non-Repudiation of Receipt: the sent message carries no " ++
      "readable ds:Signature to compare digests against (" ++ err.message ++ "); unsigned sends " ++
      "cannot produce NRR evidence, so set As4ReceiptPolicy::require_non_repudiation to false " ++
      "for them", .forSessionWithMessage syncResponseStage session messageId⟩
  Except.rejectIf (refs = []) (receiptError session messageId .invalidInput
    ("cannot verify Non-Repudiation of Receipt: the sent message's ds:SignedInfo contains no " ++
      "ds:Reference elements"))
  pure (refs.map WsSecSignatureReference.toNri)

/-- The loop of `verify_non_repudiation` that refuses a repeated URI, after the entries in
    `earlier`. -/
def checkDistinctUris (session : SessionContext) (messageId : Str) :
    List As4NriReference → List As4NriReference → Result Unit
  | _, [] => .ok ()
  | earlier, reference :: rest => do
    Except.rejectIf (earlier.any fun e => e.uri == reference.uri) (receiptError session messageId
      .securityVerificationFailed ("AS4 receipt lists ebbpsig:MessagePartNRInformation for URI '" ++
        reference.uri ++ "' more than once"))
    checkDistinctUris session messageId (earlier ++ [reference]) rest

/-- One round of the loop of `verify_non_repudiation` over the sent references. -/
def checkEchoed (session : SessionContext) (messageId : Str) (receiptRefs : List As4NriReference)
    (sentRef : As4NriReference) : Result Unit := do
  let echoed ← Except.okOr (receiptRefs.find? fun c => c.uri == sentRef.uri) (receiptError session
    messageId .securityVerificationFailed ("AS4 receipt does not echo a ds:Reference for '" ++
      sentRef.uri ++ "'; the counterparty acknowledged only part of the signed message"))
  Except.rejectIf (echoed.digestMethodUri ≠ sentRef.digestMethodUri) (receiptError session
    messageId .securityVerificationFailed ("AS4 receipt echoes ds:Reference '" ++ sentRef.uri ++
      "' with digest algorithm '" ++ echoed.digestMethodUri ++ "' but the sent message used '" ++
      sentRef.digestMethodUri ++ "'"))
  let echoedDigest ← decodeXmlBase64 echoed.digestValueB64
    "receipt MessagePartNRInformation DigestValue" "as4_receipt_non_repudiation"
  let sentDigest ← decodeXmlBase64 sentRef.digestValueB64 "sent message DigestValue"
    "as4_receipt_non_repudiation"
  Except.rejectIf (echoedDigest ≠ sentDigest) (receiptError session messageId
    .securityVerificationFailed ("AS4 receipt digest for ds:Reference '" ++ sentRef.uri ++
      "' does not match the digest the sent message was signed over; the acknowledgement refers " ++
      "to different bytes than were sent"))

/-- The check of `verify_non_repudiation` for entries that were not sent. -/
def checkUnexpected (session : SessionContext) (policy : As4ReceiptPolicy) (messageId : Str)
    (sentRefs receiptRefs : List As4NriReference) : Result Unit :=
  match receiptRefs.find? fun c => !sentRefs.any fun s => s.uri == c.uri with
  | some unexpected =>
    Except.rejectIf policy.rejectUnexpectedReferences (receiptError session messageId
      .interopViolation ("AS4 receipt echoes ebbpsig:MessagePartNRInformation for '" ++
        unexpected.uri ++ "', which the sent message never signed"))
  | none => .ok ()

/-- `verify_non_repudiation`. -/
def verifyNonRepudiation (roxmltree : Roxmltree) (session : SessionContext)
    (policy : As4ReceiptPolicy) (messageId : Str) (sent : As4SendOutput)
    (receiptRefs : List As4NriReference) : Result As4NonRepudiation :=
  if receiptRefs = [] then do
    Except.rejectIf policy.requireNonRepudiation (receiptError session messageId
      .securityVerificationFailed ("AS4 receipt carries no ebbpsig:MessagePartNRInformation " ++
        "digests, so it is not Non-Repudiation of Receipt evidence for the sent message; set " ++
        "As4ReceiptPolicy::require_non_repudiation to false only for counterparties that " ++
        "acknowledge without NRR"))
    pure .notProvided
  else do
    let sentRefs ← sentSignatureReferences roxmltree session messageId sent
    checkDistinctUris session messageId [] receiptRefs
    forM sentRefs (checkEchoed session messageId receiptRefs)
    checkUnexpected session policy messageId sentRefs receiptRefs
    pure (.verified receiptRefs)

/-! ## The answer to a pushed message -/

/-- `As4ErrorSignal`. -/
structure As4ErrorSignal where
  messageId : Option Str
  refToMessageId : Option Str
  timestamp : Option Str
  errors : List As4ReceivedError
deriving DecidableEq, Repr

/-- `As4VerifiedReceipt`. -/
structure As4VerifiedReceipt where
  messageId : Option Str
  refToMessageId : Str
  timestamp : Option Str
  signed : Bool
  signerFingerprintSha256 : Option Str
  nonRepudiation : As4NonRepudiation
deriving DecidableEq, Repr

/-- `As4SyncSignal`. -/
inductive As4SyncSignal where
  | receipt (receipt : As4VerifiedReceipt)
  | error (signal : As4ErrorSignal)
deriving DecidableEq, Repr

/-- `extract_signal_soap`. -/
def extractSignalSoap (session : SessionContext) (responseBody : Bytes) (contentType : Str)
    (policy : As4ReceiptPolicy) : Result Str := do
  Except.rejectIf (responseBody = []) ⟨.parseFailed,
    "AS4 synchronous response body is empty; the One-Way/Push MEP with Reception Awareness " ++
      "requires an eb:Receipt or eb:Error on the same connection. A counterparty using the " ++
      "asynchronous MEP should be handled through the inbound receive path instead",
    .forSession syncResponseStage session⟩
  Except.rejectIf (responseBody.length > policy.maxReceiptBytes) ⟨.payloadTooLarge,
    "payload exceeds configured max bytes: " ++ showNat responseBody.length ++ " > " ++
      showNat policy.maxReceiptBytes, .new syncResponseStage⟩
  let multipart ← extractMultipartRelatedPayloadIfPresent responseBody contentType session
    syncResponseStage
  bytesToUtf8Str ((multipart.map (·.soapXml)).getD responseBody) syncResponseStage session

/-- The message ids that an error signal names. -/
def As4ErrorSignal.correlations (signal : As4ErrorSignal) : List Str :=
  signal.refToMessageId.toList ++ signal.errors.filterMap (·.refToMessageId)

/-- The error branch of `verify_sync_response_inner`. -/
def acceptErrorSignal (session : SessionContext) (sent : As4SendOutput)
    (signal : As4ErrorSignal) : Result As4SyncSignal := do
  let quoted := signal.correlations.map fun c => ("'" : Str) ++ c ++ "'"
  Except.rejectIf (signal.correlations ≠ [] ∧ sent.messageId ∉ signal.correlations)
    (receiptError session sent.messageId .interopViolation ("AS4 eb:Error signal correlates to " ++
      List.intercalate ", " quoted ++ " but the sent message id is '" ++ sent.messageId ++
      "'; refusing to attribute another message's rejection to this one"))
  pure (.error signal)

/-- What `verify_sync_response_inner` takes besides the response. -/
structure ReceiptContext where
  roxmltree : Roxmltree
  pki : Pki
  session : SessionContext
  policy : As4ReceiptPolicy
  chainPolicy : ChainPolicy
  /-- The `signer_pins` of the session. -/
  signerPins : List Bytes
  /-- The `fingerprint_sha256` of the session's certificate. -/
  certFingerprint : Str

/-- The receipt branch of `verify_sync_response_inner`. -/
def acceptReceipt (ctx : ReceiptContext) (now : SystemTime) (sent : As4SendOutput)
    (doc : Document) (parsed : ParsedAs4SignalEnvelope) :
    Result (As4SyncSignal × VerifiedReceiptSigner) := do
  let refused := receiptError ctx.session sent.messageId
  let refToMessageId ← Except.okOr parsed.refToMessageId (refused .parseFailed
    ("AS4 receipt is missing eb:RefToMessageId; the acknowledgement cannot be correlated to " ++
      "the sent message"))
  Except.rejectIf (refToMessageId ≠ sent.messageId) (refused .interopViolation
    ("AS4 receipt eb:RefToMessageId '" ++ refToMessageId ++
      "' does not match the sent message id '" ++ sent.messageId ++ "'"))
  let signer ← verifyReceiptSignature ctx.pki ctx.session ctx.policy ctx.chainPolicy
    (sessionSignerPins ctx.session ctx.signerPins ctx.certFingerprint) now sent.messageId doc parsed
  checkReceiptFreshness ctx.session ctx.policy sent.messageId parsed.timestamp now
  let nonRepudiation ← verifyNonRepudiation ctx.roxmltree ctx.session ctx.policy sent.messageId
    sent parsed.nriReferences
  pure (.receipt ⟨parsed.messageId, refToMessageId, parsed.timestamp, parsed.hasSignature,
    signer.fingerprint, nonRepudiation⟩, signer)

/-- `verify_sync_response_inner`: the signal, and its signer. -/
def verifySyncResponse (ctx : ReceiptContext) (now : SystemTime) (sent : As4SendOutput)
    (responseBody : Bytes) (contentType : Str) :
    Result (As4SyncSignal × VerifiedReceiptSigner) := do
  let refused := receiptError ctx.session sent.messageId
  let soap ← extractSignalSoap ctx.session responseBody contentType ctx.policy
  let doc ← (parseXml ctx.roxmltree soap .envelope syncResponseStage).mapError fun err =>
    ⟨.parseFailed, "failed to parse AS4 signal message: " ++ err.message,
      .forSession syncResponseStage ctx.session⟩
  let parsed ← parseAs4SignalEnvelope doc ctx.session syncResponseStage
  Except.rejectIf (parsed.hasSignalMessage = false) (refused .parseFailed
    ("AS4 synchronous response carries no eb:SignalMessage; expected an eb:Receipt or eb:Error " ++
      "per the One-Way/Push MEP"))
  Except.rejectIf (parsed.hasReceipt ∧ parsed.errors ≠ []) (refused .interopViolation
    ("AS4 eb:SignalMessage carries both an eb:Receipt and an eb:Error; the counterparty's " ++
      "intent is ambiguous and the message is neither confirmed delivered nor confirmed " ++
      "rejected"))
  if parsed.errors ≠ [] then
    let signal ← acceptErrorSignal ctx.session sent
      ⟨parsed.messageId, parsed.refToMessageId, parsed.timestamp, parsed.errors⟩
    pure (signal, {})
  else
    Except.rejectIf (parsed.hasReceipt = false) (refused .parseFailed
      "AS4 eb:SignalMessage carries neither eb:Receipt nor eb:Error")
    acceptReceipt ctx now sent doc parsed

end Asx
