import Asx.ForStd.Interact
import Asx.Native.Dedup
import Asx.Native.Receive

/-!
# The receive endpoints

`as4/inbound.rs` and `as2/inbound.rs`: what happens to a request between its verification and
its response. The handlers are written over the calls they await, in the order they await
them: verification, the claim, the audit record, the application, the receipt or MDN, the
audit sink and the settling of the claim. An answer is whatever the callee returns.

Left out are the headers of the response, the SOAP body of an `eb:Error` (its fields are
kept) and the tracing of a failed `abandon`.
-/

namespace Asx

open Interact

/-! ## Audit records -/

/-- `AuditDurability`. -/
inductive AuditDurability where
  | bestEffort
  | durable
deriving DecidableEq, Repr

/-- `Signal`, as the receive path fills it: the bytes and the message it acknowledges. -/
structure AuditSignal where
  bytes : Bytes
  refToMessageId : Str
deriving DecidableEq, Repr

/-- What the receive path puts into a `RecordBuilder`. -/
structure RecordBuilder where
  protocol : DedupProtocol
  messageId : Str
  localParty : Str
  partner : Str
  refToMessageId : Option Str := none
  conversationId : Option Str := none
  profile : Option Str := none
  service : Option Str := none
  action : Option Str := none
  messageTimestamp : Option Str := none
  signerDer : Option Bytes := none
  references : List (Str × Str × Str) := []
  mic : Option (Str × Bytes) := none
  disposition : Option Str := none
  signal : Option AuditSignal := none
deriving DecidableEq, Repr

/-- `AuditRecord`: a builder's fields under the identity `finish` stamps on them. -/
structure AuditRecord where
  recordId : Str
  fields : RecordBuilder
deriving DecidableEq, Repr

/-! ## Messages, signals and responses -/

/-- `Fault`. -/
inductive Fault where
  | deliveryFailure
  | permanent
  | notServiced
deriving DecidableEq, Repr

/-- `UserMessage`; a payload is its bytes and its type. -/
structure UserMessage where
  messageId : Str
  conversationId : Str
  sender : Str
  service : Str
  action : Str
  payloads : List (Bytes × Str)
  pathSwitch : Option PathSwitch
deriving DecidableEq, Repr

/-- `Received`. -/
structure Received where
  messageId : Str
  sender : Str
  payload : Bytes × Str
deriving DecidableEq, Repr

/-- What the application is given. -/
inductive InboundMessage where
  | as4 (message : UserMessage)
  | as2 (message : Received)
deriving DecidableEq, Repr

/-- A signal to build and sign: a receipt for a message, or an MDN. -/
inductive SignalDraft where
  | receipt (messageId : Str) (nri : List As4NriReference)
  | mdn (messageId disposition text : Str) (mic : Option Str)
deriving DecidableEq, Repr

/-- The fields of an `eb:Error` signal. -/
structure EbError where
  refTo : Option Str
  code : Str
  short : Str
  category : Str
  description : Str
  detail : Option Str
deriving DecidableEq, Repr

/-- An HTTP response. -/
inductive InboundResponse where
  | receipt (body : Bytes)
  | ebError (status : Nat) (error : EbError)
  | mdn (status : Nat) (disposition : Str) (body : Bytes)
  | empty (status : Nat)
deriving DecidableEq, Repr

/-- `ReceiveOutcome`. -/
inductive ReceiveOutcome where
  | accepted
  | duplicate
  | inFlight
  | rejected
  | storage
deriving DecidableEq, Repr

/-- `Answer`, of both protocols; `code` is AS4's. -/
structure InboundAnswer where
  response : InboundResponse
  outcome : ReceiveOutcome
  messageId : Option Str
  err : Option AsxError
  code : Option Str
deriving DecidableEq, Repr

/-! ## Calls -/

/-- `Refusal`: the `processed/error` dispositions. -/
inductive Refusal where
  | authenticationFailed
  | decryptionFailed
  | insufficientSecurity
  | decompressionFailed
  | unexpected
deriving DecidableEq, Repr

/-- `Opened`: a decrypted, verified AS2 message. -/
structure As2Opened where
  content : Bytes
  mediaType : Str
  signerDer : Bytes
  micBase64 : Str
  micAlg : Str
deriving DecidableEq, Repr

/-- What a handler awaits. -/
inductive InboundCall where
  /-- `As4Inbound::verify`. -/
  | verify
  /-- `As2Inbound::open`. -/
  | openAs2
  /-- The revocation check of an AS2 signer's path. -/
  | revocation
  | claim (key : Str)
  /-- `RecordBuilder::finish`. -/
  | finish (builder : RecordBuilder)
  /-- `run_handler`. -/
  | handle (message : InboundMessage) (record : AuditRecord)
  /-- `receipt` and `mdn_bytes`. -/
  | sign (draft : SignalDraft)
  /-- `AuditSink::record`. -/
  | record (record : AuditRecord)
  | accept (key : Str) (token : ClaimToken)
  | abandon (key : Str) (token : ClaimToken)

/-- What a call returns. A refused revocation is its description. -/
def InboundCall.Answer : InboundCall → Type
  | verify => Result VerifiedInbound
  | openAs2 => Result (Except (Refusal × Str) As2Opened)
  | revocation => Except Str Unit
  | claim _ => Except Str Claim
  | finish _ => Result AuditRecord
  | handle _ _ => Except Fault Unit
  | sign _ => Except Str Bytes
  | record _ => Except Str Unit
  | accept _ _ => Except Str Unit
  | abandon _ _ => Except Str Unit

/-- A handler at some point of a request. -/
abbrev InboundProg := Prog InboundCall InboundCall.Answer InboundAnswer

/-- A call of a handler with its answer. -/
abbrev InboundEvent := Event InboundCall InboundCall.Answer

/-- `self.abandon(&key, &token).await` before a return: a failure is only logged. -/
def abandonThen (key : Str) (token : ClaimToken) (rest : InboundProg) : InboundProg :=
  .call (.abandon key token) fun _ => rest

/-- Building a signal as the last step of a request. -/
def signThen (draft : SignalDraft) (success : Bytes → InboundAnswer)
    (failure : Str → InboundAnswer) : InboundProg :=
  .call (.sign draft) fun
  | .ok signal => .ret (success signal)
  | .error err => .ret (failure err)

/-- The text of `signal_sha256` in an error. -/
def signalSha256 (sha256 : Bytes → Bytes) (rec : AuditRecord) : Str :=
  match rec.fields.signal with
  | some signal => hexLower (sha256 signal.bytes)
  | none => "none"

/-- `audit::record`: no sink is a success, and so is the failure of a best-effort one. -/
def recordAudit (sink : Option AuditDurability) (sha256 : Bytes → Bytes) (rec : AuditRecord)
    (stage : Str) (rest : Result Unit → InboundProg) : InboundProg :=
  match sink with
  | none => rest (.ok ())
  | some durability => .call (.record rec) fun
    | .ok () => rest (.ok ())
    | .error err =>
      match durability with
      | .bestEffort => rest (.ok ())
      | .durable => rest (.error ⟨.storageBackendFailure,
          "durable audit sink failed to record " ++ rec.recordId ++ " for message " ++
            rec.fields.messageId ++ " (signal sha256 " ++ signalSha256 sha256 rec ++ "): " ++ err,
          (ErrorContext.new stage).withMessageId rec.fields.messageId⟩)

/-- What `deliver` does in both endpoints after the handler returned `Ok`: build the signal and
    the record with it, write the record, accept. A failure before the last step releases the
    claim; a failure of `accept` does not, since the current holder, if any, settles. -/
def acknowledge (draft : SignalDraft) (builder : Bytes → RecordBuilder)
    (audit : Option AuditDurability) (sha256 : Bytes → Bytes) (stage : Str)
    (failure : Str → InboundAnswer) (success : Bytes → InboundAnswer) (key : Str)
    (token : ClaimToken) : InboundProg :=
  .call (.sign draft) fun
  | .error err => abandonThen key token (.ret (failure err))
  | .ok signal => .call (.finish (builder signal)) fun
    | .error err => abandonThen key token (.ret (failure err.display))
    | .ok record => recordAudit audit sha256 record stage fun
      | .error err => abandonThen key token (.ret (failure err.display))
      | .ok () => .call (.accept key token) fun
        | .error err => .ret (failure ("dedup accept failed: " ++ err))
        | .ok () => .ret (success signal)

/-! ## AS4 -/

/-- What an AS4 endpoint is configured with, as far as a delivery reads it. -/
structure As4InboundConfig where
  localId : Str
  profileName : Str
  pathSwitch : Bool
  audit : Option AuditDurability
  sha256 : Bytes → Bytes
  /-- Whether `Certificate::from_der` reads the certificate. -/
  readable : Bytes → Bool

/-- `TO_PARTY_STAGE`. -/
def toPartyStage : Str := "as4_inbound_to_party"

/-- `str::contains`. -/
def Str.contains (s pattern : Str) : Bool := decide (pattern <:+: s)

/-- The status, code, short description and category of `refusal`. -/
def refusalCode (err : AsxError) : Str × Str × Str :=
  if err.context.stage = toPartyStage then ("EBMS:0004", "Other", "Content")
  else if Str.contains err.message "signature is required but not present" then
    ("EBMS:0103", "PolicyNoncompliance", "Processing")
  else if Str.contains err.context.stage "decompress" then
    ("EBMS:0303", "DecompressionFailure", "Content")
  else
    match err.code with
    | .decryptionFailed => ("EBMS:0102", "FailedDecryption", "Processing")
    | .securityVerificationFailed | .certificateExpired | .certificateRevoked =>
      ("EBMS:0101", "FailedAuthentication", "Processing")
    | .policyViolation => ("EBMS:0103", "PolicyNoncompliance", "Processing")
    | _ => ("EBMS:0004", "Other", "Content")

/-- `refusal`. -/
def refusal (err : AsxError) : InboundResponse :=
  if err.code = .payloadTooLarge then .empty 413
  else
    let (code, short, category) := refusalCode err
    .ebError 400 ⟨err.context.messageId, code, short, category,
      if code = "EBMS:0102" then "decryption failed" else err.message, none⟩

/-- `backend_failure` of the AS4 endpoint. -/
def as4BackendFailure (messageId detail : Str) : InboundAnswer where
  response := .ebError 500 ⟨some messageId, "EBMS:0004", "Other", "Content",
    "the message could not be processed; retry later", none⟩
  outcome := .storage
  messageId := some messageId
  err := some ⟨.storageBackendFailure, detail,
    (ErrorContext.new "as4_inbound").withMessageId messageId⟩
  code := some "EBMS:0004"

/-- What `verify` of the AS4 endpoint reads: the configuration, the clock at its two readings,
    the revocation check of a signer's path and the decryption keys. -/
structure As4VerifyContext where
  lib : As4Library
  session : SessionContext
  policy : As4PushPolicy
  chainPolicy : ChainPolicy
  authorize : SenderAuthorizer
  localId : Str
  localType : Option Str
  /-- What refuses the path: whether it is revoked, and the description. -/
  revocation : List Bytes → Option (Bool × Str)
  /-- The keys of the pass whose result is returned. -/
  keys : RecipientKeys
  suite : Suite
  authenticatedAt : SystemTime
  openedAt : SystemTime

/-- The refusal of a signer whose path is revoked, or whose revocation is unknown. -/
def revocationError (session : SessionContext) (messageId : Str) (refused : Bool × Str) :
    AsxError :=
  ⟨if refused.1 then .certificateRevoked else .securityVerificationFailed, refused.2,
    .forSessionWithMessage "as4_inbound_revocation" session messageId⟩

/-- `verify` of the AS4 endpoint. -/
def as4Verify (ctx : As4VerifyContext) (body : Bytes) (contentType : Str) :
    Result VerifiedInbound := do
  let authenticated ← authenticateInbound ctx.lib ctx.session ctx.policy ctx.chainPolicy
    ctx.authenticatedAt body contentType ctx.authorize ctx.localId ctx.localType
  forM (ctx.revocation authenticated.signerPath) fun refused =>
    .error (revocationError ctx.session authenticated.parsed.messageId refused)
  openInbound ctx.lib ctx.session ctx.policy ctx.openedAt body contentType authenticated ctx.keys
    ctx.suite

/-- The dedup key of a verified AS4 message. -/
def as4Key (sha256 : Bytes → Bytes) (verified : VerifiedInbound) : Str :=
  dedupKey sha256 .as4 (verified.parsed.fromPartyType.getD []) verified.parsed.senderPartyId
    verified.parsed.messageId

/-- The receipt of a verified message. -/
def as4Receipt (verified : VerifiedInbound) : SignalDraft :=
  .receipt verified.parsed.messageId verified.nri

/-- The record of `deliver`. -/
def as4RecordBuilder (cfg : As4InboundConfig) (verified : VerifiedInbound) : RecordBuilder where
  protocol := .as4
  messageId := verified.parsed.messageId
  localParty := cfg.localId
  partner := verified.parsed.senderPartyId
  refToMessageId := verified.parsed.refToMessageId
  conversationId := verified.parsed.conversationId
  profile := some cfg.profileName
  service := verified.parsed.service
  action := some verified.parsed.action
  messageTimestamp := verified.parsed.timestamp
  signerDer := some verified.signerDer
  references := verified.references

/-- The message the AS4 application is given. -/
def as4UserMessage (cfg : As4InboundConfig) (verified : VerifiedInbound) : UserMessage where
  messageId := verified.parsed.messageId
  conversationId := verified.parsed.conversationId.getD []
  sender := verified.parsed.senderPartyId
  service := verified.parsed.service.getD []
  action := verified.parsed.action
  payloads := verified.payloads.map fun p => (p.2.1, p.2.2)
  pathSwitch :=
    if cfg.pathSwitch then
      classifyPathSwitch (verified.parsed.service.getD []) verified.parsed.action
    else none

/-- The `eb:Error` of a refusal by the application. -/
def faultError (messageId : Str) : Fault → EbError
  | .deliveryFailure => ⟨some messageId, "EBMS:0202", "DeliveryFailure", "Communication",
      "the receiving application refused the message", none⟩
  | .permanent => ⟨some messageId, "EBMS:0004", "Other", "Content",
      "the receiving application refused the message permanently", none⟩
  | .notServiced => ⟨some messageId, "EBMS:0004", "Other", "Content",
      "the receiver is not serviced by this access point", some "PEPPOL:NOT_SERVICED"⟩

/-- `deliver` of the AS4 endpoint after the handler returned `Ok`. -/
def as4Acknowledge (cfg : As4InboundConfig) (verified : VerifiedInbound) (key : Str)
    (token : ClaimToken) : InboundProg :=
  let messageId := verified.parsed.messageId
  acknowledge (as4Receipt verified)
    (fun receipt => { as4RecordBuilder cfg verified with signal := some ⟨receipt, messageId⟩ })
    cfg.audit cfg.sha256 "as4_inbound_audit" (as4BackendFailure messageId)
    (fun receipt => ⟨.receipt receipt, .accepted, some messageId, none, none⟩) key token

/-- `deliver` of the AS4 endpoint. -/
def as4Deliver (cfg : As4InboundConfig) (verified : VerifiedInbound) (key : Str)
    (token : ClaimToken) : InboundProg :=
  let messageId := verified.parsed.messageId
  .call (.finish (as4RecordBuilder cfg verified)) fun evidence =>
    match evidence, cfg.readable verified.signerDer with
    | .ok record, true => .call (.handle (.as4 (as4UserMessage cfg verified)) record) fun
      | .ok () => as4Acknowledge cfg verified key token
      | .error fault =>
        let error := faultError messageId fault
        abandonThen key token
          (.ret ⟨.ebError 200 error, .rejected, some messageId, none, some error.code⟩)
    | _, _ => abandonThen key token
        (.ret (as4BackendFailure messageId "the inbound evidence could not be built"))

/-- A receipt for a message that is not delivered: the test service, or a duplicate. -/
def as4ReceiptOnly (verified : VerifiedInbound) (outcome : ReceiveOutcome) : InboundProg :=
  let messageId := verified.parsed.messageId
  signThen (as4Receipt verified)
    (fun receipt => ⟨.receipt receipt, outcome, some messageId, none, none⟩)
    (as4BackendFailure messageId)

/-- `handle` of the AS4 endpoint. -/
def as4Handle (cfg : As4InboundConfig) : InboundProg :=
  .call .verify fun
  | .error err => .ret ⟨refusal err, .rejected, err.context.messageId, some err, none⟩
  | .ok verified =>
    if isTestService verified.parsed then as4ReceiptOnly verified .accepted
    else
      let messageId := verified.parsed.messageId
      let key := as4Key cfg.sha256 verified
      .call (.claim key) fun
      | .ok (.claimed token) => as4Deliver cfg verified key token
      | .ok .duplicate => as4ReceiptOnly verified .duplicate
      | .ok .inFlight => .ret ⟨.empty 503, .inFlight, some messageId, none, none⟩
      | .error err => .ret (as4BackendFailure messageId ("dedup claim failed: " ++ err))

/-! ## AS2 -/

/-- `PROCESSED`. -/
def processed : Str := "automatic-action/MDN-sent-automatically; processed"

/-- `DUPLICATE`. -/
def duplicateDisposition : Str :=
  Str.lit "automatic-action/MDN-sent-automatically; processed/warning: duplicate-document"

namespace Refusal

/-- The error of a `processed/error` disposition. -/
def modifier : Refusal → Str
  | authenticationFailed => "authentication-failed"
  | decryptionFailed => "decryption-failed"
  | insufficientSecurity => "insufficient-message-security"
  | decompressionFailed => "decompression-failed"
  | unexpected => "unexpected-processing-error"

/-- `Refusal::disposition`. -/
def disposition (r : Refusal) : Str := processed ++ "/error: " ++ r.modifier

/-- `Refusal::text`. -/
def text : Refusal → Str
  | authenticationFailed => "The message could not be authenticated."
  | decryptionFailed => "The message could not be decrypted."
  | insufficientSecurity => "The message must be signed and encrypted."
  | decompressionFailed => "The message could not be decompressed."
  | unexpected => "The message could not be processed."

/-- The error code of a refusal. -/
def errorCode : Refusal → ErrorCode
  | authenticationFailed => .securityVerificationFailed
  | decryptionFailed => .decryptionFailed
  | insufficientSecurity => .policyViolation
  | decompressionFailed | unexpected => .invalidInput

end Refusal

/-- What the headers and the body of a request say; `messageId` is there unless it is missing,
    empty or has a control character. -/
structure As2Request where
  messageId : Option Str
  version : Option Str
  sender : Option Str
  recipient : Option Str
  body : Bytes

/-- What an AS2 endpoint is configured with, as far as a request reads it. -/
structure As2InboundConfig where
  localId : Str
  profileName : Str
  /-- Whether `policy_for` knows the sender. -/
  partner : Str → Bool
  /-- Whether the sender's partner has a session. -/
  session : Str → Bool
  audit : Option AuditDurability
  sha256 : Bytes → Bytes
  /-- Whether `Certificate::from_der` reads the certificate. -/
  readable : Bytes → Bool

/-- `supported_version`. -/
def supportedVersion (value : Str) : Bool :=
  [['1', '.', '0'], ['1', '.', '1'], ['1', '.', '2']].contains value.trim

/-- `is_as2_id`. -/
def isAs2Id (id : Str) : Bool :=
  decide (1 ≤ (Str.utf8 id).length ∧ (Str.utf8 id).length ≤ 128) &&
    (Str.utf8 id).all fun b => 0x20 ≤ b && b < 0x7f

/-- `Opened::mic`. -/
def As2Opened.mic (o : As2Opened) : Str := o.micBase64 ++ ", " ++ o.micAlg

/-- `backend_failure` of the AS2 endpoint. -/
def as2BackendFailure (messageId detail : Str) : InboundAnswer where
  response := .empty 500
  outcome := .storage
  messageId := some messageId
  err := some ⟨.storageBackendFailure, detail,
    (ErrorContext.new "as2_inbound").withMessageId messageId⟩
  code := none

/-- `refuse`: a signed `processed/error` MDN, or a bare status when none can be signed. -/
def as2Refuse (messageId : Str) (status : Nat) (refusal : Refusal) (detail : Str) :
    InboundProg :=
  let err : AsxError :=
    ⟨refusal.errorCode, detail, (ErrorContext.new "as2_inbound").withMessageId messageId⟩
  signThen (.mdn messageId refusal.disposition refusal.text none)
    (fun mdn => ⟨.mdn status refusal.disposition mdn, .rejected, some messageId, some err, none⟩)
    (fun _ => ⟨.empty 400, .rejected, some messageId, some err, none⟩)

/-- The dedup key of an AS2 message. -/
def as2Key (sha256 : Bytes → Bytes) (sender messageId : Str) : Str :=
  dedupKey sha256 .as2 [] sender messageId

/-- The record of `deliver`; a digest that is not base64 is left out. -/
def as2RecordBuilder (cfg : As2InboundConfig) (messageId sender : Str) (opened : As2Opened) :
    RecordBuilder where
  protocol := .as2
  messageId := messageId
  localParty := cfg.localId
  partner := sender
  profile := some cfg.profileName
  signerDer := some opened.signerDer
  mic := (Base64.decode opened.micBase64).map fun digest => (opened.micAlg, digest)

/-- The message the AS2 application is given. -/
def as2Received (messageId sender : Str) (opened : As2Opened) : Received :=
  ⟨messageId, sender, (opened.content, opened.mediaType)⟩

/-- `deliver` of the AS2 endpoint after the handler returned `Ok`. -/
def as2Acknowledge (cfg : As2InboundConfig) (messageId sender : Str) (opened : As2Opened)
    (key : Str) (token : ClaimToken) : InboundProg :=
  acknowledge
    (.mdn messageId processed "The message has been received and processed." (some opened.mic))
    (fun mdn => { as2RecordBuilder cfg messageId sender opened with
      disposition := some processed, signal := some ⟨mdn, messageId⟩ })
    cfg.audit cfg.sha256 "as2_inbound_audit" (as2BackendFailure messageId)
    (fun mdn => ⟨.mdn 200 processed mdn, .accepted, some messageId, none, none⟩) key token

/-- `mdn` of the AS2 endpoint as the last step of a request. -/
def as2MdnOnly (messageId disposition text : Str) (mic : Option Str) (outcome : ReceiveOutcome) :
    InboundProg :=
  signThen (.mdn messageId disposition text mic)
    (fun mdn => ⟨.mdn 200 disposition mdn, outcome, some messageId, none, none⟩)
    (as2BackendFailure messageId)

/-- `deliver` of the AS2 endpoint. -/
def as2Deliver (cfg : As2InboundConfig) (messageId sender : Str) (opened : As2Opened)
    (key : Str) (token : ClaimToken) : InboundProg :=
  .call (.finish (as2RecordBuilder cfg messageId sender opened)) fun evidence =>
    match evidence, cfg.readable opened.signerDer with
    | .ok record, true => .call (.handle (.as2 (as2Received messageId sender opened)) record) fun
      | .ok () => as2Acknowledge cfg messageId sender opened key token
      | .error _ => abandonThen key token
          (as2MdnOnly messageId Refusal.unexpected.disposition Refusal.unexpected.text none
            .rejected)
    | _, _ => abandonThen key token
        (.ret (as2BackendFailure messageId "the inbound evidence could not be built"))

/-- `handle` of the AS2 endpoint from the claim on. -/
def as2Claim (cfg : As2InboundConfig) (messageId sender : Str) (opened : As2Opened) :
    InboundProg :=
  let key := as2Key cfg.sha256 sender messageId
  .call (.claim key) fun
  | .ok (.claimed token) => as2Deliver cfg messageId sender opened key token
  | .ok .duplicate => as2MdnOnly messageId duplicateDisposition "The message was already received."
      (some opened.mic) .duplicate
  | .ok .inFlight => .ret ⟨.empty 503, .inFlight, some messageId, none, none⟩
  | .error err => .ret (as2BackendFailure messageId ("dedup claim failed: " ++ err))

/-- `handle` of the AS2 endpoint once the headers are read: decryption and authentication,
    then the revocation of the signer's path. -/
def as2Open (cfg : As2InboundConfig) (messageId sender : Str) : InboundProg :=
  .call .openAs2 fun
  | .error err => .ret (as2BackendFailure messageId err.message)
  | .ok (.error (refusal, detail)) => as2Refuse messageId 200 refusal detail
  | .ok (.ok opened) => .call .revocation fun
    | .error description => as2Refuse messageId 200 .authenticationFailed description
    | .ok () => as2Claim cfg messageId sender opened

/-- `handle` of the AS2 endpoint. -/
def as2Handle (cfg : As2InboundConfig) (req : As2Request) : InboundProg :=
  match req.messageId with
  | none => .ret ⟨.empty 400, .rejected, none, none, none⟩
  | some messageId =>
    if !req.version.any supportedVersion then
      as2Refuse messageId 400 .unexpected
        ("AS2-Version " ++ Str.debug (req.version.getD "<absent>") ++ " is not 1.0, 1.1 or 1.2")
    else
      match req.sender.filter isAs2Id with
      | none => as2Refuse messageId 400 .unexpected "no valid AS2-From"
      | some sender =>
        if !cfg.partner sender then
          as2Refuse messageId 200 .authenticationFailed
            ("AS2-From " ++ Str.debug sender ++ " is not a configured partner")
        else if req.recipient ≠ some cfg.localId then
          as2Refuse messageId 200 .unexpected "AS2-To is not the local party"
        else if req.body.isEmpty then as2Refuse messageId 400 .unexpected "empty body"
        else if !cfg.session sender then
          as2Refuse messageId 200 .authenticationFailed "no session for the partner"
        else as2Open cfg messageId sender

/-! ## Requests -/

/-- A request at one of the two endpoints. -/
inductive InboundRequest where
  | as4 (cfg : As4InboundConfig)
  | as2 (cfg : As2InboundConfig) (req : As2Request)

/-- What the endpoint does with the request. -/
def InboundRequest.handle : InboundRequest → InboundProg
  | as4 cfg => as4Handle cfg
  | as2 cfg req => as2Handle cfg req

end Asx
