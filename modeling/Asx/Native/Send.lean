import Asx.ForStd.Interact
import Asx.Native.Inbound
import Asx.Native.Mdn
import Asx.Native.Receipt

/-!
# Sending a message

`error.rs`, `exchange` of `as4/send_client.rs`, and `exchange` with `verify_mdn_inner` of
`as2/send_client.rs`. A send is a program: what it awaits (the crypto pool, the signer, the
HTTP client, the revocation check, the audit sink) are its calls, and every course of the
exchange is a path of it. How the message is built before the request (`draft_send`,
`finish_send`, `package`) and how the record is built are parameters.
-/

namespace Asx

open Interact

/-! ## The public error -/

/-- `ErrorKind`. -/
inductive ErrorKind where
  | config
  | rejected
  | partnerError
  | transport
  | indeterminate
  | backend
deriving DecidableEq, Repr

/-- `ErrorKind::as_str`. -/
def ErrorKind.asStr : ErrorKind → Str
  | .config => "configuration error"
  | .rejected => "rejected"
  | .partnerError => "partner error"
  | .transport => "transport error"
  | .indeterminate => "indeterminate"
  | .backend => "backend error"

/-- `Stage`. -/
inductive ErrorStage where
  | config
  | httpNotWritten
  | httpAfterWrite
  | responseVerify
  | asyncMdnMatch
  | smpLookup
  | inbound
deriving DecidableEq, Repr

/-- `Error`, without its source. -/
structure PublicError where
  kind : ErrorKind
  message : Str
  retryable : Bool
  ebms : Option Str := none
  mdn : Option Str := none
  evidence : Option AuditRecord := none
deriving DecidableEq, Repr

namespace PublicError

/-- `Error::new`. -/
def new (kind : ErrorKind) (message : Str) : PublicError where
  kind := kind
  message := message
  retryable := decide (kind = .transport ∨ kind = .indeterminate ∨ kind = .backend)

/-- `Error::partner_ebms`. -/
def partnerEbms (code message : Str) : PublicError :=
  { new .partnerError message with
    retryable := decide (code = "EBMS:0202".toList)
    ebms := some code }

/-- `Error::partner_mdn`. -/
def partnerMdn (disposition message : Str) : PublicError :=
  { new .partnerError message with
    retryable := Str.contains disposition "unexpected-processing-error"
    mdn := some disposition }

/-- `Error::retryable_if`. -/
def retryableIf (e : PublicError) (condition : Bool) : PublicError :=
  { e with retryable := e.retryable || condition }

/-- `Error::with_evidence`. -/
def withEvidence (e : PublicError) (record : Option AuditRecord) : PublicError :=
  { e with evidence := record }

/-- The `Display` of `Error`. -/
def display (e : PublicError) : Str :=
  e.kind.asStr ++ ": " ++ e.message ++
    (match e.ebms with | some code => " (" ++ code ++ ")" | none => []) ++
    (match e.mdn with | some disposition => " (" ++ disposition ++ ")" | none => [])

/-- The `kind` of `Error::from_internal`. -/
def kindOf : ErrorStage → ErrorCode → ErrorKind
  | _, .capacityExhausted => .transport
  | _, .storageBackendFailure => .backend
  | _, .reliabilityFailure => .backend
  | .config, _ => .config
  | .httpNotWritten, .transportFailure => .transport
  | .httpNotWritten, .invalidInput => .transport
  | .httpNotWritten, .policyViolation => .transport
  | .httpNotWritten, .notFound => .transport
  | .httpNotWritten, _ => .indeterminate
  | .httpAfterWrite, _ => .indeterminate
  | .responseVerify, _ => .indeterminate
  | .asyncMdnMatch, _ => .rejected
  | .smpLookup, .transportFailure => .transport
  | .smpLookup, .timeout => .transport
  | .smpLookup, .notFound => .config
  | .smpLookup, .invalidInput => .config
  | .smpLookup, _ => .rejected
  | .inbound, _ => .rejected

/-- `Error::from_internal`. -/
def fromInternal (stage : ErrorStage) (err : AsxError) : PublicError :=
  let kind := kindOf stage err.code
  let addressPinRefusal := stage = .httpNotWritten ∧
    (err.code = .invalidInput ∨ err.code = .policyViolation ∨ err.code = .notFound)
  { new kind err.message with
    retryable := match kind with
      | .transport => !decide addressPinRefusal
      | .indeterminate => true
      | .backend => true
      | _ => false }

/-- `Error::internal`. -/
def internal (err : AsxError) : PublicError := fromInternal .config err

/-- `Error::delivered_but_unrecorded`. -/
def deliveredButUnrecorded (source : PublicError) (record : AuditRecord) : PublicError :=
  { new .backend ("the message was delivered but its audit record was not written: " ++
      source.display) with
    retryable := false
    evidence := some record }

end PublicError

/-! ## Calls -/

/-- `Written`: the request may have been written. Only the built-in client makes one, for a failure
    of the transport, a response that is too large and one that cannot be represented. -/
structure Written where
  err : AsxError
  code_mem : err.code ∈ [ErrorCode.transportFailure, .payloadTooLarge, .parseFailed]
deriving DecidableEq, Repr

/-- What an `HttpClient` fails with: `NotWritten`, `Written`, or an error of its own. -/
inductive HttpFailure where
  | notWritten (err : AsxError)
  | written (written : Written)
  | other (text : Str)
deriving DecidableEq, Repr

/-- An HTTP response; a `Content-Type` that is not text is none. -/
structure SyncResponse where
  status : Nat
  contentType : Option Str
  body : Bytes
deriving DecidableEq, Repr

/-- `StatusCode::is_success`. -/
def SyncResponse.isSuccess (r : SyncResponse) : Bool := 200 ≤ r.status && r.status < 300

/-- `StatusCode::is_server_error`. -/
def SyncResponse.isServerError (r : SyncResponse) : Bool := 500 ≤ r.status && r.status < 600

/-- `classify`. -/
def classify : HttpFailure → PublicError
  | .notWritten err => .fromInternal .httpNotWritten err
  | .written written => .fromInternal .httpAfterWrite written.err
  | .other text => .new .indeterminate ("the HTTP client failed: " ++ text)

/-- A message as it is sent: its id, the body and its type. -/
abbrev SentMessage := As4SendOutput

/-- What a send awaits. -/
inductive SendCall where
  /-- `spawn_crypto`: it runs its closure, or the task panics or is cancelled. -/
  | task (stage : Str)
  /-- `Signer::sign`. -/
  | sign (data : Bytes)
  /-- `HttpClient::send`. -/
  | http (sent : SentMessage)
  /-- The revocation check of a signer's path. -/
  | revocation (path : List Bytes)
  /-- `AuditSink::record`. -/
  | record (record : AuditRecord)
deriving DecidableEq, Repr

/-- What a call returns. A refused revocation is its description. -/
def SendCall.Answer : SendCall → Type
  | task _ => Except Str Unit
  | sign _ => Except Str Bytes
  | http _ => Except HttpFailure SyncResponse
  | revocation _ => Except Str Unit
  | record _ => Except Str Unit

/-- What is refused before anything is sent. -/
inductive Unsendable where
  /-- `Error::config`. -/
  | config (message : Str)
  /-- `Error::internal`. -/
  | internal (err : AsxError)
  /-- `Error::backend` of a signer. -/
  | signer
deriving DecidableEq, Repr

/-- The error that it is reported as. -/
def Unsendable.toError : Unsendable → PublicError
  | .config message => .new .config message
  | .internal err => .internal err
  | .signer => .new .backend "the signer failed"

/-- `ReceiptKind`. -/
inductive ReceiptKind where
  | as4
  | mdn (disposition : Str) (warning : Option Str)
deriving DecidableEq, Repr

/-- `Receipt`. -/
structure Receipt where
  refToMessageId : Str
  kind : ReceiptKind
deriving DecidableEq, Repr

/-- How a send ends; a delivery is a `Verified<Receipt>`. -/
inductive SendEnd where
  | delivered (receipt : Receipt) (signer : Bytes) (record : AuditRecord)
  | failed (err : PublicError)
  /-- A failed `expect`. -/
  | panicked
deriving DecidableEq, Repr

/-- A send at some point of the exchange. -/
abbrev SendProg := Prog SendCall SendCall.Answer SendEnd

/-- A call of a send with its answer. -/
abbrev SendEvent := Event SendCall SendCall.Answer

/-- `spawn_crypto(..).await.map_err(Error::internal)?` -/
def spawnCrypto (stage : Str) (session : SessionContext) (rest : SendProg) : SendProg :=
  .call (.task stage) fun
  | .ok () => rest
  | .error text => .ret (.failed (.internal ⟨.transportFailure, "blocking task failed: " ++ text,
      .forSession stage session⟩))

/-- The revocation check of a signer that has a path. -/
def checkRevocation (path : List Bytes) (rest : Except Str Unit → SendProg) : SendProg :=
  if path = [] then rest (.ok ()) else .call (.revocation path) rest

/-- `audit::record` on the record of a send, if it could be built. -/
def writeRecord (sink : Option AuditDurability) (sha256 : Bytes → Bytes)
    (record : Option AuditRecord) (stage : Str) (rest : Result Unit → SendProg) : SendProg :=
  match sink, record with
  | some durability, some rec => .call (.record rec) fun
    | .ok () => rest (.ok ())
    | .error err =>
      match durability with
      | .bestEffort => rest (.ok ())
      | .durable => rest (.error ⟨.storageBackendFailure,
          "durable audit sink failed to record " ++ rec.recordId ++ " for message " ++
            rec.fields.messageId ++ " (signal sha256 " ++ signalSha256 sha256 rec ++ "): " ++ err,
          (ErrorContext.new stage).withMessageId rec.fields.messageId⟩)
  | _, _ => rest (.ok ())

/-! ## AS4 -/

/-- What `As4::send` computes with, besides its calls. `δ` is the type of drafts. -/
structure As4Sender (δ : Type) where
  session : SessionContext
  /-- `send` up to `exchange`: the partner, the policy and the message. -/
  prepared : Except Unsendable Unit
  /-- `draft_send`. -/
  draft : Result δ
  /-- `to_sign`. -/
  toSign : δ → Option Bytes
  /-- `finish_send`. -/
  finish : δ → Option Bytes → Result As4SendOutput
  /-- The error of the request builder. -/
  request : As4SendOutput → Except Str Unit
  context : ReceiptContext
  /-- The time of the session's clock at the receipt check. -/
  now : SystemTime
  /-- `outbound_record` with `stamp_profile`. -/
  recordOf : As4SendOutput → SyncResponse → Result As4SyncSignal → Option Bytes →
    Option AuditRecord
  audit : Option AuditDurability
  sha256 : Bytes → Bytes
  /-- `Certificate::from_der` reads it. -/
  isCertificate : Bytes → Bool

namespace As4Sender

variable {δ : Type} (x : As4Sender δ)

/-- `verify_signal` on a response. -/
def verified (sent : As4SendOutput) (response : SyncResponse) :
    Result (As4SyncSignal × VerifiedReceiptSigner) :=
  verifySyncResponse x.context x.now sent response.body
    (response.contentType.getD "application/soap+xml")

/-- The end of `exchange`, once the record is written or not. -/
def conclude (response : SyncResponse) (result : Result As4SyncSignal)
    (record : Option AuditRecord) (written : Result Unit) : SendEnd :=
  match result with
  | .ok (.receipt receipt) =>
    match record with
    | none => .panicked
    | some record =>
      match written with
      | .error err => .failed (.deliveredButUnrecorded (.internal err) record)
      | .ok () =>
        match record.fields.signerDer.filter x.isCertificate with
        | none => .failed (.new .indeterminate
            "the verified receipt carries no signer certificate")
        | some signer => .delivered ⟨receipt.refToMessageId, .as4⟩ signer record
  | .ok (.error signal) =>
    let code := (signal.errors.head?.map (·.errorCode)).getD "EBMS:0004".toList
    let detail := (signal.errors.head?.bind (·.shortDescription)).getD []
    match written with
    | .error err => .failed ((PublicError.internal err).withEvidence record)
    | .ok () => .failed (((PublicError.partnerEbms code
        ("the partner refused the message with " ++ code ++ " " ++ detail)).retryableIf
          response.isServerError).withEvidence record)
  | .error err =>
    let mapped := (PublicError.fromInternal .responseVerify err).withEvidence record
    if response.isSuccess = false ∧ mapped.kind = .indeterminate then
      .failed ((PublicError.new .indeterminate ("the partner answered HTTP " ++
        showNat response.status ++ " without a verifiable signal: " ++
        mapped.display)).withEvidence mapped.evidence)
    else .failed mapped

/-- `exchange` after the receipt signer's revocation. -/
def record (sent : As4SendOutput) (response : SyncResponse) (result : Result As4SyncSignal)
    (signerDer : Option Bytes) : SendProg :=
  spawnCrypto "as4_receipt_record" x.session <|
    let record := x.recordOf sent response result signerDer
    writeRecord x.audit x.sha256 record "as4_send_audit" fun written =>
      .ret (x.conclude response result record written)

/-- `exchange` with a response. -/
def answered (sent : As4SendOutput) (response : SyncResponse) : SendProg :=
  if response.body = [] then
    .ret (.failed (.new .indeterminate ("the partner answered HTTP " ++
      showNat response.status ++ " without a signal")))
  else
    spawnCrypto "as4_receipt_verify" x.session <|
      match x.verified sent response with
      | .error err => x.record sent response (.error err) none
      | .ok (signal, signer) => checkRevocation signer.path fun
        | .ok () => x.record sent response (.ok signal) signer.der
        | .error text => x.record sent response (.error ⟨.securityVerificationFailed,
            "receipt signer: " ++ text, .forSession "as4_receipt_revocation" x.session⟩) signer.der

/-- `exchange` with the draft and its signature. -/
def transmit (draft : δ) (raw : Option Bytes) : SendProg :=
  match x.finish draft raw with
  | .error err => .ret (.failed (Unsendable.internal err).toError)
  | .ok sent =>
    match x.request sent with
    | .error text => .ret (.failed (Unsendable.config ("Partner::endpoint: " ++ text)).toError)
    | .ok () => .call (.http sent) fun
      | .error err => .ret (.failed (classify err))
      | .ok response => x.answered sent response

/-- `As4::send`. -/
def send : SendProg :=
  match x.prepared with
  | .error refused => .ret (.failed refused.toError)
  | .ok () => spawnCrypto "as4_send" x.session <|
    match x.draft with
    | .error err => .ret (.failed (Unsendable.internal err).toError)
    | .ok draft =>
      match x.toSign draft with
      | none => x.transmit draft none
      | some data => .call (.sign data) fun
        | .error _ => .ret (.failed Unsendable.signer.toError)
        | .ok signature => x.transmit draft (some signature)

end As4Sender

/-! ## AS2 -/

/-- What `As2::send` computes with, besides its calls. -/
structure As2Sender where
  session : SessionContext
  /-- `package` up to the entity: the partner, the policy and the message. -/
  prepared : Except Unsendable Unit
  messageId : Str
  /-- `outbound_entity`: what is signed, and the MIC of the message. -/
  entity : Result (Bytes × Str)
  /-- `sign_detached`, given the answer of the signer. -/
  signDetached : Bytes → Except Str Bytes → Except Unsendable Bytes
  /-- `envelope`: the body and its type. -/
  envelope : Bytes → Result (Bytes × Str)
  /-- The error of the request builder. -/
  request : SentMessage → Except Str Unit
  lib : MdnLibrary
  pins : List Bytes
  requireSigned : Bool
  /-- `mdn_record`. -/
  recordOf : SyncResponse → CheckedMdn → Option AuditRecord
  audit : Option AuditDurability
  sha256 : Bytes → Bytes
  /-- `Certificate::from_der` reads it. -/
  isCertificate : Bytes → Bool
  /-- The partner's first signing certificate. -/
  partnerCert : Option Bytes

namespace As2Sender

variable (x : As2Sender)

/-- `check_mdn` on a response. -/
def checked (mic : Str) (response : SyncResponse) : CheckedMdn :=
  checkMdn x.lib x.session x.pins x.requireSigned response.body response.contentType x.messageId mic

/-- The end of `verify_mdn_inner`, once the record is written or not. -/
def conclude (response : SyncResponse) (checked : CheckedMdn) (record : Option AuditRecord)
    (written : Result Unit) : SendEnd :=
  match checked.verdict with
  | .delivered disposition warning =>
    match record with
    | none => .failed (.new .indeterminate "the verified MDN's evidence could not be built")
    | some record =>
      match written with
      | .error err => .failed (.deliveredButUnrecorded (.internal err) record)
      | .ok () =>
        match (match checked.signerDer with
          | some der => some der |>.filter x.isCertificate
          | none => x.partnerCert) with
        | none => .failed ((PublicError.new .indeterminate
            "the verified MDN carries no signer certificate").withEvidence (some record))
        | some signer => .delivered ⟨x.messageId, .mdn disposition warning⟩ signer record
  | .refused disposition =>
    match written with
    | .error err => .failed ((PublicError.internal err).withEvidence record)
    | .ok () => .failed (((PublicError.partnerMdn disposition
        ("the partner refused the message: " ++ disposition)).retryableIf
          response.isServerError).withEvidence record)
  | .indeterminate err =>
    let mapped := (PublicError.fromInternal .responseVerify err).withEvidence record
    if response.isSuccess = false then
      .failed ((PublicError.new .indeterminate ("the partner answered HTTP " ++
        showNat response.status ++ " without a verifiable MDN: " ++
        mapped.display)).withEvidence mapped.evidence)
    else .failed mapped

/-- `verify_mdn_inner` after the MDN signer's revocation. -/
def record (response : SyncResponse) (checked : CheckedMdn) : SendProg :=
  let record := x.recordOf response checked
  writeRecord x.audit x.sha256 record "as2_send_audit" fun written =>
    .ret (x.conclude response checked record written)

/-- The path that is checked: none where the verdict is already indeterminate. -/
def revocationPath (checked : CheckedMdn) : List Bytes :=
  match checked.verdict with
  | .indeterminate _ => []
  | _ => checked.signerPath

/-- `exchange` with a response. -/
def answered (mic : Str) (response : SyncResponse) : SendProg :=
  if response.body = [] then
    .ret (.failed (.new .indeterminate ("the partner answered HTTP " ++
      showNat response.status ++ " without an MDN")))
  else
    spawnCrypto "as2_mdn_verify" x.session <|
      let checked := x.checked mic response
      checkRevocation (revocationPath checked) fun
        | .ok () => x.record response checked
        | .error text => x.record response { checked with
            verdict := .indeterminate (mdnVerifyFailed ("MDN signer: " ++ text)) }

/-- `exchange`. -/
def transmit (mic : Str) (body : Bytes) (contentType : Str) : SendProg :=
  match x.request ⟨x.messageId, body, contentType⟩ with
  | .error text => .ret (.failed (Unsendable.config ("Partner::endpoint: " ++ text)).toError)
  | .ok () => .call (.http ⟨x.messageId, body, contentType⟩) fun
    | .error err => .ret (.failed (classify err))
    | .ok response => x.answered mic response

/-- `As2::send`. -/
def send : SendProg :=
  match x.prepared with
  | .error refused => .ret (.failed refused.toError)
  | .ok () => spawnCrypto "as2_send" x.session <|
    match x.entity with
    | .error err => .ret (.failed (Unsendable.internal err).toError)
    | .ok (entity, mic) => .call (.sign entity) fun answer =>
      match x.signDetached entity answer with
      | .error refused => .ret (.failed refused.toError)
      | .ok signed => spawnCrypto "as2_send" x.session <|
        match x.envelope signed with
        | .error err => .ret (.failed (Unsendable.internal err).toError)
        | .ok (body, contentType) => x.transmit mic body contentType

end As2Sender

end Asx
