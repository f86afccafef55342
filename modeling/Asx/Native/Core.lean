import Asx.ForStd.Bytes
import Asx.ForStd.Except
import Asx.Xml.Dom

/-!
# Errors, namespaces and XML text values

`core/error.rs`, `core/xml_util.rs` and `xml/ns.rs`. Error texts are the source's; where a
text ends with the message of a library's own error, the model's ends before it.
-/

namespace Asx

/-- A literal where a `Str` is expected. -/
instance : Coe String Str := ⟨String.toList⟩

/-- `ErrorCode`. -/
inductive ErrorCode where
  | invalidInput
  | parseFailed
  | securityVerificationFailed
  | decryptionFailed
  | policyViolation
  | transportFailure
  | interopViolation
  | reliabilityFailure
  | notFound
  | capacityExhausted
  | payloadTooLarge
  | storageBackendFailure
  | certificateRevoked
  | certificateExpired
  | timeout
deriving DecidableEq, Repr

/-- `ErrorContext`. -/
structure ErrorContext where
  stage : Str
  messageId : Option Str
  partnerId : Option Str
  sessionId : Option Str
deriving DecidableEq, Repr

namespace ErrorContext

/-- `ErrorContext::new`. -/
def new (stage : Str) : ErrorContext := ⟨stage, none, none, none⟩

/-- `ErrorContext::with_message_id`. -/
def withMessageId (c : ErrorContext) (id : Str) : ErrorContext := { c with messageId := some id }

end ErrorContext

/-- `AsxError`. -/
structure AsxError where
  code : ErrorCode
  message : Str
  context : ErrorContext
deriving DecidableEq, Repr

/-- `AsxError::with_message_id`. -/
def AsxError.withMessageId (e : AsxError) (id : Str) : AsxError :=
  { e with context := e.context.withMessageId id }

/-- `ErrorCode::as_str`. -/
def ErrorCode.asStr : ErrorCode → Str
  | invalidInput => "invalid_input"
  | parseFailed => "parse_failed"
  | securityVerificationFailed => "security_verification_failed"
  | decryptionFailed => "decryption_failed"
  | policyViolation => "policy_violation"
  | transportFailure => "transport_failure"
  | interopViolation => "interop_violation"
  | reliabilityFailure => "reliability_failure"
  | notFound => "not_found"
  | capacityExhausted => "capacity_exhausted"
  | payloadTooLarge => "payload_too_large"
  | storageBackendFailure => "storage_backend_failure"
  | certificateRevoked => "certificate_revoked"
  | certificateExpired => "certificate_expired"
  | timeout => "timeout"

/-- The `Display` of an `AsxError`. -/
def AsxError.display (e : AsxError) : Str :=
  let tagged (name : Str) : Option Str → Str
    | some value => ['['] ++ name ++ ['='] ++ value ++ [']']
    | none => []
  e.message ++ " [" ++ e.code.asStr ++ "|stage=" ++ e.context.stage ++ "]" ++
    tagged "partner" e.context.partnerId ++ tagged "msg" e.context.messageId ++
    tagged "session" e.context.sessionId

/-- The crate's `Result`. -/
abbrev Result (α : Type) := Except AsxError α

/-- A number as `format!` prints it. -/
def showNat (n : Nat) : Str := (toString n).toList

/-! ## Session -/

/-- What the receive path reads of a `SessionContext`: the identifiers for its errors, and
    whether the session was built from a `Profile`. -/
structure SessionContext where
  sessionId : Str
  partnerId : Str
  profileBuilt : Bool
deriving DecidableEq, Repr

/-- `ErrorContext::for_session`. -/
def ErrorContext.forSession (stage : Str) (session : SessionContext) : ErrorContext :=
  { ErrorContext.new stage with
    sessionId := some session.sessionId, partnerId := some session.partnerId }

/-- `ErrorContext::for_session_with_message`. -/
def ErrorContext.forSessionWithMessage (stage : Str) (session : SessionContext) (id : Str) :
    ErrorContext :=
  (ErrorContext.forSession stage session).withMessageId id

/-! ## Base64 in XML -/

/-- `decode_xml_base64`: ASCII white space is dropped first. -/
def decodeXmlBase64 (value label stage : Str) : Result Bytes :=
  Except.okOr (Base64.decode (value.filter fun c => !Str.isAsciiWhitespace c))
    ⟨.parseFailed, "failed to decode base64 " ++ label ++ ": ", .new stage⟩

/-! ## Namespaces -/

namespace Ns

def soap12 : Str := Str.lit "http://www.w3.org/2003/05/soap-envelope"
def soap11 : Str := Str.lit "http://schemas.xmlsoap.org/soap/envelope/"
def ebms3 : Str := Str.lit "http://docs.oasis-open.org/ebxml-msg/ebms/v3.0/ns/core/200704/"
def wsse : Str :=
  Str.lit "http://docs.oasis-open.org/wss/2004/01/oasis-200401-wss-wssecurity-secext-1.0.xsd"
def wsu : Str :=
  Str.lit "http://docs.oasis-open.org/wss/2004/01/oasis-200401-wss-wssecurity-utility-1.0.xsd"
def wsa : Str := Str.lit "http://www.w3.org/2005/08/addressing"
def ds : Str := Str.lit "http://www.w3.org/2000/09/xmldsig#"
def excC14n : Str := Str.lit "http://www.w3.org/2001/10/xml-exc-c14n#"

end Ns

end Asx
