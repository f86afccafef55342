import Asx.Native.As2Entity
import Asx.Native.As2Inbound
import Asx.Native.Compression
import Asx.Native.Inbound

/-!
# Sending an AS2 message

`header_id` and `send_view` of `as2/client.rs`, and `as2/send_path.rs` up to the entity that is
signed. The `LocalParty` whose id a client sends is the one `build` admitted with `is_as2_id`. The
cipher of the policy, which only the envelope reads, is left out.
-/

namespace Asx

/-! ## Identifiers as header values -/

/-- `str::replace` of one character. -/
def Str.replaceChar (c : Char) (replacement s : Str) : Str :=
  s.flatMap fun x => if x = c then replacement else [x]

/-- `header_id`. -/
def headerId (id : Str) : Str :=
  if (Str.utf8 id).any fun b => b == 0x20 || b == 0x22 || b == 0x5C then
    ['"'] ++ Str.replaceChar '"' ['\\', '"'] (Str.replaceChar '\\' ['\\', '\\'] id) ++ ['"']
  else id

/-! ## The policy -/

/-- `As2SendPolicy`. -/
structure As2SendPolicy where
  sign : Bool
  encrypt : Bool
  compress : Bool
  payloadContentType : Option Str
  micAlgorithm : As2MicAlgorithm
  as2FromId : Str
deriving DecidableEq, Repr

/-- `send_view`. -/
def sendView (localId : Str) : As2SendPolicy where
  sign := true
  encrypt := true
  compress := false
  payloadContentType := none
  micAlgorithm := .sha256
  as2FromId := localId

/-! ## The entity -/

/-- `validate_message_id`. -/
def validateMessageId (messageId context : Str) (session : SessionContext) : Result Unit :=
  Except.rejectIf (Str.trim messageId = [])
    ⟨.invalidInput, "message_id must not be empty", .forSession context session⟩

/-- `validate_as2_from_identifier`. -/
def validateAs2FromIdentifier (stage : Str) (session : SessionContext) (value : Str) :
    Result Unit := do
  let refuse (message : Str) : AsxError := ⟨.policyViolation, message, .forSession stage session⟩
  let quoted := value.head? = some '"' ∧ value.getLast? = some '"' ∧ 2 ≤ (Str.utf8 value).length
  let inner := if quoted then (value.drop 1).dropLast else value
  let minChar : UInt8 := if quoted then 0x20 else 0x21
  Except.rejectIf (inner = []) (refuse "AS2-From identifier must not be empty")
  Except.rejectIf ((Str.utf8 inner).length > 128) (refuse
    ("AS2-From identifier exceeds maximum length (" ++ showNat (Str.utf8 inner).length ++
      " bytes, limit is 128)"))
  match (Str.utf8 inner).find? fun b => !(minChar ≤ b && b ≤ 0x7E) with
  | some bad => .error (refuse ("AS2-From identifier contains character 0x" ++ hexUpperByte bad ++
      " not allowed by RFC 4130 §4 (US-ASCII printable only)"))
  | none => .ok ()

/-- `payload_entity_content_type`. -/
def payloadEntityContentType (policy : As2SendPolicy) (contentType : Option Str) : Str :=
  if policy.compress then "application/pkcs7-mime; smime-type=compressed-data; name=\"smime.p7z\""
  else (contentType.or policy.payloadContentType).getD "application/octet-stream"

/-- `OutboundEntity`. -/
structure OutboundEntity where
  entity : Bytes
  micBase64 : Str
  digestAlg : Str
deriving DecidableEq, Repr

/-- `outbound_entity`. -/
def outboundEntity (zlib : ZlibWriter) (lib : CmsLibrary) (session : SessionContext)
    (messageId : Str) (payload : Bytes) (policy : As2SendPolicy) (contentType : Option Str) :
    Result OutboundEntity := do
  validateMessageId messageId "as2_send_validate" session
  Except.rejectIf (payload = []) ⟨.policyViolation,
    "strict interop mode rejects empty AS2 payload", .forSession "as2_send_strict_policy" session⟩
  if Str.trim policy.as2FromId ≠ [] then
    validateAs2FromIdentifier "as2_send_validate" session policy.as2FromId
  let payload ← if policy.compress then compressCmsZlib zlib payload 6 else pure payload
  let entity :=
    if policy.sign || policy.encrypt then
      buildOutboundEntity (payloadEntityContentType policy contentType) payload
    else payload
  let mic := computeMic lib entity policy.micAlgorithm
  pure ⟨entity, mic.1, mic.2⟩

end Asx
