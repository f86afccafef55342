import Asx.ForStd.Lossy
import Asx.Native.As2Inbound
import Asx.Native.Send

/-!
# Asynchronous MDNs

`PendingMdn::lookup_key` of `as2/client.rs` and `verify_async_mdn` of `as2/send_client.rs`. The
request that carries the MDN is first scanned for the id it claims; the MDN is then verified as the
one of a synchronous answer is.
-/

namespace Asx

open Interact

/-! ## The claimed id -/

/-- `LOOKUP_SCAN_BYTES`. -/
def lookupScanBytes : Nat := 64 * 1024

/-- The id that a line claims. -/
def claimedId (line : Str) : Option Str :=
  match Str.splitOnce ':' ((Str.stripSuffix ['\r'] line).getD line) with
  | none => none
  | some (name, value) =>
    if Str.eqIgnoreAsciiCase (Str.trim name) "original-message-id" then
      some (normalizeMessageId value)
    else none

/-- An id that `lookup_key` does not return. -/
def malformedId (id : Str) : Bool :=
  id = [] || (Str.utf8 id).length > 998 || (Str.utf8 id).any fun b => !(0x21 ≤ b && b < 0x7f)

/-- The loop of `lookup_key`: two different claims are ambiguous. -/
def lookupLines : Option Str → List Str → Option Str
  | found, [] => found
  | found, line :: lines =>
    match claimedId line with
    | none => lookupLines found lines
    | some id =>
      if malformedId id then none
      else if found.any (· ≠ id) then none
      else lookupLines (some id) lines

/-- The lines that `lookup_key` reads. -/
def scannedLines (body : Bytes) : List Str :=
  Str.splitChar '\n' (Str.fromUtf8Lossy (body.take lookupScanBytes))

/-- `PendingMdn::lookup_key`. -/
def lookupKey (body : Bytes) : Option Str := lookupLines none (scannedLines body)

/-! ## Sent messages -/

/-- `valid_message_id`. -/
def validMessageId (id : Str) : Bool :=
  match Str.splitOnce '@' id with
  | none => false
  | some (left, right) => !left.isEmpty && !right.isEmpty && !right.contains '@' &&
      (Str.utf8 id).length ≤ 255 && (Str.utf8 id).all fun b => 0x21 ≤ b && b < 0x7f &&
        b != 0x3c && b != 0x3e && b != 0x22 && b != 0x5c

/-- `PendingMdn`, as far as it is read. -/
structure PendingMdn where
  messageId : Str
  partner : Option Str × Str
  mic : Str
  micAlg : Str
deriving DecidableEq, Repr

/-- An AS2 client. -/
structure As2Client where
  partners : List ((Option Str × Str) × As2PartnerPolicy)
  sessions : List ((Option Str × Str) × As2Session)
  /-- `session_for`. -/
  sessionFor : As2PartnerPolicy → Except PublicError As2Session
  lib : As2Session → MdnLibrary
  /-- `has_quirk(UnsignedMdn)`. -/
  unsignedMdn : As2PartnerPolicy → Bool
  /-- `mdn_record`, for the expected id and MIC, the MDN as received and what was found. -/
  mdnRecord : As2PartnerPolicy → Str → Str → Bytes → CheckedMdn → Option AuditRecord
  audit : Option AuditDurability
  sha256 : Bytes → Bytes
  /-- `Certificate::from_der` reads it. -/
  isCertificate : Bytes → Bool
  /-- The first signing certificate of a partner. -/
  partnerCert : As2PartnerPolicy → Option Bytes

namespace As2Client

/-- What verifies the MDN of a message. Nothing is packaged here: those fields are not read. -/
def verifier (client : As2Client) (policy : As2PartnerPolicy) (session : As2Session)
    (expectedId expectedMic : Str) : As2Sender where
  session := session.context
  prepared := .ok ()
  messageId := expectedId
  entity := .ok ([], expectedMic)
  signDetached := fun entity _ => .ok entity
  envelope := fun signed => .ok (signed, [])
  request := fun _ => .ok ()
  lib := client.lib session
  pins := policy.pins
  requireSigned := !client.unsignedMdn policy
  recordOf := fun response checked =>
    client.mdnRecord policy expectedId expectedMic response.body checked
  audit := client.audit
  sha256 := client.sha256
  isCertificate := client.isCertificate
  partnerCert := client.partnerCert policy

/-- `verify_mdn`. -/
def verifyMdn (client : As2Client) (policy : As2PartnerPolicy) (session : As2Session)
    (expectedId expectedMic : Str) (response : SyncResponse) : SendProg :=
  let x := client.verifier policy session expectedId expectedMic
  spawnCrypto "as2_mdn_verify" session.context <|
    let checked := x.checked expectedMic response
    checkRevocation (As2Sender.revocationPath checked) fun
      | .ok () => x.record response checked
      | .error text => x.record response { checked with
          verdict := .indeterminate (mdnVerifyFailed ("MDN signer: " ++ text)) }

/-- The `not_ours` of `verify_async_mdn`. -/
def notOurs (detail : Str) : PublicError :=
  .fromInternal .asyncMdnMatch ⟨.invalidInput, detail, .new "as2_verify_async_mdn"⟩

/-- The session of a policy that was found under `key`. -/
def sessionOf (client : As2Client) (key : Option Str × Str) (policy : As2PartnerPolicy) :
    Except PublicError As2Session :=
  match client.sessions.lookup (policy.partner.getD key) with
  | some session => .ok session
  | none => client.sessionFor policy

/-- `verify_async_mdn` on a request with this body and `Content-Type`. -/
def verifyAsyncMdn (client : As2Client) (body : Bytes) (contentType : Option Str)
    (pending : PendingMdn) : SendProg :=
  match lookupKey body with
  | none => .ret (.failed (notOurs "the request is not an MDN (no Original-Message-ID)"))
  | some claimed =>
    if claimed ≠ pending.messageId then
      .ret (.failed (notOurs ("the MDN answers " ++ Str.debug claimed ++
        ", not the pending message " ++ Str.debug pending.messageId)))
    else
      match (client.partners.lookup pending.partner).or
          (policyFor client.partners pending.partner.1 pending.partner.2) with
      | none => .ret (.failed (.new .config ("Partner(" ++ pending.partner.2 ++
          "): the partner of this PendingMdn is not configured")))
      | some policy =>
        match client.sessionOf pending.partner policy with
        | .error err => .ret (.failed err)
        | .ok session => client.verifyMdn policy session pending.messageId
            (pending.mic ++ ", " ++ pending.micAlg) ⟨200, contentType, body⟩

end As2Client

end Asx
