import Mathlib.Data.List.Infix
import Asx.Native.Core

/-!
# AS2 message disposition notifications

`as2/mdn.rs` and the `check_mdn` of `as2/send_client.rs`: the fields of an MDN and the verdict
on the message it answers. The MIME parser (`parse_mail`), the trust verifier and the
fingerprint of a certificate are parameters (`MdnLibrary`).
-/

namespace Asx

/-! ## Libraries -/

/-- A `ParsedMail`: the media type, its parameters, the decoded body and the parts. -/
inductive ParsedMail where
  | mk (mimetype : Str) (params : List (Str × Str)) (body : Option Bytes)
      (subparts : List ParsedMail)

namespace ParsedMail

def mimetype : ParsedMail → Str
  | mk mimetype _ _ _ => mimetype

def param? (name : Str) : ParsedMail → Option Str
  | mk _ params _ _ => params.lookup name

def body : ParsedMail → Option Bytes
  | mk _ _ body _ => body

def subparts : ParsedMail → List ParsedMail
  | mk _ _ _ subparts => subparts

end ParsedMail

/-- `VerifiedSmimeEntity`: the protected entity, the certificate whose signature verified and
    its path. -/
structure VerifiedSmimeEntity where
  entity : Bytes
  signerDer : Option Bytes
  signerPath : List Bytes
deriving DecidableEq, Repr

/-- What the MDN checks take from libraries and from the session. -/
structure MdnLibrary where
  /-- `parse_mail`. -/
  parseMail : Bytes → Option ParsedMail
  /-- `As2TrustVerifier::verify_and_decrypt`: the protected entity. -/
  verifyAndDecrypt : Bytes → Result (Option VerifiedSmimeEntity)
  /-- `Certificate::from_der` with `fingerprint`. -/
  fingerprint : Bytes → Option Bytes

/-! ## MIC values -/

/-- `normalize_received_mic_value`. -/
def normalizeReceivedMicValue (value : Str) : Str × Option Str :=
  match Str.splitOnce ',' value with
  | some (digest, alg) =>
    (Str.trimChar '"' (Str.trim digest), some (Str.trimChar '"' (Str.trim alg)))
  | none => (Str.trimChar '"' (Str.trim value), none)

/-- The `digests_match` of `mic_values_match`. -/
def micDigestsMatch (actual expected : Str) : Bool :=
  let unfold := fun (v : Str) => v.filter fun c => !Str.isAsciiWhitespace c
  match Base64.decode (unfold actual), Base64.decode (unfold expected) with
  | some a, some b => a == b
  | _, _ => Str.utf8 (unfold actual) == Str.utf8 (unfold expected)

/-- `mic_values_match`. -/
def micValuesMatch (actual expected : Str) : Bool :=
  let (actualDigest, actualAlg) := normalizeReceivedMicValue actual
  let (expectedDigest, expectedAlg) := normalizeReceivedMicValue expected
  micDigestsMatch actualDigest expectedDigest &&
    match actualAlg, expectedAlg with
    | some a, some e => Str.eqIgnoreAsciiCase a e
    | _, _ => true

/-! ## Dispositions -/

/-- `ParsedDisposition`. -/
structure ParsedDisposition where
  dispositionType : Str
  modifier : Option Str
deriving DecidableEq, Repr

/-- `parse_disposition`. -/
def parseDisposition (disposition : Str) : ParsedDisposition :=
  let actionPart := ((Str.splitOnce ';' disposition).map fun r => Str.trim r.2).getD []
  if actionPart = [] then ⟨[], none⟩
  else
    let parts := Str.splitChar '/' actionPart
    let modifier := ((parts[1]?.bind fun m => (Str.splitChar ',' m).head?).map Str.trim).filter
      (· ≠ [])
    ⟨Str.trim (parts.headD []), modifier⟩

/-! ## Fields -/

/-- `MdnFields`. -/
structure MdnFields where
  finalRecipient : Option Str
  originalMessageId : Option Str
  disposition : Option Str
  receivedContentMic : Option Str
deriving DecidableEq, Repr

/-- The `commit_field` of `parse_mdn_fields`. -/
def MdnFields.commit (f : MdnFields) (key : Option Str) (value : Str) : MdnFields :=
  match key with
  | none => f
  | some key =>
    let value := Str.trim value
    if key = "final-recipient".toList ∧ f.finalRecipient = none then
      { f with finalRecipient := some value }
    else if key = "original-message-id".toList ∧ f.originalMessageId = none then
      { f with originalMessageId := some value }
    else if key = "disposition".toList ∧ f.disposition = none then
      { f with disposition := some value }
    else if key = "received-content-mic".toList ∧ f.receivedContentMic = none then
      { f with receivedContentMic := some value }
    else f

/-- The state of the loop of `parse_mdn_fields`. -/
structure MdnScan where
  fields : MdnFields
  currentKey : Option Str
  currentValue : Str
  seenKeys : List Str
deriving DecidableEq, Repr

/-- One line of the loop of `parse_mdn_fields`. -/
def scanMdnLine (st : MdnScan) (rawLine : Str) : Result MdnScan :=
  let line := Str.trimEndChar '\r' rawLine
  if line = [] then .ok st
  else if [' '].isPrefixOf line ∨ ['\t'].isPrefixOf line then
    .ok { st with currentValue :=
      (if st.currentValue = [] then [] else st.currentValue ++ [' ']) ++ Str.trim line }
  else
    let fields := st.fields.commit st.currentKey st.currentValue
    match Str.splitOnce ':' line with
    | none => .ok { st with fields, currentKey := none, currentValue := [] }
    | some (key, value) =>
      let key := Str.trim key
      let normalizedKey := Str.toAsciiLowercase key
      if normalizedKey ∈ st.seenKeys then
        .error ⟨.interopViolation, "mdn contains duplicate " ++ key ++ " field",
          .new "as2_receive_mdn_parse"⟩
      else .ok ⟨fields, some normalizedKey, Str.trim value, normalizedKey :: st.seenKeys⟩

/-- `parse_mdn_fields`. -/
def parseMdnFields (text : Str) : Result MdnFields := do
  let st ← (Str.lines text).foldlM scanMdnLine ⟨⟨none, none, none, none⟩, none, [], []⟩
  pure (st.fields.commit st.currentKey st.currentValue)

/-- `parse_mdn_fields_from_bytes`. -/
def parseMdnFieldsFromBytes (raw : Bytes) : Result MdnFields := do
  let text ← Except.okOr (Str.fromUtf8 raw) ⟨.parseFailed,
    "MDN notification body contains invalid UTF-8; cannot parse disposition fields",
    .new "as2_receive_mdn_parse"⟩
  parseMdnFields text

/-! ## Parts -/

/-- `is_report_mdn`. -/
def isReportMdn (mail : ParsedMail) : Bool :=
  Str.eqIgnoreAsciiCase mail.mimetype "multipart/report" &&
    (mail.param? "report-type").any (Str.eqIgnoreAsciiCase · "disposition-notification")

/-- `is_signed_mdn`. -/
def isSignedMdn (mail : ParsedMail) : Bool :=
  Str.eqIgnoreAsciiCase mail.mimetype "multipart/signed"

/-- Whether a part is a `message/disposition-notification`. -/
def isNotification (mail : ParsedMail) : Bool :=
  Str.eqIgnoreAsciiCase mail.mimetype "message/disposition-notification"

/-- `report_notification_part`. The only notification is the second part exactly when the
    second part is a notification. -/
def reportNotificationPart (session : SessionContext) (report : ParsedMail) :
    Result (Option ParsedMail) :=
  let refuse := fun message =>
    (.error ⟨.interopViolation, message, .forSession "as2_receive_mdn_parse" session⟩ :
      Result (Option ParsedMail))
  if report.subparts.isEmpty then .ok none
  else if report.subparts.length > 3 then
    refuse ("strict AS2 policy requires multipart/report to contain only the human-readable " ++
      "part, machine-readable part, and optional returned content")
  else if (report.subparts.filter isNotification).length > 1 then
    refuse ("AS2 MDN multipart/report carries more than one message/disposition-notification " ++
      "part; refusing to choose one — the delivery outcome would be decided by document order")
  else
    match report.subparts[1]?.filter isNotification with
    | some part => .ok (some part)
    | none => refuse ("strict AS2 policy requires multipart/report body part 2 to be " ++
        "message/disposition-notification")

/-- `resolve_signed_content_notification_part`. -/
def resolveSignedContentNotificationPart (session : SessionContext) (signed : ParsedMail) :
    Result (Option ParsedMail) :=
  if isNotification signed then .ok (some signed)
  else if isReportMdn signed then reportNotificationPart session signed
  else .error ⟨.interopViolation, "AS2 signed MDN content is '" ++ signed.mimetype ++
    "'; a disposition notification must be message/disposition-notification or multipart/report",
    .forSession "as2_receive_mdn_parse" session⟩

/-- `resolve_mdn_notification_part`. -/
def resolveMdnNotificationPart (session : SessionContext) (mail : ParsedMail) :
    Result (Option ParsedMail) :=
  if isReportMdn mail then reportNotificationPart session mail
  else if isSignedMdn mail then
    match mail.subparts.head? with
    | none => .ok none
    | some signed => resolveSignedContentNotificationPart session signed
  else .ok none

/-! ## Parsing -/

/-- `ParsedMdn`. -/
structure ParsedMdn where
  finalRecipient : Option Str
  originalMessageId : Option Str
  disposition : Str
  receivedContentMic : Option Str
  isSigned : Bool
deriving DecidableEq, Repr

/-- `MAX_AS2_MDN_BYTES`. -/
def maxAs2MdnBytes : Nat := 256 * 1024

/-- `ErrorContext::with_session_and_partner` on a stage. -/
def mdnContext (stage : Str) (session : SessionContext) : ErrorContext :=
  .forSession stage session

/-- The signature of a signed MDN. -/
def verifiedMdnEntity (lib : MdnLibrary) (session : SessionContext) (raw : Bytes)
    (isSigned : Bool) : Result (Option VerifiedSmimeEntity) :=
  if isSigned then
    (lib.verifyAndDecrypt raw).mapError fun err => ⟨.securityVerificationFailed,
      "signed MDN signature verification failed: " ++ err.display,
      mdnContext "as2_receive_mdn_verify" session⟩
  else .ok none

/-- The part that `parse_mdn_with_signer` reads the fields from. -/
def mdnNotification (lib : MdnLibrary) (session : SessionContext) (mail : ParsedMail)
    (verified : Option VerifiedSmimeEntity) : Result (Option ParsedMail) :=
  match verified with
  | none => resolveMdnNotificationPart session mail
  | some entity => do
    let entityMail ← Except.okOr (lib.parseMail entity.entity) ⟨.parseFailed,
      "failed to parse verified mdn entity", mdnContext "as2_receive_mdn_parse" session⟩
    Except.rejectIf ("multipart/".toList.isPrefixOf entityMail.mimetype ∧
        (entityMail.param? "boundary").isNone) ⟨.interopViolation,
      "signed mdn multipart content-type is missing boundary parameter",
      mdnContext "as2_receive_mdn_boundary" session⟩
    resolveSignedContentNotificationPart session entityMail

/-- The fields of an MDN. -/
def mdnFields (session : SessionContext) (raw : Bytes) (verified : Option VerifiedSmimeEntity)
    (part : Option ParsedMail) : Result MdnFields :=
  match part with
  | some part => do
    let body ← Except.okOr part.body ⟨.parseFailed, "failed to decode mdn notification body",
      mdnContext "as2_receive_mdn_parse" session⟩
    parseMdnFieldsFromBytes body
  | none => parseMdnFieldsFromBytes ((verified.map VerifiedSmimeEntity.entity).getD raw)

/-- `parse_mdn_with_signer`. -/
def parseMdnWithSigner (lib : MdnLibrary) (session : SessionContext) (raw : Bytes)
    (requireSigned : Bool) : Result (ParsedMdn × Option Bytes × List Bytes) := do
  Except.rejectIf (raw.length > maxAs2MdnBytes) ⟨.payloadTooLarge,
    "payload exceeds configured max bytes: " ++ showNat raw.length ++ " > " ++
      showNat maxAs2MdnBytes, .new "as2_receive_mdn_parse"⟩
  Except.rejectIf (raw = []) ⟨.parseFailed, "mdn payload is empty",
    mdnContext "as2_receive_mdn_parse" session⟩
  let mail ← Except.okOr (lib.parseMail raw) ⟨.parseFailed, "failed to parse mdn MIME envelope",
    mdnContext "as2_receive_mdn_parse" session⟩
  let isSigned := isSignedMdn mail
  Except.rejectIf (requireSigned = true ∧ isSigned = false) ⟨.securityVerificationFailed,
    "a signed MDN was requested but the received MDN is not multipart/signed",
    mdnContext "as2_receive_mdn_verify" session⟩
  let verified ← verifiedMdnEntity lib session raw isSigned
  let part ← mdnNotification lib session mail verified
  Except.rejectIf (part.isNone ∧ isSigned = false ∧ isReportMdn mail = false) ⟨.interopViolation,
    "strict AS2 policy requires MDN multipart/report or multipart/signed content-type",
    mdnContext "as2_receive_mdn_parse" session⟩
  Except.rejectIf ("multipart/".toList.isPrefixOf mail.mimetype ∧
      (mail.param? "boundary").isNone) ⟨.interopViolation,
    "mdn multipart content-type is missing boundary parameter",
    mdnContext "as2_receive_mdn_boundary" session⟩
  let fields ← mdnFields session raw verified part
  let disposition ← Except.okOr fields.disposition ⟨.parseFailed,
    "mdn is missing disposition field", mdnContext "as2_receive_mdn_parse" session⟩
  Except.rejectIf (¬ "automatic-action/".toList <:+: Str.toAsciiLowercase disposition)
    ⟨.interopViolation, "strict AS2 policy requires disposition with automatic-action",
      mdnContext "as2_receive_mdn_parse" session⟩
  Except.rejectIf (fields.finalRecipient = none) ⟨.interopViolation,
    "AS2 MDN missing final-recipient is not allowed", mdnContext "as2_receive_mdn_parse" session⟩
  pure (⟨fields.finalRecipient, fields.originalMessageId, disposition, fields.receivedContentMic,
    isSigned⟩, verified.bind VerifiedSmimeEntity.signerDer,
    (verified.map VerifiedSmimeEntity.signerPath).getD [])

/-! ## The verdict -/

/-- `body_starts_with_mime_header`. -/
def bodyStartsWithMimeHeader (bytes : Bytes) : Bool :=
  let lineEnd := min ((bytes.takeWhile (· ≠ 10)).length) 998
  let line := bytes.take lineEnd
  let line := if line.getLast? = some 13 then line.dropLast else line
  if 58 ∈ line then
    let name := line.takeWhile (· ≠ 58)
    !name.isEmpty && name.all fun b =>
      let n := b.toNat
      (48 ≤ n && n ≤ 57) || (65 ≤ n && n ≤ 90) || (97 ≤ n && n ≤ 122) || n == 33 ||
        (35 ≤ n && n ≤ 39) || n == 45 || (94 ≤ n && n ≤ 96) || n == 124 || n == 126 || n == 43 ||
        n == 46
  else false

/-- `body_with_mime_headers`. -/
def bodyWithMimeHeaders (bytes : Bytes) (contentType : Option Str) : Bytes :=
  match contentType with
  | none => bytes
  | some contentType =>
    if bodyStartsWithMimeHeader bytes then bytes
    else
      let cte : Str :=
        if bytes.head? = some 0x30 then "Content-Transfer-Encoding: binary\r\n" else []
      Str.utf8 ("MIME-Version: 1.0\r\nContent-Type: " ++ contentType ++ "\r\n" ++ cte ++ "\r\n") ++
        bytes

/-- `normalize_message_id`. -/
def normalizeMessageId (id : Str) : Str :=
  let id := Str.trim id
  let id := (Str.stripPrefix ['<'] id).getD id
  Str.trim ((Str.stripSuffix ['>'] id).getD id)

/-- `Verdict`. -/
inductive MdnVerdict where
  | delivered (disposition : Str) (warning : Option Str)
  | refused (disposition : Str)
  | indeterminate (error : AsxError)
deriving DecidableEq, Repr

/-- `Checked`. -/
structure CheckedMdn where
  parsed : Option ParsedMdn
  signerDer : Option Bytes
  signerPath : List Bytes
  unsignedAccepted : Bool
  verdict : MdnVerdict
deriving DecidableEq, Repr

/-- `verify_failed`. -/
def mdnVerifyFailed (message : Str) : AsxError :=
  ⟨.securityVerificationFailed, message, .new "as2_mdn_verify"⟩

/-- Whether the signer of a signed MDN is pinned. -/
def pinnedSigner (lib : MdnLibrary) (pins : List Bytes) (signerDer : Option Bytes) : Bool :=
  (signerDer.bind lib.fingerprint).any (pins.contains ·)

/-- The `modifier` of `check_mdn`: its name in lower case, without a description. -/
def modifierClass (m : Str) : Str :=
  Str.toAsciiLowercase (Str.trim ((Str.splitChar ':' m).headD m))

/-- The verdict on the disposition and the MIC of an MDN that answers the message. -/
def dispositionVerdict (parsed : ParsedMdn) (expectedMic : Str) : MdnVerdict :=
  let action := ((Str.splitOnce ';' parsed.disposition).map fun r => Str.trim r.2).getD []
  let disposition := parseDisposition parsed.disposition
  let modifier := disposition.modifier.map modifierClass
  let processed := Str.eqIgnoreAsciiCase disposition.dispositionType "processed"
  if Str.eqIgnoreAsciiCase disposition.dispositionType "failed" ∨
      (processed = true ∧ modifier = some "error".toList) then
    .refused action
  else if processed = true ∧ (modifier = none ∨ modifier = some "warning".toList) then
    match parsed.receivedContentMic with
    | some actual =>
      if micValuesMatch actual expectedMic then
        .delivered action (if modifier.isSome then
          some (((Str.splitOnce ':' action).map fun r => Str.trim r.2).getD []) else none)
      else .indeterminate (mdnVerifyFailed
        "the MDN Received-Content-MIC does not match the MIC of the sent message")
    | none => .indeterminate (mdnVerifyFailed "the processed MDN carries no Received-Content-MIC")
  else .indeterminate ⟨.interopViolation, "the MDN disposition " ++ Str.debug action ++
    " is not processed, processed/warning, processed/error or failed", .new "as2_mdn_verify"⟩

/-- `check_mdn`. -/
def checkMdn (lib : MdnLibrary) (session : SessionContext) (pins : List Bytes)
    (requireSigned : Bool) (raw : Bytes) (contentType : Option Str) (expectedId expectedMic : Str) :
    CheckedMdn :=
  let indeterminate := fun err => (⟨none, none, [], false, .indeterminate err⟩ : CheckedMdn)
  if raw.length > maxAs2MdnBytes then
    indeterminate ⟨.payloadTooLarge, "the MDN exceeds " ++ showNat maxAs2MdnBytes ++ " bytes",
      .new "as2_mdn_verify"⟩
  else
    match parseMdnWithSigner lib session (bodyWithMimeHeaders raw contentType) requireSigned with
    | .error err => indeterminate err
    | .ok (parsed, signerDer, signerPath) =>
      let checked := fun verdict =>
        (⟨some parsed, signerDer, signerPath, !parsed.isSigned, verdict⟩ : CheckedMdn)
      if parsed.isSigned = true ∧ pinnedSigner lib pins signerDer = false then
        checked (.indeterminate (mdnVerifyFailed
          "the MDN is not signed by a pinned certificate of the partner"))
      else if ¬ (parsed.originalMessageId.any fun id => normalizeMessageId id == expectedId) then
        checked (.indeterminate (mdnVerifyFailed ("the MDN Original-Message-ID " ++
          Str.debug (parsed.originalMessageId.getD "<absent>") ++ " is not the sent message " ++
          Str.debug expectedId)))
      else checked (dispositionVerdict parsed expectedMic)

end Asx
