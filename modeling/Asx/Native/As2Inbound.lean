import Asx.Native.Cms

/-!
# An AS2 request from its headers to its response

`as2/inbound.rs` with `open`, `verify` and `authenticate`. `handle` of `Inbound.lean` asks for
`open` and for the revocation check; here both are carried out, so a request becomes a program
whose calls are the decrypters, the random generator, the revocation check and everything that
`handle` awaits. Running a closure on the blocking pool is not a call: its failures are left out.
-/

namespace Asx

open Interact

/-! ## Headers -/

/-- `HeaderMap::get` followed by `to_str`. -/
abbrev HeaderMap := Str → Option Str

/-- `header`. -/
def header (headers : HeaderMap) (name : Str) : Option Str :=
  ((headers name).map Str.trim).filter (· ≠ [])

/-- The loop of `parse_header_id`; the flag says whether a backslash came before. -/
def unescapeHeaderId : Bool → Str → Str
  | _, [] => []
  | true, c :: s => c :: unescapeHeaderId false s
  | false, c :: s => if c = '\\' then unescapeHeaderId true s else c :: unescapeHeaderId false s

/-- `parse_header_id`. -/
def parseHeaderId (value : Str) : Str :=
  let value := Str.trim value
  match (Str.stripPrefix ['"'] value).bind (Str.stripSuffix ['"']) with
  | some inner => unescapeHeaderId false inner
  | none => value

/-- `As2MicAlgorithm`. -/
inductive As2MicAlgorithm where
  | sha256
  | sha384
  | sha512
deriving DecidableEq, Repr

/-- One token of `signed-receipt-micalg`. -/
def micalgToken (token : Str) : Option As2MicAlgorithm :=
  let token := Str.trim token
  if Str.eqIgnoreAsciiCase token "sha-256" || Str.eqIgnoreAsciiCase token "sha256" then some .sha256
  else if Str.eqIgnoreAsciiCase token "sha-384" || Str.eqIgnoreAsciiCase token "sha384" then
    some .sha384
  else if Str.eqIgnoreAsciiCase token "sha-512" || Str.eqIgnoreAsciiCase token "sha512" then
    some .sha512
  else none

/-- `parse_signed_receipt_micalg`. -/
def parseSignedReceiptMicalg (options : Str) : Option As2MicAlgorithm :=
  (Str.splitChar ';' options).findSome? fun param =>
    let (key, value) := match Str.splitOnce '=' param with
      | some (key, value) => (key, Str.trim value)
      | none => (param, [])
    if Str.eqIgnoreAsciiCase (Str.trim key) "signed-receipt-micalg" then
      (Str.splitChar ',' (Str.trimChar '"' value)).findSome? micalgToken
    else none

/-- What `handle` reads of the headers. -/
def readAs2Request (headers : HeaderMap) (body : Bytes) : As2Request where
  messageId := ((header headers "message-id").map normalizeMessageId).filter fun id =>
    id ≠ [] && !((Str.utf8 id).any fun b => b < 0x20 || b == 0x7F)
  version := header headers "as2-version"
  sender := (header headers "as2-from").map parseHeaderId
  recipient := (header headers "as2-to").map parseHeaderId
  body := body

/-- The `mic_algorithm` of a request. -/
def requestedMicAlgorithm (headers : HeaderMap) : As2MicAlgorithm :=
  ((header headers "disposition-notification-options").bind parseSignedReceiptMicalg).getD .sha256

/-! ## Configuration -/

/-- What is read of a `PartnerPolicy`: the key of the partner, and the fingerprints of its
    certificates. -/
structure As2PartnerPolicy where
  partner : Option (Option Str × Str)
  pins : List Bytes
deriving DecidableEq, Repr

/-- `policy_for`: a partner by type and id, or by its id when that names one alone. -/
def policyFor (partners : List ((Option Str × Str) × As2PartnerPolicy)) (partyType : Option Str)
    (id : Str) : Option As2PartnerPolicy :=
  (partners.lookup (partyType, id)).or
    (match partners.filter fun p => p.1.2 = id with
      | [p] => some p.2
      | _ => none)

/-- `ReceiveView`, as far as it is read. -/
structure ReceiveView where
  requireSigned : Bool
  requireEncrypted : Bool
deriving DecidableEq, Repr

/-- `receive_view`: no profile relaxes it. -/
def receiveView : ReceiveView := ⟨true, true⟩

/-- An AS2 endpoint. -/
structure As2Endpoint where
  localId : Str
  profileName : Str
  partners : List ((Option Str × Str) × As2PartnerPolicy)
  sessions : List ((Option Str × Str) × As2Session)
  /-- The certificates of the configured decrypters. -/
  decrypters : List RecipientCertificate
  audit : Option AuditDurability

namespace As2Endpoint

/-- The session of a partner. -/
def sessionOf (ep : As2Endpoint) (policy : As2PartnerPolicy) : Option As2Session :=
  policy.partner.bind fun key => ep.sessions.lookup key

/-- The policy and the session of a sender, as `handle` looks them up. -/
def partnerOf (ep : As2Endpoint) (sender : Str) : Option (As2PartnerPolicy × As2Session) :=
  (policyFor ep.partners none sender).bind fun policy =>
    (ep.sessionOf policy).map fun session => (policy, session)

/-- The configuration that `handle` reads. -/
def config (ep : As2Endpoint) (lib : CmsLibrary) : As2InboundConfig where
  localId := ep.localId
  profileName := ep.profileName
  partner := fun sender => (policyFor ep.partners none sender).isSome
  session := fun sender => ((policyFor ep.partners none sender).bind ep.sessionOf).isSome
  audit := ep.audit
  sha256 := lib.sha256
  readable := fun der => (lib.fingerprint der).isSome

end As2Endpoint

/-! ## Authentication -/

/-- `compute_mic`. -/
def computeMic (lib : CmsLibrary) (bytes : Bytes) : As2MicAlgorithm → Str × Str
  | .sha256 => (Base64.encode (lib.sha256 bytes), "sha-256")
  | .sha384 => (Base64.encode (lib.sha384 bytes), "sha-384")
  | .sha512 => (Base64.encode (lib.sha512 bytes), "sha-512")

/-- `compressed_entity`. -/
def compressedEntity (lib : CmsLibrary) (plain : Bytes) : Except Str (Bytes × Str) := do
  let refuse : Str := "the decompressed content is not a MIME entity with a Content-Type"
  let (contentType, body) ← Except.okOr (lib.parseMail plain) refuse
  let mediaType ← Except.okOr ((contentType.map Str.trim).filter (· ≠ [])) refuse
  let body ← Except.okOr body refuse
  pure (body, mediaType)

/-- What `authenticate` makes of a verified entity: the payload and its media type. -/
def entityPayload (lib : CmsLibrary) (session : As2Session) (verified : VerifiedSmimeEntity) :
    Except (Refusal × Str) (Bytes × Str) := do
  let entityType := verified.contentType.getD []
  let content ← (decodeEntityContent lib session verified).mapError fun err =>
    if Str.contains err.context.stage "decompress" then (.decompressionFailed, err.message)
    else (.unexpected, err.message)
  if isAs2CompressedContentType entityType then
    (compressedEntity lib content).mapError fun detail => (.decompressionFailed, detail)
  else if Str.trim entityType = [] then pure (content, "application/octet-stream")
  else pure (content, Str.trim entityType)

/-- The signature check of `authenticate`: the verified entity and its pinned signer. -/
def verifyPinned (lib : CmsLibrary) (session : As2Session) (policy : As2PartnerPolicy)
    (decrypted : Bytes) : Except (Refusal × Str) (VerifiedSmimeEntity × Bytes) := do
  let auth (err : AsxError) : Refusal × Str := (.authenticationFailed, err.message)
  (buildChainPolicy lib session).mapError auth
  let verified ← (verifySmimeSignedPayload lib session decrypted).mapError auth
  let signerDer ← Except.okOr verified.signerDer (.authenticationFailed, "no signer certificate")
  Except.rejectIf (¬ (lib.fingerprint signerDer).any fun f => policy.pins.contains f)
    (.authenticationFailed, "the signer is not a pinned certificate of the partner")
  pure (verified, signerDer)

/-- Whether a decrypted entity is taken for a signed one. -/
def claimsSignature (lib : CmsLibrary) (decrypted : Bytes) : Bool :=
  detectSmimeFormat lib decrypted == .multipartSigned ||
    detectSmimeFormat lib decrypted == .opaqueSignedData

/-- `authenticate`; the path of the signer is returned beside the message. -/
def authenticate (lib : CmsLibrary) (session : As2Session) (policy : As2PartnerPolicy)
    (decrypted : Bytes) (micAlgorithm : As2MicAlgorithm) :
    Except (Refusal × Str) (As2Opened × List Bytes) := do
  Except.rejectIf (¬ claimsSignature lib decrypted)
    (.insufficientSecurity, "the message is not signed")
  let (verified, signerDer) ← verifyPinned lib session policy decrypted
  let (content, mediaType) ← entityPayload lib session verified
  let mic := computeMic lib verified.entity micAlgorithm
  pure (⟨content, mediaType, signerDer, mic.1, mic.2⟩, verified.signerPath)

/-! ## Calls -/

/-- The `KeyOp` of a content key. -/
inductive CmsKeyOp where
  | rsaPkcs1v15 (wrapped : Bytes)
  | rsaOaep (wrapped : Bytes)
deriving DecidableEq, Repr

/-- What a request awaits. -/
inductive As2Call where
  /-- `Decrypter::decrypt` of the configured decrypter with this number. -/
  | decrypt (decrypter : Nat) (op : CmsKeyOp)
  /-- `getrandom::fill` of so many bytes. -/
  | random (size : Nat)
  /-- `RevocationService::check`. -/
  | revocation (path : List Bytes)
  | inbound (call : InboundCall)

/-- What a call returns. -/
def As2Call.Answer : As2Call → Type
  | decrypt _ _ => Option Bytes
  | random size => Option { key : Bytes // key.length = size }
  | revocation _ => Except Str Unit
  | inbound call => call.Answer

/-- A request at some point. -/
abbrev As2Prog := Prog As2Call As2Call.Answer InboundAnswer

/-- A call of a request with its answer. -/
abbrev As2Event := Event As2Call As2Call.Answer

/-- The key operation of an envelope. -/
def Envelope.op (envelope : Envelope) : CmsKeyOp :=
  match envelope.transport with
  | .pkcs1v15 => .rsaPkcs1v15 envelope.wrapped
  | .oaep => .rsaOaep envelope.wrapped

/-- `unwrap_cek`: one key operation, and random bytes in place of a key that is not usable. The
    buffer stays zero when there is no randomness. -/
def unwrapCek (envelope : Envelope) (next : Bytes → As2Prog) : As2Prog :=
  .call (.decrypt envelope.decrypter envelope.op) fun (unwrapped : Option Bytes) =>
    match unwrapped.filter fun cek => cek.length = envelope.cipher.keyLen with
    | some cek => next cek
    | none => .call (.random envelope.cipher.keyLen)
        fun (filled : Option { key : Bytes // key.length = envelope.cipher.keyLen }) =>
          next ((filled.map Subtype.val).getD (List.replicate envelope.cipher.keyLen 0))

/-- `verify` of a sealed content. -/
def verifySealed (lib : CmsLibrary) (session : As2Session) (policy : As2PartnerPolicy)
    (micAlgorithm : As2MicAlgorithm) (envelope : Envelope) (cek : Bytes) :
    Except (Refusal × Str) (As2Opened × List Bytes) := do
  let decrypted ← Except.okOr (envelope.decryptContent lib cek)
    (Refusal.decryptionFailed, Str.lit "decryption failed")
  authenticate lib session policy decrypted micAlgorithm

/-- `open`, and what is done with its result. -/
def openThen (lib : CmsLibrary) (decrypters : List RecipientCertificate) (session : As2Session)
    (policy : As2PartnerPolicy) (headers : HeaderMap) (body : Bytes)
    (next : Except (Refusal × Str) (As2Opened × List Bytes) → As2Prog) : As2Prog :=
  let entity := bodyWithMimeHeaders body (header headers "content-type")
  let micAlgorithm := requestedMicAlgorithm headers
  if detectSmimeFormat lib entity = .enveloped then
    match parseEnvelope lib entity decrypters with
    | some envelope => unwrapCek envelope fun cek =>
        next (verifySealed lib session policy micAlgorithm envelope cek)
    | none => next (.error (.decryptionFailed, "decryption failed"))
  else if receiveView.requireEncrypted then
    next (.error (.insufficientSecurity, "the message is not encrypted"))
  else next (authenticate lib session policy entity micAlgorithm)

/-! ## Requests -/

/-- `handle` with `open` and the revocation check carried out; `path` is the signer's path once
    there is one. `handle` asks for `open` only after it has found policy and session. -/
def serve (lib : CmsLibrary) (ep : As2Endpoint) (sender : Str) (headers : HeaderMap) (body : Bytes) :
    InboundProg → List Bytes → As2Prog
  | .ret answer, _ => .ret answer
  | .call .openAs2 k, path =>
    match ep.partnerOf sender with
    | some (policy, session) => openThen lib ep.decrypters session policy headers body fun opened =>
        match opened with
        | .ok (opened, path) => serve lib ep sender headers body (k (.ok (.ok opened))) path
        | .error refusal => serve lib ep sender headers body (k (.ok (.error refusal))) path
    | none => serve lib ep sender headers body
        (k (.ok (.error (.authenticationFailed, "no session for the partner")))) path
  | .call .revocation k, path =>
    .call (.revocation path) fun outcome => serve lib ep sender headers body (k outcome) path
  | .call call k, path =>
    .call (.inbound call) fun answer => serve lib ep sender headers body (k answer) path

/-- A request at an AS2 endpoint. -/
def as2Serve (lib : CmsLibrary) (ep : As2Endpoint) (headers : HeaderMap) (body : Bytes) : As2Prog :=
  let req := readAs2Request headers body
  serve lib ep (req.sender.getD []) headers body (as2Handle (ep.config lib) req) []

end Asx
