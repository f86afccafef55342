import Asx.Native.Inbound

/-!
# Local keys and the two passes of `verify`

`verify` of `as4/inbound.rs` with its `Keys` and `Deferred`, `party.rs` and the key operations
of `keys.rs`. The last step of the receive path is written again over a private-key step in
any monad: the step of an external decrypter leaves a note of the operation it was asked for.
Each pass reads the clock and draws its own random content keys.
-/

namespace Asx

open Xml

/-! ## Key operations -/

/-- `OwnedKeyOp`. -/
inductive OwnedKeyOp where
  | rsaOaep (wrapped : Bytes)
  | ecdh (spki : Bytes)
deriving DecidableEq, Repr

/-- What local keys take from OpenSSL. -/
structure KeyLibrary where
  /-- The `SubjectPublicKeyInfo` of a point on a curve. -/
  publicKeyToDer : NamedCurve → Bytes → Option Bytes
  /-- `BigNum::from_dec_str`. -/
  bigNumFromDecStr : Str → Option Int

/-- `public_op`. -/
def publicOp (lib : KeyLibrary) : KeyOp → Option OwnedKeyOp
  | .rsaOaep wrapped params => if params.digest = .sha256 then some (.rsaOaep wrapped) else none
  | .ecdh curve peer => (lib.publicKeyToDer curve peer).map .ecdh

/-! ## Local keys -/

/-- `Certificate`, as far as key selection reads it. -/
structure LocalCertificate where
  der : Bytes
  /-- The extension. -/
  subjectKeyId : Option Bytes
  /-- The SHA-1 of `public_key_bits`. -/
  publicKeySha1 : Option Bytes
  serialNumber : Option Int
  /-- The entries of the issuer's name: the short name of the attribute and its text. -/
  issuerName : List (Option Str × Str)
  /-- `recipient_key`. -/
  recipientKey : Option RecipientKey

/-- `ski_candidates`. -/
def LocalCertificate.skiCandidates (cert : LocalCertificate) : List Bytes :=
  let out := cert.subjectKeyId.toList
  match cert.publicKeySha1 with
  | some digest => if digest ∈ out then out else out ++ [digest]
  | none => out

/-- The `normalize` of `issuer_serial_matches`. -/
def normalizeIssuer (s : Str) : List Str :=
  (Str.splitChar ',' s).map fun part =>
    let (k, v) := (Str.splitOnce '=' part).getD (part, [])
    Str.toAsciiUppercase (Str.trim k) ++ "=" ++ Str.trim v

/-- `issuer_serial_matches`. -/
def issuerSerialMatches (lib : KeyLibrary) (cert : LocalCertificate) (issuer serial : Str) : Bool :=
  match lib.bigNumFromDecStr (Str.trim serial), cert.serialNumber with
  | some wanted, some own =>
    let ours := cert.issuerName.map fun e =>
      Str.toAsciiUppercase (e.1.getD "?") ++ "=" ++ Str.trim e.2
    let theirs := normalizeIssuer issuer
    own == wanted && (ours == theirs || ours.reverse == theirs)
  | _, _ => false

/-- `KeyPair`, as far as it decrypts. -/
structure KeyPair where
  /-- `decrypt_now`. -/
  decryptNow : OwnedKeyOp → Except Str Bytes

/-- `LocalDecrypter`: a key pair when it is one, else only what `Decrypter::decrypt` answers. -/
structure LocalDecrypter where
  certificate : LocalCertificate
  keyPair : Option KeyPair
  decrypt : OwnedKeyOp → Except Str Bytes

/-- The configured decrypters. -/
structure LocalKeys where
  lib : KeyLibrary
  decrypters : List LocalDecrypter

/-! ## Private-key steps -/

/-- `PrivateKeyStep`. -/
abbrev KeyStep (m : Type → Type) := KeyOp → m (Result Bytes)

/-- `RecipientKeys`, over steps in a monad. -/
abbrev StepKeys (m : Type → Type) := EncryptedKeySpec → Option (RecipientKey × KeyStep m)

/-- An operation with the index of the decrypter it is for. -/
abbrev AskedOp := Nat × OwnedKeyOp

/-- `Answers`. -/
abbrev Answers := List (AskedOp × Option Bytes)

/-- A pass: it records the operations that wait for an answer. -/
abbrev Pending := StateM (List AskedOp)

/-- The `fail` of the key steps. -/
def keyStepFailed : AsxError :=
  ⟨.decryptionFailed, "XML Encryption decryption failed", .new "wssec_xmlenc"⟩

/-- `decrypt` of a `KeyPair` on the key seam. -/
def KeyPair.step (lib : KeyLibrary) (pair : KeyPair) (op : KeyOp) : Result Bytes := do
  let owned ← Except.okOr (publicOp lib op) keyStepFailed
  (pair.decryptNow owned).mapError fun _ => keyStepFailed

/-- `decrypt` of `Deferred`. -/
def deferredStep (lib : KeyLibrary) (index : Nat) (answers : Answers) : KeyStep Pending := fun op =>
  match publicOp lib op with
  | none => pure (.error keyStepFailed)
  | some owned =>
    match answers.lookup (index, owned) with
    | some (some secret) => pure (.ok secret)
    | some none => pure (.error keyStepFailed)
    | none => do
      modify (· ++ [(index, owned)])
      pure (.error keyStepFailed)

/-- Whether a certificate is the one that an `xenc:EncryptedKey` names. -/
def namesCertificate (lib : KeyLibrary) (recipient : Option RecipientRef)
    (cert : LocalCertificate) : Bool :=
  match recipient with
  | some (.ski ski) => cert.skiCandidates.contains ski
  | some (.certificate der) => cert.der == der
  | some (.issuerSerial issuer serial) => issuerSerialMatches lib cert issuer serial
  | none => false

/-- The decrypters whose certificate is named. -/
def LocalKeys.matching (keys : LocalKeys) (spec : EncryptedKeySpec) :
    List (Nat × LocalDecrypter) :=
  keys.decrypters.zipIdx.filterMap fun d =>
    if namesCertificate keys.lib spec.recipient d.1.certificate then some (d.2, d.1) else none

/-- `select`. -/
def LocalKeys.select (keys : LocalKeys) (answers : Answers) : StepKeys Pending := fun spec =>
  match keys.matching spec with
  | [(index, key)] => do
    let recipient ← key.certificate.recipientKey
    match key.keyPair with
    | some pair => some (recipient, fun op => pure (pair.step keys.lib op))
    | none => some (recipient, deferredStep keys.lib index answers)
  | _ => none

/-! ## The last step of the receive path, over key steps -/

section

variable {m : Type → Type} [Monad m]

/-- `unlock_cek`. -/
def unlockCekM (ops : XmlEncOps) (bound : BoundKey) (cipher : XmlEncPayloadAlgorithm)
    (decrypter : KeyStep m) : m Bytes := do
  let answer ← decrypter bound.op
  pure (unlockCek ops bound cipher fun _ => answer)

/-- `decrypt_attachments`. -/
def decryptAttachmentsM (ops : XmlEncOps) (envelope : ResolvedEnvelope) (bodies : List Bytes)
    (keys : StepKeys m) : ExceptT AsxError m (List Bytes) :=
  match envelope.data.head? with
  | none => pure []
  | some first => do
    let cipher := first.cipher
    MonadExcept.ofExcept (Except.rejectIf ((envelope.data.any fun d => d.cipher ≠ cipher) ∨
        bodies.length ≠ envelope.data.length)
      (xmlencRefused "the encrypted parts declare different content ciphers"))
    let (recipient, decrypter) ← MonadExcept.ofExcept
      (Except.okOr (keys envelope.key) uniformFailure)
    let bound ← MonadExcept.ofExcept (bindKey ops envelope.key recipient)
    let cek ← ExceptT.lift (unlockCekM ops bound cipher decrypter)
    MonadExcept.ofExcept (bodies.mapM (decryptContent ops cipher cek))

/-- `openParts`. -/
def openPartsM (lib : As4Library) (session : SessionContext) (policy : As4PushPolicy)
    (authenticated : AuthenticatedInbound) (keys : StepKeys m) (suite : Suite)
    (inbound : InboundBody) : ExceptT AsxError m (List (Str × Bytes × Str)) := do
  let messageId := authenticated.parsed.messageId
  let parts ← MonadExcept.ofExcept
    (matchParts session messageId authenticated.declared inbound.multipart)
  let envelope ← MonadExcept.ofExcept (resolveInboundEnvelope session policy messageId inbound.doc
    authenticated.declared suite)
  let restored ← MonadExcept.ofExcept
    (restoredTypes session messageId authenticated.partProperties envelope)
  let plaintexts ← ExceptT.adapt (·.withMessageId messageId)
    (decryptAttachmentsM lib.ops envelope (encryptedBodies envelope parts) keys)
  let inputs ← MonadExcept.ofExcept (digestInputs lib.roxmltree plaintexts restored)
  let cids := envelope.data.map DataSpec.cid
  MonadExcept.ofExcept ((verifyCidReferences lib.pki.digests authenticated.deferred
    (cids.zip inputs)).mapError (·.withMessageId messageId))
  MonadExcept.ofExcept (decompressParts lib.ops session messageId authenticated.partProperties
    (cids.zip plaintexts) authenticated.declared)

/-- `inboundPayloads`. -/
def inboundPayloadsM (lib : As4Library) (session : SessionContext) (policy : As4PushPolicy)
    (authenticated : AuthenticatedInbound) (keys : StepKeys m) (suite : Suite)
    (inbound : InboundBody) : ExceptT AsxError m (List (Str × Bytes × Str)) :=
  if isTestService authenticated.parsed then pure []
  else if isPathSwitch policy authenticated then do
    MonadExcept.ofExcept
      (checkPayloadLess session authenticated.parsed.messageId inbound.doc inbound.multipart)
    pure []
  else openPartsM lib session policy authenticated keys suite inbound

/-- `open_inbound`. -/
def openInboundM (lib : As4Library) (session : SessionContext) (policy : As4PushPolicy)
    (now : SystemTime) (body : Bytes) (contentType : Str) (authenticated : AuthenticatedInbound)
    (keys : StepKeys m) (suite : Suite) : ExceptT AsxError m VerifiedInbound := do
  MonadExcept.ofExcept (enforceTimestampFreshness policy authenticated.parsed now)
  let inbound ← MonadExcept.ofExcept (readInboundBody lib session body contentType)
  let payloads ← inboundPayloadsM lib session policy authenticated keys suite inbound
  pure
    { parsed := authenticated.parsed
      payloads
      signerDer := authenticated.signerDer
      references := authenticated.references
      nri := authenticated.nri }

end

/-! ## The passes -/

/-- What a pass finds: the clock, and the content keys it draws where a key operation fails. -/
structure Pass where
  now : SystemTime
  randomCek : XmlEncPayloadAlgorithm → Bytes

/-- The libraries during a pass. -/
def As4Library.during (lib : As4Library) (pass : Pass) : As4Library :=
  { lib with ops := { lib.ops with randomCek := pass.randomCek } }

/-- One iteration of the loop of `verify`, with `take_pending`. -/
def runPass (ctx : As4VerifyContext) (keys : LocalKeys) (body : Bytes) (contentType : Str)
    (authenticated : AuthenticatedInbound) (answers : Answers) (pass : Pass) :
    Result VerifiedInbound × List AskedOp :=
  (openInboundM (ctx.lib.during pass) ctx.session ctx.policy pass.now body contentType
    authenticated (keys.select answers) ctx.suite).run.run []

/-- The answers of the decrypters; a failure is one of them. Every index is a decrypter's. -/
def askDecrypters (keys : LocalKeys) (pending : List AskedOp) : Answers :=
  pending.foldl (fun answers asked =>
    (asked, (keys.decrypters[asked.1]?).bind fun d => (d.decrypt asked.2).toOption) :: answers) []

/-- The loop of `verify`: its result, and what the external decrypters were asked. -/
def verifyPasses (ctx : As4VerifyContext) (keys : LocalKeys) (body : Bytes) (contentType : Str)
    (authenticated : AuthenticatedInbound) (first second : Pass) :
    Result VerifiedInbound × List AskedOp :=
  let (result, pending) := runPass ctx keys body contentType authenticated [] first
  if pending.isEmpty then (result, [])
  else
    ((runPass ctx keys body contentType authenticated (askDecrypters keys pending) second).1,
      pending)

/-- What comes before the loop of `verify`. -/
def authenticatedSender (ctx : As4VerifyContext) (body : Bytes) (contentType : Str) :
    Result AuthenticatedInbound := do
  let authenticated ← authenticateInbound ctx.lib ctx.session ctx.policy ctx.chainPolicy
    ctx.authenticatedAt body contentType ctx.authorize ctx.localId ctx.localType
  forM (ctx.revocation authenticated.signerPath) fun refused =>
    .error (revocationError ctx.session authenticated.parsed.messageId refused)
  pure authenticated

/-- `verify`, with the keys and the passes in place of the context's `keys` and `openedAt`. -/
def as4VerifyWith (ctx : As4VerifyContext) (keys : LocalKeys) (first second : Pass) (body : Bytes)
    (contentType : Str) : Result VerifiedInbound × List AskedOp :=
  match authenticatedSender ctx body contentType with
  | .ok authenticated => verifyPasses ctx keys body contentType authenticated first second
  | .error e => (.error e, [])

end Asx
