import Asx.Native.XmlEnc
import Asx.Native.XmlParse

/-!
# Opening encrypted attachments

`crypto/wssec/xmlenc/mod.rs` with `kdf.rs`, `keywrap.rs`, `gcm.rs` and the point check of
`agreement.rs`, and `swa_attachment_digest_input` of `crypto/wssec/canonicalize.rs`. The
ciphers, the curve arithmetic and the random keys are parameters (`XmlEncOps`), and so is the
private key (`RecipientKeys`).
-/

namespace Asx

open Xml

/-- What decryption takes from libraries. -/
structure XmlEncOps where
  digests : Digests
  /-- `EcPoint::from_bytes` and `EC_KEY_check_key`: the reason for a refusal. -/
  checkPoint : NamedCurve → Bytes → Except Str Unit
  /-- RFC 3394 unwrapping: key-encryption key, wrapped key. -/
  aesKwUnwrap : KeyWrapAlg → Bytes → Bytes → Option Bytes
  /-- AES-GCM: key, nonce, ciphertext with tag. -/
  aesGcmOpen : XmlEncPayloadAlgorithm → Bytes → Bytes → Bytes → Option Bytes
  /-- The content key drawn when a key operation fails. -/
  randomCek : XmlEncPayloadAlgorithm → Bytes
  /-- `decompress_gzip`. -/
  decompressGzip : Bytes → Result Bytes

/-- `XmlEncPayloadAlgorithm::key_len`. -/
def XmlEncPayloadAlgorithm.keyLen : XmlEncPayloadAlgorithm → Nat
  | .aes128Gcm => 16
  | .aes256Gcm => 32

/-- `KeyWrapAlg::kek_len`. -/
def KeyWrapAlg.kekLen : KeyWrapAlg → Nat
  | .aes128 => 16
  | .aes192 => 24
  | .aes256 => 32

/-- `NamedCurve::field_len`. -/
def NamedCurve.fieldLen : NamedCurve → Nat
  | .p256 | .brainpoolP256r1 => 32
  | .p384 | .brainpoolP384r1 => 48
  | .brainpoolP512r1 => 64
  | .p521 => 66

/-- The derived `Debug` of `NamedCurve`. -/
def NamedCurve.debug : NamedCurve → Str
  | .p256 => "P256"
  | .p384 => "P384"
  | .p521 => "P521"
  | .brainpoolP256r1 => "BrainpoolP256r1"
  | .brainpoolP384r1 => "BrainpoolP384r1"
  | .brainpoolP512r1 => "BrainpoolP512r1"

/-- `NamedCurve::uri`. -/
def NamedCurve.uri (c : NamedCurve) : Str := (Alg.curve c).uri

/-! ## The private-key step -/

/-- `RecipientKey`. -/
inductive RecipientKey where
  | rsa
  | ec (curve : NamedCurve)
deriving DecidableEq, Repr

/-- The derived `Debug` of `RecipientKey`. -/
def RecipientKey.debug : RecipientKey → Str
  | .rsa => "Rsa"
  | .ec curve => "Ec(" ++ curve.debug ++ ")"

/-- `KeyOp`. -/
inductive KeyOp where
  | rsaOaep (wrapped : Bytes) (params : RsaOaepParams)
  | ecdh (curve : NamedCurve) (peer : Bytes)
deriving DecidableEq, Repr

/-- `RecipientKeys`: the key that an `xenc:EncryptedKey` names, with its private-key step. -/
abbrev RecipientKeys := EncryptedKeySpec → Option (RecipientKey × (KeyOp → Result Bytes))

/-- `BoundKey`. -/
inductive BoundKey where
  | rsaOaep (params : RsaOaepParams) (wrapped : Bytes)
  | ecdh (curve : NamedCurve) (point : Bytes) (kdfDigest : WsSecDigestMethod)
      (kdfParams : ConcatKdfParams) (wrap : KeyWrapAlg) (wrapped : Bytes)
deriving DecidableEq, Repr

/-- The private-key operation of a bound key. -/
def BoundKey.op : BoundKey → KeyOp
  | .rsaOaep params wrapped => .rsaOaep wrapped params
  | .ecdh curve point _ _ _ _ => .ecdh curve point

/-- The `rejected` of `agreement.rs`. -/
def pointRejected (curve : NamedCurve) (reason : Str) : AsxError :=
  ⟨.interopViolation, "originator public key on " ++ curve.debug ++ " rejected: " ++ reason,
    .new "wssec_decrypt_payload"⟩

/-- `validate_originator_point`. -/
def validateOriginatorPoint (ops : XmlEncOps) (curve : NamedCurve) (encoded : Bytes) :
    Result Unit := do
  match encoded.head? with
    | none | some 0x00 => throw (pointRejected curve "the point at infinity")
    | some 0x02 | some 0x03 => throw (pointRejected curve
        "compressed point form (only the uncompressed 0x04 form is accepted)")
    | some 0x04 => pure ()
    | some other => throw (pointRejected curve ("unknown point form 0x" ++ hexLower [other]))
  Except.rejectIf (encoded.length ≠ 1 + 2 * curve.fieldLen) (pointRejected curve
    (showNat encoded.length ++ " octets; " ++ showNat (1 + 2 * curve.fieldLen) ++ " required"))
  (ops.checkPoint curve encoded).mapError (pointRejected curve)

/-- `bind`, for the recipient that was selected. -/
def bindKey (ops : XmlEncOps) (spec : EncryptedKeySpec) (recipient : RecipientKey) :
    Result BoundKey :=
  match spec.transport, recipient with
  | .rsaOaep params, .rsa => .ok (.rsaOaep params spec.wrappedKey)
  | .rsaOaep _, other => .error (xmlencRefused
      ("RSA-OAEP key transport to a recipient key that is not RSA (Some(" ++ other.debug ++ "))"))
  | .agreement agreement, .ec curve => do
    Except.rejectIf (agreement.originatorCurve ≠ curve) (xmlencRefused ("dsig11:NamedCurve " ++
      agreement.originatorCurve.uri ++ " does not match the recipient key's curve " ++
      curve.debug))
    validateOriginatorPoint ops curve agreement.originatorPoint
    pure (.ecdh curve agreement.originatorPoint agreement.kdfDigest agreement.kdfParams
      agreement.wrap spec.wrappedKey)
  | .agreement _, other => .error (xmlencRefused
      ("ECDH-ES key agreement to a recipient key that is not EC (Some(" ++ other.debug ++ "))"))

/-- `ConcatKdfParams::other_info`, concatenated. -/
def ConcatKdfParams.otherInfo (p : ConcatKdfParams) : Bytes :=
  p.algorithmId ++ p.partyUInfo ++ p.partyVInfo ++ p.suppPubInfo ++ p.suppPrivInfo

/-- `u32::to_be_bytes`. -/
def beBytes32 (n : Nat) : Bytes :=
  [.ofNat (n / 2 ^ 24), .ofNat (n / 2 ^ 16), .ofNat (n / 2 ^ 8), .ofNat n]

/-- The loop of `concat_kdf`, from a counter on. A digest has at least one byte, so the number
    of bytes still wanted bounds the number of rounds. -/
def concatKdfBlocks (hash : Bytes → Bytes) (z otherInfo : Bytes) (wanted : Nat) :
    Nat → Nat → Bytes → Bytes
  | 0, _, out => out
  | rounds + 1, counter, out =>
    if out.length < wanted then
      concatKdfBlocks hash z otherInfo wanted rounds (counter + 1)
        (out ++ hash (beBytes32 counter ++ z ++ otherInfo))
    else out

/-- `concat_kdf`. -/
def concatKdf (digests : Digests) (digest : WsSecDigestMethod) (z : Bytes) (keydatalenBits : Nat)
    (params : ConcatKdfParams) : Bytes :=
  let wanted := (keydatalenBits + 7) / 8
  (concatKdfBlocks (digests digest) z params.otherInfo wanted wanted 1 []).take wanted

/-- An error of the key unwrapping. -/
def keyWrapError (detail : Str) : AsxError :=
  ⟨.decryptionFailed, "AES key wrap: " ++ detail, .new "wssec_aes_kw"⟩

/-- `keywrap::unwrap`. -/
def unwrapKey (ops : XmlEncOps) (alg : KeyWrapAlg) (kek wrapped : Bytes) : Result Bytes := do
  Except.rejectIf (kek.length ≠ alg.kekLen)
    (keyWrapError "KEK length does not match the declared key wrap")
  Except.rejectIf (wrapped.length < 16) (keyWrapError "wrapped key too short")
  Except.okOr (ops.aesKwUnwrap alg kek wrapped) (keyWrapError "integrity check failed")

/-- The key operation of `unlock_cek`. -/
def unlockKey (ops : XmlEncOps) (bound : BoundKey) (decrypter : KeyOp → Result Bytes) :
    Result Bytes :=
  match bound with
  | .rsaOaep params wrapped => decrypter (.rsaOaep wrapped params)
  | .ecdh curve point kdfDigest kdfParams wrap wrapped => do
    let z ← decrypter (.ecdh curve point)
    unwrapKey ops wrap (concatKdf ops.digests kdfDigest z (wrap.kekLen * 8) kdfParams) wrapped

/-- `unlock_cek`. -/
def unlockCek (ops : XmlEncOps) (bound : BoundKey) (cipher : XmlEncPayloadAlgorithm)
    (decrypter : KeyOp → Result Bytes) : Bytes :=
  match unlockKey ops bound decrypter with
  | .ok cek => if cek.length = cipher.keyLen then cek else ops.randomCek cipher
  | .error _ => ops.randomCek cipher

/-- `uniform_failure`. -/
def uniformFailure : AsxError :=
  ⟨.decryptionFailed, "XML Encryption decryption failed", .new "wssec_decrypt_payload"⟩

/-- `decrypt_content`, with `gcm::decrypt`: nonce, ciphertext and tag. -/
def decryptContent (ops : XmlEncOps) (cipher : XmlEncPayloadAlgorithm) (cek blob : Bytes) :
    Result Bytes := do
  Except.rejectIf (cek.length ≠ cipher.keyLen ∨ blob.length < 12 + 16) uniformFailure
  Except.okOr (ops.aesGcmOpen cipher cek (blob.take 12) (blob.drop 12)) uniformFailure

/-- `decrypt_attachments`. -/
def decryptAttachments (ops : XmlEncOps) (envelope : ResolvedEnvelope) (bodies : List Bytes)
    (keys : RecipientKeys) : Result (List Bytes) :=
  match envelope.data.head? with
  | none => .ok []
  | some first => do
    let cipher := first.cipher
    Except.rejectIf ((envelope.data.any fun d => d.cipher ≠ cipher) ∨
        bodies.length ≠ envelope.data.length)
      (xmlencRefused "the encrypted parts declare different content ciphers")
    let (recipient, decrypter) ← Except.okOr (keys envelope.key) uniformFailure
    let bound ← bindKey ops envelope.key recipient
    let cek := unlockCek ops bound cipher decrypter
    bodies.mapM (decryptContent ops cipher cek)

/-! ## The digest input of an attachment -/

/-- The text branch of `swa_attachment_digest_input`: line ends become CR LF. -/
def normalizeLineEndings : Bytes → Bytes
  | [] => []
  | 0x0D :: 0x0A :: rest => 0x0D :: 0x0A :: normalizeLineEndings rest
  | 0x0D :: rest => 0x0D :: 0x0A :: normalizeLineEndings rest
  | 0x0A :: rest => 0x0D :: 0x0A :: normalizeLineEndings rest
  | b :: rest => b :: normalizeLineEndings rest

/-- `DEFAULT_MAX_BODY_BYTES`. -/
def defaultMaxBodyBytes : Nat := 256 * 1024 * 1024

/-- The XML branch of `swa_attachment_digest_input`. -/
def canonicalAttachment (roxmltree : Roxmltree) (bytes : Bytes) : Result Bytes := do
  let doc ← (parseXmlBytes roxmltree bytes (.payload defaultMaxBodyBytes)
    "wssec_swa_attachment").mapError fun err => ⟨.parseFailed,
      "XML-typed attachment does not parse; the SwA transform requires canonicalizing XML " ++
        "content: " ++ err.message, .new "wssec_swa_attachment"⟩
  let out ← Except.okOr (trySerializeNode .exclusive doc.root) ⟨.securityVerificationFailed,
    "failed to canonicalize XML attachment content", .new "wssec_swa_attachment"⟩
  pure (Str.utf8 out)

/-- `swa_attachment_digest_input`. -/
def swaAttachmentDigestInput (roxmltree : Roxmltree) (contentType : Option Str) (bytes : Bytes) :
    Result Bytes :=
  let media : Str := match contentType with
    | some ct => Str.toAsciiLowercase (Str.trim ((Str.splitChar ';' ct).headD []))
    | none => []
  if media = ("text/xml" : Str) ∨ media = ("application/xml" : Str) ∨
      ("+xml" : Str).isSuffixOf media then
    canonicalAttachment roxmltree bytes
  else if ("text/" : Str).isPrefixOf media then .ok (normalizeLineEndings bytes)
  else .ok bytes

end Asx
