import Asx.Native.As2Entity
import Asx.Native.Inbound

/-!
# CMS on the receive path of AS2

`as2/cms_keys.rs`: reading an `EnvelopedData`, choosing its recipient, unwrapping the content key
and decrypting the content. `crypto/as2_smime.rs`: what kind of S/MIME a body is, and the
verification of a signed one. `crypto/compression.rs`: `CompressedData`.

The MIME parser, the ASN.1 decoders, OpenSSL and zlib are parameters (`CmsLibrary`). A
certificate of OpenSSL is its DER, and a `Pkcs7` is what its parser read it from.
-/

namespace Asx

/-! ## Libraries -/

/-- `AlgorithmIdentifierOwned`: the object identifier and the encoding of the parameters. -/
structure AlgorithmIdentifier where
  oid : Str
  parameters : Option Bytes
deriving DecidableEq, Repr

/-- `RsaesOaepParams`. -/
structure RsaesOaepParams where
  hash : Option AlgorithmIdentifier
  maskGen : Option AlgorithmIdentifier
  pSource : Option AlgorithmIdentifier
deriving DecidableEq, Repr

/-- `RecipientIdentifier`. -/
inductive RecipientIdentifier where
  | issuerAndSerialNumber (issuer serialNumber : Bytes)
  | subjectKeyIdentifier (ski : Bytes)
deriving DecidableEq, Repr

/-- `KeyTransRecipientInfo`. -/
structure KeyTransRecipientInfo where
  rid : RecipientIdentifier
  keyEncAlg : AlgorithmIdentifier
  encKey : Bytes
deriving DecidableEq, Repr

/-- `EnvelopedData`; a recipient of another kind is `none`. -/
structure EnvelopedData where
  recipInfos : List (Option KeyTransRecipientInfo)
  contentType : Str
  contentEncAlg : AlgorithmIdentifier
  encryptedContent : Option Bytes
deriving DecidableEq, Repr

/-- What is read of a configured decrypter's certificate. `parsed` holds issuer and serial number
    of an RSA certificate that the `cms` crate reads. -/
structure RecipientCertificate where
  parsed : Option (Bytes × Bytes)
  skiCandidates : List Bytes
deriving DecidableEq, Repr

/-- The content ciphers. -/
inductive ContentCipher where
  | aes128Cbc
  | aes192Cbc
  | aes256Cbc
deriving DecidableEq, Repr

/-- `Cipher::key_len`. -/
def ContentCipher.keyLen : ContentCipher → Nat
  | aes128Cbc => 16
  | aes192Cbc => 24
  | aes256Cbc => 32

/-- The types of a `Pkcs7` that are told apart. -/
inductive Pkcs7Type where
  | enveloped
  | signed
  | other
deriving DecidableEq, Repr

/-- What the AS2 receive path takes from libraries. -/
structure CmsLibrary where
  /-- `parse_mail`: the first `Content-Type` value and the decoded body (`get_body_raw`). -/
  parseMail : Bytes → Option (Option Str × Option Bytes)
  /-- `CmsContentInfo::from_der` with `to_der`. -/
  contentInfoToDer : Bytes → Option Bytes
  /-- `ContentInfo::from_der`: content type and content. -/
  contentInfo : Bytes → Option (Str × Bytes)
  /-- `decode_as::<EnvelopedData>`. -/
  envelopedData : Bytes → Option EnvelopedData
  /-- `decode_as::<RsaesOaepParams>`. -/
  oaepParams : Bytes → Option RsaesOaepParams
  /-- `decode_as::<AlgorithmIdentifierOwned>`. -/
  algorithmIdentifier : Bytes → Option AlgorithmIdentifier
  /-- `decode_as::<OctetString>`. -/
  octetString : Bytes → Option Bytes
  /-- `openssl::symm::decrypt` with cipher, key, IV and ciphertext. -/
  decrypt : ContentCipher → Bytes → Bytes → Bytes → Option Bytes
  /-- `Pkcs7::from_smime`: the structure, and the content when it is detached. -/
  fromSmime : Bytes → Option (Bytes × Option Bytes)
  /-- `Pkcs7::type_`. -/
  pkcs7Type : Bytes → Option Pkcs7Type
  /-- `trust_anchors_x509` and `trust_anchor_x509_store`. -/
  trustStore : List Str → Result Unit
  /-- `X509::stack_from_pem`. -/
  stackFromPem : Str → Option (List Bytes)
  /-- `Pkcs7::verify` with anchors, intermediates, structure and detached content: what it wrote. -/
  pkcs7Verify : List Str → List Bytes → Bytes → Option Bytes → Option Bytes
  /-- `Pkcs7::signers`. -/
  pkcs7Signers : List Bytes → Bytes → Option (List Bytes)
  /-- `verify_cert` for anchors, signer and intermediates, with the path it built. -/
  verifyCert : List Str → Bytes → List Bytes → Option (Bool × List Bytes)
  /-- `Certificate::from_der` with `fingerprint`. -/
  fingerprint : Bytes → Option Bytes
  /-- The first `n` bytes that a `ZlibDecoder` gives. -/
  inflate : Nat → Bytes → Option Bytes
  sha256 : Bytes → Bytes
  sha384 : Bytes → Bytes
  sha512 : Bytes → Bytes

/-! ## The kind of a body -/

/-- `SmimeFormat`. -/
inductive SmimeFormat where
  | multipartSigned
  | enveloped
  | opaqueSignedData
  | authenticatedData
  | digestedData
  | unknown
deriving DecidableEq, Repr

/-- `detect_smime_format_from_pkcs7`. -/
def detectSmimeFormatFromPkcs7 (lib : CmsLibrary) (payload : Bytes) : Option SmimeFormat :=
  match (lib.fromSmime payload).bind fun p => lib.pkcs7Type p.1 with
  | some .enveloped => some .enveloped
  | some .signed => some .opaqueSignedData
  | _ => none

/-- The `header_hint` of `detect_smime_format`, for the lower-case text of the headers. -/
def smimeHeaderHint (lower : Str) : SmimeFormat :=
  if Str.contains lower (.lit "multipart/signed") then .multipartSigned
  else if Str.contains lower (.lit "smime-type=enveloped-data") then .enveloped
  else if Str.contains lower (.lit "smime-type=signed-data") then .opaqueSignedData
  else if Str.contains lower (.lit "smime-type=authenticated-data") then .authenticatedData
  else if Str.contains lower (.lit "smime-type=digested-data") then .digestedData
  else .unknown

/-- `detect_smime_format`: the first 512 bytes are looked at; a `pkcs7-mime` container is told by
    its ASN.1 type first. -/
def detectSmimeFormat (lib : CmsLibrary) (payload : Bytes) : SmimeFormat :=
  match Str.fromUtf8 (payload.take 512) with
  | none => (detectSmimeFormatFromPkcs7 lib payload).getD .unknown
  | some text =>
    let lower := Str.toAsciiLowercase text
    let hint := smimeHeaderHint lower
    if hint = .multipartSigned then hint
    else if Str.contains lower (.lit "application/pkcs7-mime") ∨
        Str.contains lower (.lit "application/x-pkcs7-mime") then
      (detectSmimeFormatFromPkcs7 lib payload).getD hint
    else hint

/-! ## Enveloped data -/

/-- `Transport`. -/
inductive Transport where
  | pkcs1v15
  | oaep
deriving DecidableEq, Repr

/-- `Envelope`. -/
structure Envelope where
  decrypter : Nat
  transport : Transport
  wrapped : Bytes
  cipher : ContentCipher
  iv : Bytes
  ciphertext : Bytes
deriving DecidableEq, Repr

/-- `transport`. -/
def transport (lib : CmsLibrary) (alg : AlgorithmIdentifier) : Option Transport :=
  if alg.oid = .lit "1.2.840.113549.1.1.1" then some .pkcs1v15
  else if alg.oid ≠ .lit "1.2.840.113549.1.1.7" then none
  else do
    let params ← alg.parameters.bind lib.oaepParams
    let sha256 (a : AlgorithmIdentifier) : Bool := a.oid == Str.lit "2.16.840.1.101.3.4.2.1"
    let mgfOk := params.maskGen.any fun mgf => mgf.oid == Str.lit "1.2.840.113549.1.1.8" &&
      (mgf.parameters.bind lib.algorithmIdentifier).any sha256
    let labelOk := match params.pSource with
      | none => true
      | some p => p.oid == Str.lit "1.2.840.113549.1.1.9" &&
          (p.parameters.bind lib.octetString).any List.isEmpty
    if params.hash.any sha256 && mgfOk && labelOk then some .oaep else none

/-- `content_cipher`: the block length of AES is the length of the IV. -/
def contentCipher (lib : CmsLibrary) (alg : AlgorithmIdentifier) : Option (ContentCipher × Bytes) := do
  let cipher ←
    if alg.oid = .lit "2.16.840.1.101.3.4.1.2" then some .aes128Cbc
    else if alg.oid = .lit "2.16.840.1.101.3.4.1.22" then some .aes192Cbc
    else if alg.oid = .lit "2.16.840.1.101.3.4.1.42" then some .aes256Cbc
    else none
  let iv ← alg.parameters.bind lib.octetString
  if iv.length = 16 then some (cipher, iv) else none

/-- `names`, for a certificate that is parsed. -/
def names (rid : RecipientIdentifier) (cert : RecipientCertificate) (parsed : Bytes × Bytes) : Bool :=
  match rid with
  | .issuerAndSerialNumber issuer serialNumber => parsed = (issuer, serialNumber)
  | .subjectKeyIdentifier ski => cert.skiCandidates.contains ski

/-- `content_info_der`. -/
def contentInfoDer (lib : CmsLibrary) (smime : Bytes) : Option Bytes := do
  let raw ← (lib.parseMail smime).bind Prod.snd
  let raw ←
    if raw.head? = some 0x30 then some raw
    else Base64.decodeBytes (raw.filter fun b => !isAsciiWhitespaceByte b)
  lib.contentInfoToDer raw

/-- The loops of `parse_envelope`: every pair of a recipient and a certificate that it names. -/
def selectedRecipients (recipInfos : List (Option KeyTransRecipientInfo))
    (recipients : List RecipientCertificate) : List (Nat × KeyTransRecipientInfo) :=
  recipInfos.reduceOption.flatMap fun ktri =>
    (recipients.zipIdx.filter fun (cert, _) => cert.parsed.any (names ktri.rid cert)).map
      fun (_, index) => (index, ktri)

/-- The `EnvelopedData` of a `ContentInfo`. -/
def envelopedDataOf (lib : CmsLibrary) (contentType : Str) (content : Bytes) : Option EnvelopedData :=
  if contentType = .lit "1.2.840.113549.1.7.3" then lib.envelopedData content else none

/-- The cipher of an `EnvelopedData` that holds data. -/
def dataCipher (lib : CmsLibrary) (enveloped : EnvelopedData) : Option (ContentCipher × Bytes) :=
  if enveloped.contentType = .lit "1.2.840.113549.1.7.1" then
    contentCipher lib enveloped.contentEncAlg
  else none

/-- `parse_envelope`; its one failure is `none`. -/
def parseEnvelope (lib : CmsLibrary) (smime : Bytes) (recipients : List RecipientCertificate) :
    Option Envelope := do
  let der ← contentInfoDer lib smime
  let info ← lib.contentInfo der
  let enveloped ← envelopedDataOf lib info.1 info.2
  let (cipher, iv) ← dataCipher lib enveloped
  let ciphertext ← enveloped.encryptedContent
  match selectedRecipients enveloped.recipInfos recipients with
  | [(decrypter, ktri)] => do
    let transport ← transport lib ktri.keyEncAlg
    some ⟨decrypter, transport, ktri.encKey, cipher, iv, ciphertext⟩
  | _ => none

/-- `decrypt_content`: the plaintext has to be a MIME entity. -/
def Envelope.decryptContent (lib : CmsLibrary) (envelope : Envelope) (cek : Bytes) : Option Bytes := do
  let plain ← lib.decrypt envelope.cipher cek envelope.iv envelope.ciphertext
  if bodyStartsWithMimeHeader plain then some plain else none

/-! ## Signed data -/

/-- What a session says about the partner's certificates. -/
structure As2Session where
  context : SessionContext
  trustAnchorPems : List Str
  intermediateCaPems : List Str
deriving DecidableEq, Repr

/-- `build_chain_policy`. -/
def buildChainPolicy (lib : CmsLibrary) (session : As2Session) : Result Unit := do
  Except.rejectIf (session.trustAnchorPems = []) ⟨.securityVerificationFailed,
    "PKIX chain validation requires at least one trust anchor PEM; call with_cert_handle() and provide trust_anchor_pems before verifying signed AS2 messages",
    .forSession "as2_smime_build_chain_policy" session.context⟩
  lib.trustStore session.trustAnchorPems

/-- An error of `verify_smime_signed_payload`. -/
def smimeVerifyError (message : Str) : AsxError :=
  ⟨.securityVerificationFailed, message, .new "as2_smime_verify"⟩

/-- The error of a body that OpenSSL does not read. -/
def smimeParseError (lib : CmsLibrary) (payload : Bytes) : AsxError :=
  let unsupported (kind parameter : Str) : AsxError := ⟨.interopViolation, "CMS " ++ kind ++
    " (smime-type=" ++ parameter ++ ") is not supported for AS2 signed/encrypted message delivery; partner must use SignedData or EnvelopedData (RFC 5652 §5/§6)",
    .new "as2_smime_verify"⟩
  match detectSmimeFormat lib payload with
  | .authenticatedData => unsupported "AuthenticatedData" "authenticated-data"
  | .digestedData => unsupported "DigestedData" "digested-data"
  | _ => smimeVerifyError "failed to parse S/MIME payload: "

/-- `signer_path`. -/
def signerPath (lib : CmsLibrary) (session : As2Session) (signer : Bytes) (certs : List Bytes) :
    Result (List Bytes) := do
  let (valid, path) ← Except.okOr (lib.verifyCert session.trustAnchorPems signer certs)
    (smimeVerifyError "PKIX certificate validation failed: ")
  Except.rejectIf (valid = false ∨ path = [])
    (smimeVerifyError "the CMS signer does not chain to a configured trust anchor")
  pure path

/-- `verify_smime_signed_payload` without an expected fingerprint. The content is the detached one
    when there is one, and else what the verification wrote. -/
def verifySmimeSignedPayload (lib : CmsLibrary) (session : As2Session) (payload : Bytes) :
    Result VerifiedSmimeEntity := do
  Except.rejectIf (session.trustAnchorPems = [])
    (smimeVerifyError "AS2 CMS verification requires at least one trust anchor")
  let (pkcs7, detached) ← Except.okOr (lib.fromSmime payload) (smimeParseError lib payload)
  let chains ← session.intermediateCaPems.mapM fun pem => Except.okOr (lib.stackFromPem pem)
    (smimeVerifyError "invalid intermediate CA certificate PEM: ")
  let certs := chains.flatten
  let written ← Except.okOr (lib.pkcs7Verify session.trustAnchorPems certs pkcs7 detached)
    (smimeVerifyError "CMS signature verification failed: ")
  let signers ← Except.okOr (lib.pkcs7Signers certs pkcs7)
    (smimeVerifyError "failed to inspect CMS signer certificates: ")
  let signer ← Except.okOr signers.head?
    (smimeVerifyError "CMS payload does not contain signer certificates")
  let path ← signerPath lib session signer certs
  pure ⟨detached.getD written, some signer, path⟩

/-! ## Compressed data -/

/-- `MAX_DECOMPRESSED_BYTES`. -/
def maxDecompressedBytes : Nat := 128 * 1024 * 1024

/-- An error while a `CompressedData` is read. -/
def compressedDataError (message : Str) : AsxError :=
  ⟨.parseFailed, message, .new "decompression_cms_zlib"⟩

/-- `der_take`: the value of the element at the front, and what follows it. -/
def derTake (input : Bytes) (tag : UInt8) : Result (Bytes × Bytes) :=
  match input with
  | [] => .error (compressedDataError "truncated DER: missing tag")
  | actualTag :: rest =>
    if actualTag ≠ tag then
      .error (compressedDataError ("unexpected DER tag 0x" ++ hexLower [actualTag] ++
        " (expected 0x" ++ hexLower [tag] ++ ")"))
    else
      match rest with
      | [] => .error (compressedDataError "truncated DER: missing length")
      | firstLen :: rest => do
        let (len, rest) ←
          if firstLen < 0x80 then pure (firstLen.toNat, rest)
          else do
            let count := firstLen.toNat % 0x80
            Except.rejectIf (count = 0) (compressedDataError
              "indefinite-length DER is not accepted in strict CMS parsing")
            Except.rejectIf (count > 8 ∨ rest.length < count)
              (compressedDataError "DER length field is out of range")
            pure ((rest.take count).foldl (fun len b => len * 256 + b.toNat) 0, rest.drop count)
        Except.rejectIf (rest.length < len) (compressedDataError ("truncated DER: declared length " ++
          showNat len ++ " exceeds " ++ showNat rest.length ++ " remaining bytes"))
        pure (rest.take len, rest.drop len)

/-- `der_expect`: the element has to span the whole input. -/
def derExpect (input : Bytes) (tag : UInt8) : Result Bytes := do
  let (value, rest) ← derTake input tag
  Except.rejectIf (rest ≠ []) (compressedDataError
    ("trailing bytes after DER element (" ++ showNat rest.length ++ " bytes)"))
  pure value

/-- `OID_CT_COMPRESSED_DATA`. -/
def oidCtCompressedData : Bytes :=
  [0x2a, 0x86, 0x48, 0x86, 0xf7, 0x0d, 0x01, 0x09, 0x10, 0x01, 0x09]

/-- `OID_ALG_ZLIB_COMPRESS`. -/
def oidAlgZlibCompress : Bytes :=
  [0x2a, 0x86, 0x48, 0x86, 0xf7, 0x0d, 0x01, 0x09, 0x10, 0x03, 0x08]

/-- `decompress_cms_zlib`. -/
def decompressCmsZlib (lib : CmsLibrary) (der : Bytes) : Result Bytes := do
  let contentInfo ← derExpect der 0x30
  let (contentType, rest) ← derTake contentInfo 0x06
  Except.rejectIf (contentType ≠ oidCtCompressedData) (compressedDataError
    "AS2 compressed entity is not a CMS CompressedData structure (RFC 3274)")
  let (compressedData, _) ← derTake rest 0xa0
  let compressedData ← derExpect compressedData 0x30
  let (_, rest) ← derTake compressedData 0x02
  let (algorithm, rest) ← derTake rest 0x30
  let (algorithmOid, _) ← derTake algorithm 0x06
  Except.rejectIf (algorithmOid ≠ oidAlgZlibCompress) (compressedDataError
    "unsupported CMS compression algorithm; RFC 5402 requires id-alg-zlibCompress")
  let (encap, _) ← derTake rest 0x30
  let (_, rest) ← derTake encap 0x06
  let (econtent, _) ← derTake rest 0xa0
  let (deflated, _) ← derTake econtent 0x04
  let output ← Except.okOr (lib.inflate (maxDecompressedBytes + 1) deflated)
    (compressedDataError "failed to decompress AS2 CMS CompressedData payload: ")
  Except.rejectIf (output.length > maxDecompressedBytes) ⟨.policyViolation,
    "failed to decompress AS2 CMS CompressedData payload: decompressed output exceeds " ++
      showNat maxDecompressedBytes ++ " byte limit (possible decompression bomb)",
    .new "decompression_cms_zlib"⟩
  pure output

/-- `is_as2_compressed_content_type`. -/
def isAs2CompressedContentType (contentType : Str) : Bool :=
  let lower := Str.toAsciiLowercase contentType
  (Str.contains lower (.lit "application/pkcs7-mime") ||
    Str.contains lower (.lit "application/x-pkcs7-mime")) &&
    Str.contains lower (.lit "compressed-data")

/-- `decode_entity_content`. -/
def decodeEntityContent (lib : CmsLibrary) (session : As2Session) (entity : VerifiedSmimeEntity) :
    Result Bytes := do
  let decoded ← entity.decodedContent
  if isAs2CompressedContentType (entity.contentType.getD []) then
    (decompressCmsZlib lib decoded).mapError fun err => ⟨err.code,
      "failed to decompress AS2 payload (RFC 5402): " ++ err.message,
      .forSession "as2_receive_decompress" session.context⟩
  else pure decoded

end Asx
