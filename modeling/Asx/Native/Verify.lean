import Asx.Native.SignatureMaterial
import Asx.Native.Time

/-!
# Signature verification

The verification pipeline of `crypto/wssec/verify.rs`. Certificates and signature values
are checked by `crypto/wssec/x509.rs` and OpenSSL; what these answer is a parameter of the
model (`Pki`), so everything proved of the pipeline holds whatever they answer.
-/

namespace Asx

open Xml

/-! ## Certificates and keys -/

/-- `openssl::pkey::Id`, as far as `check_key_family` tells key types apart. -/
inductive KeyId where
  | rsa
  | rsaPss
  | ec
  | other (debug : Str)
deriving DecidableEq, Repr

/-- `ChainPolicy`, without its caches. -/
structure ChainPolicy where
  trustAnchorPems : List Str
  requireChainValidation : Bool
deriving DecidableEq, Repr

/-- The certificate and signature operations. Keys are passed in their encoded form. -/
structure Pki where
  digests : Digests
  /-- `validate_x509_certificate`. -/
  validateX509Certificate : Bytes → Result Unit
  /-- `validate_cert_public_key_matches_rsa_keyvalue`. -/
  validateCertPublicKeyMatchesRsaKeyvalue : Bytes → Bytes → Bytes → Result Unit
  /-- `validate_chain_offline`: the validated path. -/
  validateChainOffline : List Bytes → ChainPolicy → Result (List Bytes)
  /-- `X509::from_der` followed by `public_key().id()`; the outer `none` is a certificate
      that does not parse, the inner one a certificate without a usable key. -/
  publicKeyId : Bytes → Option (Option KeyId)
  /-- `SignatureAlgorithm::from_wire`. -/
  fromWire : SignatureAlgorithm → Bytes → Bytes → Result Bytes
  /-- The key of an EC certificate. -/
  ecPublicKey : Bytes → Result Bytes
  /-- `extract_rsa_keyvalue_from_cert` and `pkey_from_rsa_components`. -/
  rsaPublicKey : Bytes → Result Bytes
  /-- OpenSSL's verifier: algorithm, key, data and signature. -/
  verify : SignatureAlgorithm → Bytes → Bytes → Bytes → Result Bool

/-- `CertFingerprint::from_cert_der`: the SHA-256 of the certificate. -/
def Pki.fingerprint (pki : Pki) (der : Bytes) : Bytes := pki.digests .sha256 der

/-- An error of the signature value check. -/
def signatureValueError (code : ErrorCode) (message : Str) : AsxError :=
  ⟨code, message, .new "wssec_verify_signature_value"⟩

/-- `check_key_family`. -/
def checkKeyFamily (algorithm : SignatureAlgorithm) (keyId : Option KeyId) : Result Unit := do
  let keyId ← Except.okOr keyId (signatureValueError .securityVerificationFailed
    "signer certificate does not contain a usable public key: ")
  let certFamily : Option KeyFamily := match keyId with
    | .rsa | .rsaPss => some .rsa
    | .ec => some .ec
    | .other _ => none
  let keyType : Str := match keyId with
    | .rsa | .rsaPss => "an RSA"
    | .ec => "an EC"
    | .other debug => "a " ++ debug
  Except.rejectIf (certFamily ≠ some algorithm.keyFamily)
    (signatureValueError .securityVerificationFailed ("SignatureMethod " ++
      algorithm.algorithmUri ++ " does not match the signer certificate, which carries " ++
      keyType ++ " key"))

/-- `WsSecVerifyOptions`. Fingerprints are compared as digests. -/
structure WsSecVerifyOptions where
  expectedCertFingerprints : List Bytes
  signerCheck : Option (Bytes → Result Unit)
  chainPolicy : ChainPolicy
  externalReferences : List (Str × Bytes)
  now : SystemTime
  deferAttachments : Bool

/-- `verify_signature_value_with_components`: the validated certification path. -/
def verifySignatureValue (pki : Pki) (mat : ParsedWsSecSignatureMaterial)
    (opts : WsSecVerifyOptions) : Result (Option (List Bytes)) := do
  let profile := { WsSecCanonicalizationProfile.exclusive with
    kind := mat.signedInfoC14nKind, inclusiveNsPrefixes := mat.signedInfoInclusiveNsPrefixes }
  let algorithm ← (SignatureAlgorithm.fromUri mat.signatureMethodAlgorithm).mapError fun _ =>
    signatureValueError .interopViolation ("unsupported SignatureMethod algorithm: " ++
      mat.signatureMethodAlgorithm ++ " (supported: RSA-SHA256/384/512, ECDSA-SHA256/384/512)")
  let signerCertDer ← Except.okOr mat.x509CertificatesDer.head?
    (signatureValueError .securityVerificationFailed
      ("ds:KeyInfo carries no X.509 certificate; a signature verified against an inline " ++
        "ds:RSAKeyValue authenticates nobody. The signer must be identified by a " ++
        "wsse:BinarySecurityToken or ds:X509Data/ds:X509Certificate"))
  pki.validateX509Certificate signerCertDer
  Except.rejectIf (opts.expectedCertFingerprints ≠ [] ∧
      pki.fingerprint signerCertDer ∉ opts.expectedCertFingerprints)
    (signatureValueError .securityVerificationFailed
      ("signer certificate fingerprint does not match any pinned fingerprint for the " ++
        "claimed sender"))
  match opts.signerCheck with
    | some check => check signerCertDer
    | none => pure ()
  match algorithm.keyFamily, mat.rsaModulus, mat.rsaExponent with
    | .rsa, some modulus, some exponent =>
      pki.validateCertPublicKeyMatchesRsaKeyvalue signerCertDer modulus exponent
    | _, _, _ => pure ()
  let chain ←
    if opts.chainPolicy.requireChainValidation then do
      let path ← pki.validateChainOffline mat.x509CertificatesDer opts.chainPolicy
      pure (some path)
    else pure none
  let keyId ← Except.okOr (pki.publicKeyId signerCertDer) (signatureValueError .parseFailed
    "failed to parse X509 certificate for signature verification: ")
  checkKeyFamily algorithm keyId
  let signatureValue ← pki.fromWire algorithm mat.signatureValue signerCertDer
  let pkey ← match algorithm.keyFamily with
    | .ec => pki.ecPublicKey signerCertDer
    | .rsa => pki.rsaPublicKey signerCertDer
  let out ← Except.okOr (trySerializeNode profile mat.signedInfo)
    (signatureValueError .securityVerificationFailed
      ("failed to feed SignedInfo into XMLDSig verifier: " ++
        "failed to stream canonicalized SignedInfo into XMLDSig verifier"))
  let verified ← pki.verify algorithm pkey out.utf8 signatureValue
  Except.rejectIf (verified = false)
    (signatureValueError .securityVerificationFailed "XMLDSig signature value did not verify")
  pure chain

/-! ## Reference digests -/

/-- `decode_reference_digest_value`. -/
def decodeReferenceDigestValue (uri : Str) (digestMethod : WsSecDigestMethod) (expected : Str) :
    Result Bytes := do
  let decoded ← (decodeXmlBase64 expected ("DigestValue for reference " ++ uri)
    "wssec_verify_references").mapError (·.withMessageId uri)
  Except.rejectIf (decoded.length ≠ digestMethod.outputLen)
    (referenceError .parseFailed "wssec_verify_references"
      "invalid DigestValue length for reference " uri
      (": expected " ++ showNat digestMethod.outputLen ++ " bytes (" ++ digestMethod.debug ++
        "), got " ++ showNat decoded.length))
  pure decoded

/-- `verify_reference_digest_matches`. -/
def verifyReferenceDigestMatches (uri : Str) (expected : Bytes) (expectedB64 : Str)
    (computed : Bytes) : Result Unit :=
  Except.rejectIf (computed ≠ expected)
    (referenceError .securityVerificationFailed "wssec_verify_references"
      "digest mismatch for reference " uri
      (" (expected " ++ expectedB64 ++ ", computed " ++ Base64.encode computed ++ ")"))

/-- `build_external_reference_cid_index`: the loop that adds one part. -/
def addExternalReference (index : OrdMap Str Bytes) (part : Str × Bytes) :
    Result (OrdMap Str Bytes) := do
  let normalized := normalizeCidUri part.1
  Except.rejectIf (index.get normalized).isSome ⟨.interopViolation,
    "duplicate or semantically equivalent external cid reference provided: " ++ part.1,
    (ErrorContext.new "wssec_verify_references").withMessageId normalized⟩
  pure (index.insert normalized part.2)

/-- `build_external_reference_cid_index`. -/
def buildExternalReferenceCidIndex (externalReferences : List (Str × Bytes)) :
    Result (OrdMap Str Bytes) :=
  externalReferences.foldlM addExternalReference .empty

/-- `ReferenceDigestCtx`. The verification pipeline always has the parsed document, so the
    branches for a missing index are not reached. -/
structure ReferenceDigestCtx where
  profile : WsSecCanonicalizationProfile
  externalReferenceCidIndex : Option (OrdMap Str Bytes)
  parsedIndex : SameDocumentReferenceIndex

/-- `compute_reference_digest`. -/
def computeReferenceDigest (digests : Digests) (reference : WsSecSignatureReference)
    (ctx : ReferenceDigestCtx) : Result Bytes :=
  let uri := reference.uri
  match reference.parsedUri with
  | .cid normalized => do
    let payload ← Except.okOr (ctx.externalReferenceCidIndex.bind (·.get normalized))
      (referenceError .securityVerificationFailed "wssec_verify_references"
        "missing external reference bytes required for URI " uri "")
    pure (digests reference.digestMethod payload)
  | .sameDocument _ =>
    let inclusiveOverride :=
      if reference.inclusiveNsPrefixes = [] then none else some reference.inclusiveNsPrefixes
    (canonicalizeReferenceDigestWithIndex digests ctx.parsedIndex uri ctx.profile
      inclusiveOverride reference.digestMethod).mapError fun err =>
        if err.code = .invalidInput then
          ⟨.securityVerificationFailed, err.message,
            (ErrorContext.new "wssec_verify_references").withMessageId uri⟩
        else err

/-- The target id of a same-document reference. -/
def WsSecSignatureReference.targetId? (r : WsSecSignatureReference) : Option Str :=
  match r.parsedUri with
  | .sameDocument targetId => some targetId
  | .cid _ => none

/-- The Content-ID of a `cid:` reference. -/
def WsSecSignatureReference.cid? (r : WsSecSignatureReference) : Option Str :=
  match r.parsedUri with
  | .sameDocument _ => none
  | .cid normalized => some normalized

/-- `collect_same_document_target_ids`: each id once, in order of first occurrence. -/
def collectSameDocumentTargetIds (ids : List Str) : List Str :=
  ids.foldl (fun unique id => if id ∈ unique then unique else unique ++ [id]) []

/-- The check of one reference in the loop of
    `verify_signature_references_borrowed_with_profile`. The profile it uses has the
    reference's own canonicalization: the alternate profile is the default one with the
    other of the two kinds. -/
def verifySignatureReference (digests : Digests) (externalIndex : Option (OrdMap Str Bytes))
    (index : SameDocumentReferenceIndex) (reference : WsSecSignatureReference) : Result Unit := do
  let profile := { WsSecCanonicalizationProfile.exclusive with kind := reference.c14nKind }
  let computedDigest ← computeReferenceDigest digests reference ⟨profile, externalIndex, index⟩
  let expectedDigest ← decodeReferenceDigestValue reference.uri reference.digestMethod
    reference.digestValueBase64
  verifyReferenceDigestMatches reference.uri expectedDigest reference.digestValueBase64
    computedDigest

/-- The index of the parts, built when there is a `cid:` reference. -/
def externalReferenceCidIndex (references : List WsSecSignatureReference)
    (externalReferences : List (Str × Bytes)) : Result (Option (OrdMap Str Bytes)) :=
  if references.any (·.cid?.isSome) then (buildExternalReferenceCidIndex externalReferences).map some
  else .ok none

/-- `verify_signature_references_borrowed_with_profile`, with the parsed document: the
    same-document references first. -/
def verifySignatureReferences (digests : Digests) (doc : Document)
    (references : List WsSecSignatureReference) (externalReferences : List (Str × Bytes)) :
    Result Unit := do
  let externalIndex ← externalReferenceCidIndex references externalReferences
  let targetIds := collectSameDocumentTargetIds
    (references.filterMap WsSecSignatureReference.targetId?)
  let index := SameDocumentReferenceIndex.buildForTargets doc targetIds
  let ordered := references.filter (·.targetId?.isSome) ++ references.filter (·.cid?.isSome)
  forM ordered (verifySignatureReference digests externalIndex index)

/-! ## The `wsu:Timestamp` -/

/-- `WSU_TIMESTAMP_SKEW`, in seconds. -/
def wsuTimestampSkew : Int := 300

/-- The `reject` of `check_wsu_timestamp`. -/
def timestampError (detail : Str) : AsxError :=
  ⟨.securityVerificationFailed, "wsu:Timestamp rejected: " ++ detail, .new "wssec_verify_timestamp"⟩

/-- An integer as `format!` prints it. -/
def showInt (n : Int) : Str := (toString n).toList

/-- The `single` of `check_wsu_timestamp`: the one `wsu:Created` or `wsu:Expires`. -/
def timestampField (timestamp : Node) (loc : Str) : Result (Option Int) :=
  match timestamp.children.filter (·.hasTagName Ns.wsu loc) with
  | [] => .ok none
  | [node] => do
    let text := Str.trim (node.text?.getD [])
    let secs ← Except.okOr
      (if ("Z" : Str).isSuffixOf text then parseRfc3339ToUnixSecs text else none)
      (timestampError ("wsu:" ++ loc ++ " '" ++ text ++ "' is not a UTC xsd:dateTime"))
    pure (some secs)
  | _ => .error (timestampError ("more than one wsu:" ++ loc))

/-- `check_wsu_timestamp`. -/
def checkWsuTimestamp (security : Node) (now : SystemTime) : Result Unit :=
  match security.children.filter (·.hasTagName Ns.wsu "Timestamp") with
  | [] => .ok ()
  | [timestamp] => do
    let created ← timestampField timestamp "Created"
    let expires ← timestampField timestamp "Expires"
    let nowSecs := if 0 ≤ now then unixSecs now else 0
    match created, expires with
      | some c, some e =>
        Except.rejectIf (e < c) (timestampError "wsu:Expires is earlier than wsu:Created")
      | _, _ => pure ()
    match expires with
      | some e =>
        Except.rejectIf (e < nowSecs - wsuTimestampSkew)
          (timestampError ("message expired " ++ showInt (nowSecs - e) ++ " s ago (skew " ++
            showInt wsuTimestampSkew ++ " s)"))
      | none => pure ()
    match created with
      | some c =>
        Except.rejectIf (c > nowSecs + wsuTimestampSkew)
          (timestampError ("wsu:Created is " ++ showInt (c - nowSecs) ++
            " s in the future (skew " ++ showInt wsuTimestampSkew ++ " s)"))
      | none => pure ()
  | _ => .error (timestampError "more than one wsu:Timestamp in the wsse:Security header")

/-! ## The pipeline -/

/-- `ParsedWsSecSignatureEnvelopeBorrowed`. -/
structure ParsedWsSecSignatureEnvelope where
  references : List WsSecSignatureReference
  signatureMaterial : ParsedWsSecSignatureMaterial
  securityHeader : Option Node

/-- Whether the document is a SOAP envelope of either version. -/
def isSoapEnvelope (doc : Document) : Bool :=
  doc.rootElement.hasTagName Ns.soap12 "Envelope" || doc.rootElement.hasTagName Ns.soap11 "Envelope"

/-- `parse_signature_envelope_from_doc_optional_borrowed`. -/
def parseSignatureEnvelope (doc : Document) (docClass : SignedDocClass) :
    Result (Option ParsedWsSecSignatureEnvelope) := do
  match ← findSingleSignatureNode doc "wssec_parse_references" with
  | none => pure none
  | some signature =>
    Except.rejectIf (isSoapEnvelope doc ∧ ¬ inSecurity signature) ⟨.securityVerificationFailed,
      "the ds:Signature of a SOAP envelope must be a direct child of a wsse:Security header " ++
        "block; a signature elsewhere is not a WS-Security signature",
      .new "wssec_parse_references"⟩
    let signedInfo ← Except.okOr (dsChild? signature "SignedInfo")
      ⟨.parseFailed, "ds:Signature missing ds:SignedInfo", .new "wssec_parse_references"⟩
    let references ← parseSignatureReferencesFromSignedInfo signedInfo docClass
    let signatureMaterial ← parseSignatureMaterial doc signature signedInfo
    let securityHeader := signature.parent?.filter (·.hasTagName Ns.wsse "Security")
    pure (some ⟨references, signatureMaterial, securityHeader⟩)

/-- `verify_enveloped_signature_with_parsed_signature_borrowed`: the validated path. -/
def verifyEnvelopedSignatureWithParsedSignature (pki : Pki) (doc : Document)
    (parsed : ParsedWsSecSignatureEnvelope) (opts : WsSecVerifyOptions) :
    Result (Option (List Bytes)) := do
  let chain ← verifySignatureValue pki parsed.signatureMaterial opts
  let references :=
    if opts.deferAttachments then parsed.references.filter (·.targetId?.isSome)
    else parsed.references
  verifySignatureReferences pki.digests doc references opts.externalReferences
  match parsed.securityHeader with
    | some security => checkWsuTimestamp security opts.now
    | none => pure ()
  pure chain

/-- `PendingCidReference`. -/
structure PendingCidReference where
  uri : Str
  cid : Str
  digestMethod : WsSecDigestMethod
  digestValueBase64 : Str
deriving DecidableEq, Repr

/-- `VerifiedSignatureCoverage`. -/
structure VerifiedSignatureCoverage where
  signedSameDocumentIds : List Str
  signedCidReferences : List Str
  signerCertificateDer : Option Bytes
  references : List (Str × Str × Str)
  deferred : Option (List PendingCidReference)
  signerPath : List Bytes

/-- What a `cid:` reference leaves to be checked. -/
def WsSecSignatureReference.pending? (r : WsSecSignatureReference) : Option PendingCidReference :=
  r.cid?.map fun cid => ⟨r.uri, cid, r.digestMethod, r.digestValueBase64⟩

/-- `verify_enveloped_signature_optional_with_doc`. -/
def verifyEnvelopedSignatureOptionalWithDoc (pki : Pki) (doc : Document)
    (docClass : SignedDocClass) (opts : WsSecVerifyOptions) :
    Result (Option VerifiedSignatureCoverage) := do
  match ← parseSignatureEnvelope doc docClass with
  | none => pure none
  | some parsed =>
    let chain ← verifyEnvelopedSignatureWithParsedSignature pki doc parsed opts
    pure (some
      { signedSameDocumentIds := parsed.references.filterMap WsSecSignatureReference.targetId?
        signedCidReferences := parsed.references.filterMap WsSecSignatureReference.cid?
        signerCertificateDer := parsed.signatureMaterial.x509CertificatesDer.head?
        references := parsed.references.map fun r =>
          (r.uri, r.digestMethod.algorithmUri, r.digestValueBase64)
        deferred :=
          if opts.deferAttachments then
            some (parsed.references.filterMap WsSecSignatureReference.pending?)
          else none
        signerPath := chain.getD [] })

/-! ## Attachments -/

/-- The check of one pending reference in `verify_cid_references`. -/
def verifyCidReference (digests : Digests) (parts : List (Str × Bytes))
    (reference : PendingCidReference) : Result Unit := do
  let payload ← Except.okOr
    ((parts.find? fun part => normalizeCidUri part.1 = reference.cid).map Prod.snd)
    (referenceError .securityVerificationFailed "wssec_verify_references"
      "missing external reference bytes required for URI " reference.uri "")
  let computed := digests reference.digestMethod payload
  let expected ← decodeReferenceDigestValue reference.uri reference.digestMethod
    reference.digestValueBase64
  verifyReferenceDigestMatches reference.uri expected reference.digestValueBase64 computed

/-- `verify_cid_references`. -/
def verifyCidReferences (digests : Digests) (pending : List PendingCidReference)
    (parts : List (Str × Bytes)) : Result Unit :=
  forM pending (verifyCidReference digests parts)

end Asx
