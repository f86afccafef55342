import Asx.Native.Verify

/-!
# Enveloped document signatures

The part of `crypto/wssec/verify.rs` and `crypto/wssec/canonicalize.rs` for a signature over
the whole document it stands in: a `ds:Reference` with `URI=""` and the enveloped-signature
transform, which takes the `ds:Signature` itself out of what is digested.
-/

namespace Asx

open Xml

/-- `VerifiedEnvelopedSignature`. -/
structure VerifiedEnvelopedSignature where
  signerFingerprintSha256 : Str
  signerCertificateDer : Bytes
  signerPath : List Bytes
deriving DecidableEq, Repr

/-- `EnvelopedReference`. -/
structure EnvelopedReference where
  c14nKind : WsSecCanonicalizationKind
  expectedDigest : Str
deriving DecidableEq, Repr

/-- An error of the enveloped verification. -/
def envelopedError (code : ErrorCode) (message : Str) : AsxError :=
  ⟨code, message, .new "wssec_verify_enveloped"⟩

/-- One transform of a `URI=""` reference: whether the enveloped-signature transform was
    seen, and the canonicalization so far. -/
def applyEnvelopedTransform (acc : Bool × WsSecCanonicalizationKind) (transform : Node) :
    Result (Bool × WsSecCanonicalizationKind) :=
  let algorithm := (transform.attribute? "Algorithm").getD []
  match TransformAlg.fromUri algorithm with
  | .ok .envelopedSignature => .ok (true, acc.2)
  | .ok (.c14n kind) => .ok (acc.1, kind)
  | _ => .error (envelopedError .interopViolation ("unsupported ds:Transform Algorithm \"" ++
      algorithm ++ "\" on a URI=\"\" reference"))

/-- `parse_enveloped_reference`. -/
def parseEnvelopedReference (reference : Node) : Result EnvelopedReference := do
  let uri := (reference.attribute? "URI").getD []
  Except.rejectIf (uri ≠ []) ((envelopedError .interopViolation
    ("enveloped document signatures support only the whole-document reference URI=\"\", got \"" ++
      uri ++ "\"")).withMessageId uri)
  let transforms := match dsChild? reference "Transforms" with
    | some transforms => transforms.children.filter (isDsElement · "Transform")
    | none => []
  -- a node-set becomes octets by inclusive C14N unless a transform names another
  let applied ← transforms.foldlM applyEnvelopedTransform (false, .inclusive)
  Except.rejectIf (applied.1 = false) (envelopedError .interopViolation
    ("a URI=\"\" reference must declare the " ++ TransformAlg.envelopedSignature.uri ++
      " transform"))
  let expectedDigest :=
    (((dsChild? reference "DigestValue").bind Node.text?).map Str.trim).getD []
  pure ⟨applied.2, expectedDigest⟩

/-- The canonicalization profile of an enveloped reference. -/
def EnvelopedReference.profile (reference : EnvelopedReference) : WsSecCanonicalizationProfile :=
  { WsSecCanonicalizationProfile.exclusive with kind := reference.c14nKind }

/-- `canonicalize_enveloped_document`: the digest of the document without the signature. -/
def canonicalizeEnvelopedDocument (digests : Digests) (doc : Document)
    (profile : WsSecCanonicalizationProfile) (signature : Node) : Result Str := do
  let out ← Except.okOr (trySerializeNodeOmitting profile none (some signature) doc.root)
    ⟨.securityVerificationFailed, "failed to canonicalize enveloped document",
      .new "wssec_canonicalize"⟩
  pure (Base64.encode (digests .sha256 (Str.utf8 out)))

/-- `digest_enveloped_reference`. -/
def digestEnvelopedReference (digests : Digests) (doc : Document) (signature : Node)
    (reference : EnvelopedReference) : Result Unit := do
  let actual ← canonicalizeEnvelopedDocument digests doc reference.profile signature
  Except.rejectIf (actual ≠ reference.expectedDigest) (envelopedError .securityVerificationFailed
    "enveloped document digest mismatch: the document was modified after signing")

/-- `verify_enveloped_document_signature_inner`. -/
def verifyEnvelopedDocumentSignature (pki : Pki) (doc : Document)
    (expectedCertFingerprints : List Bytes) (chainPolicy : ChainPolicy) :
    Result VerifiedEnvelopedSignature := do
  let found ← findSingleSignatureNode doc "wssec_verify_enveloped"
  let signature ← Except.okOr found
    (envelopedError .securityVerificationFailed "document carries no ds:Signature")
  let signedInfo ← Except.okOr (dsChild? signature "SignedInfo")
    (envelopedError .parseFailed "ds:Signature missing ds:SignedInfo")
  enforceReferenceCap signedInfo .smp
  let referenceNodes := signedInfo.children.filter (isDsElement · "Reference")
  Except.rejectIf (referenceNodes.isEmpty = true)
    (envelopedError .parseFailed "ds:SignedInfo contains no ds:Reference")
  let references ← referenceNodes.mapM fun reference => do
    enforceTransformCap reference ((reference.attribute? "URI").getD [])
    parseEnvelopedReference reference
  let mat ← parseSignatureMaterial doc signature signedInfo
  let signerCertificateDer ← Except.okOr mat.x509CertificatesDer.head?
    (envelopedError .securityVerificationFailed
      ("ds:KeyInfo must carry ds:X509Data/ds:X509Certificate so the signer can be " ++
        "chained to a trust anchor"))
  let chain ← verifySignatureValue pki mat
    { expectedCertFingerprints, signerCheck := none, chainPolicy, externalReferences := [],
      now := 0, deferAttachments := false }
  forM references (digestEnvelopedReference pki.digests doc signature)
  pure { signerFingerprintSha256 := hexLower (pki.fingerprint signerCertificateDer)
         signerCertificateDer
         signerPath := chain.getD [] }

end Asx
