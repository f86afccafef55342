import Asx.Native.References
import Asx.Native.XmlOut
import Asx.Native.XmlParse

/-!
# Preparing a signature

The first half of signing in `crypto/wssec/sign.rs`: every reference of an envelope is digested
and the `ds:SignedInfo` is written; its canonical form is what the key signs. No key is used and
nothing is read but the arguments. The telemetry span and the failures of OpenSSL's digest are
left out.
-/

namespace Asx

open Xml XmlCall

/-- The `STAGE` of `sign.rs`. -/
def signStage : Str := "wssec_generate_signature"

/-- `REFERENCE_DIGEST`. -/
def referenceDigest : WsSecDigestMethod := .sha256

/-- `PreparedReference`. -/
structure PreparedReference where
  uri : Str
  transform : TransformAlg
  digest : Bytes
deriving DecidableEq, Repr

/-- `PreparedSignature`. -/
structure PreparedSignature where
  algorithm : SignatureAlgorithm
  signedInfo : Str
  canonicalSignedInfo : Bytes
deriving DecidableEq, Repr

/-- `require_references`. -/
def requireReferences (referenceUris : List Str) : Result Unit :=
  Except.rejectIf (referenceUris = []) ⟨.invalidInput,
    "XMLDSig signature must contain at least one ds:Reference", .new signStage⟩

/-- The transform and the digest of a reference in `prepare_signed_info`. Of two external
    references with one URI the last counts, as in the source's map. -/
def prepareReference (digests : Digests) (doc : Document) (external : List (Str × Bytes))
    (uri : Str) : Result PreparedReference :=
  if (Str.lit "cid:").isPrefixOf uri then do
    let payload ← Except.okOr (external.reverse.lookup uri) ⟨.invalidInput,
      "missing external reference bytes for URI " ++ uri ++ "; include it in external_references",
      (ErrorContext.new signStage).withMessageId uri⟩
    pure ⟨uri, .attachmentContent, digests referenceDigest payload⟩
  else do
    let targetId ← normalizeSameDocumentUri uri
    let target ← resolveSameDocumentReferenceTargetWithIndex (.build doc) uri targetId
    let digest ← canonicalizeReferenceDigestFromTarget digests target .exclusive none
      referenceDigest
    pure ⟨uri, .c14n .exclusive, digest⟩

/-- An element of nothing but an `Algorithm`. -/
def writeAlgorithm (qname uri field : Str) : List XmlCall :=
  [start qname, attr (.lit "Algorithm") uri field, endElement]

/-- A `ds:Reference` of `write_signed_info`. -/
def writeReference (refDigest : WsSecDigestMethod) (reference : PreparedReference) : List XmlCall :=
  [start (.lit "ds:Reference"), attr (.lit "URI") reference.uri "ds:Reference/@URI",
    start (.lit "ds:Transforms")] ++
  writeAlgorithm (.lit "ds:Transform") reference.transform.uri "ds:Transform/@Algorithm" ++
  [endElement] ++
  writeAlgorithm (.lit "ds:DigestMethod") refDigest.algorithmUri "ds:DigestMethod/@Algorithm" ++
  [leaf (.lit "ds:DigestValue") (Base64.encode reference.digest) "ds:DigestValue", endElement]

/-- `write_signed_info`. -/
def writeSignedInfo (algorithm : SignatureAlgorithm) (refDigest : WsSecDigestMethod)
    (references : List PreparedReference) : Result Str := do
  let out ← XmlOut.canonical.run ([start (.lit "ds:SignedInfo"), ns (.lit "ds") Ns.ds] ++
    writeAlgorithm (.lit "ds:CanonicalizationMethod") WsSecCanonicalizationKind.exclusive.uri
      "ds:CanonicalizationMethod/@Algorithm" ++
    writeAlgorithm (.lit "ds:SignatureMethod") algorithm.algorithmUri
      "ds:SignatureMethod/@Algorithm" ++
    references.flatMap (writeReference refDigest) ++ [endElement])
  let doc ← out.finish
  doc.intoString

/-- `canonicalize_signed_info`. -/
def canonicalizeSignedInfo (roxmltree : Roxmltree) (signedInfo : Str) : Result Bytes := do
  let doc ← parseXml roxmltree signedInfo .envelope signStage
  let canonical ← Except.okOr (trySerializeNode .exclusive doc.rootElement)
    ⟨.securityVerificationFailed, "failed to canonicalize ds:SignedInfo", .new signStage⟩
  pure (Str.utf8 canonical)

/-- The references of `prepare_signed_info`. -/
def prepareReferences (digests : Digests) (doc : Document) (referenceUris : List Str)
    (external : List (Str × Bytes)) : Result (List PreparedReference) := do
  requireReferences referenceUris
  referenceUris.mapM (prepareReference digests doc external)

/-- `prepare_signed_info`. -/
def prepareSignedInfo (roxmltree : Roxmltree) (digests : Digests) (doc : Document)
    (referenceUris : List Str) (external : List (Str × Bytes)) (algorithm : SignatureAlgorithm) :
    Result PreparedSignature := do
  let references ← prepareReferences digests doc referenceUris external
  let signedInfo ← writeSignedInfo algorithm referenceDigest references
  let canonicalSignedInfo ← canonicalizeSignedInfo roxmltree signedInfo
  pure ⟨algorithm, signedInfo, canonicalSignedInfo⟩

/-- `prepare_envelope_signature`. -/
def prepareEnvelopeSignature (roxmltree : Roxmltree) (digests : Digests) (envelopeXml : Str)
    (referenceUris : List Str) (external : List (Str × Bytes)) (algorithm : SignatureAlgorithm) :
    Result PreparedSignature := do
  requireReferences referenceUris
  let doc ← parseXml roxmltree envelopeXml .envelope signStage
  prepareSignedInfo roxmltree digests doc referenceUris external algorithm

end Asx
