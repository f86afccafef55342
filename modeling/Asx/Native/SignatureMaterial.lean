import Asx.Native.SignatureParse

/-!
# The key material of a `ds:Signature`

`parse_signature_material_components_from_signature_with_signed_info` of
`crypto/wssec/verify.rs` and what it calls: the canonicalization of `ds:SignedInfo`, the
signature value, and the certificates that `ds:KeyInfo` carries or points at.
-/

namespace Asx

open Xml

/-- An error of the material parser. -/
def materialError (code : ErrorCode) (message : Str) : AsxError :=
  ⟨code, message, .new "wssec_signature_material"⟩

/-! ## DER -/

/-- `parse_der_header`: the lengths of the header and of the content. `usize` has 64 bits. -/
def parseDerHeader (input : Bytes) (stage : Str) : Result (Nat × Nat) := do
  Except.rejectIf (input.length < 2) ⟨.parseFailed, "invalid DER: missing tag/length", .new stage⟩
  let firstLen := (input.getD 1 0).toNat
  -- the short form is returned as it stands, whatever follows
  if firstLen < 0x80 then pure (2, firstLen)
  else
    let lenOctets := firstLen % 0x80
    Except.rejectIf (lenOctets = 0)
      ⟨.parseFailed, "invalid DER: indefinite length is not supported", .new stage⟩
    Except.rejectIf (lenOctets > 8)
      ⟨.parseFailed, "invalid DER: length field is too large", .new stage⟩
    Except.rejectIf (input.length < 2 + lenOctets)
      ⟨.parseFailed, "invalid DER: truncated length field", .new stage⟩
    let valueLen ← ((input.drop 2).take lenOctets).foldlM (fun acc byte =>
      Except.okOr (if acc * 256 + byte.toNat < 2 ^ 64 then some (acc * 256 + byte.toNat) else none)
        ⟨.parseFailed, "invalid DER: overflow while reading length", .new stage⟩) 0
    let headerLen := 2 + lenOctets
    Except.rejectIf (valueLen > input.length - headerLen)
      ⟨.parseFailed, "invalid DER: declared length exceeds available bytes", .new stage⟩
    pure (headerLen, valueLen)

/-- The loop of `split_x509_pkipath_der_certificates` over what is left of the content. An
    element takes two bytes at least, so the content's length bounds the iterations. The
    inner `none` is a slice beyond the end of the content, which panics. -/
def splitCertificates : Nat → Bytes → Result (Option (List Bytes))
  | 0, _ => .ok (some [])
  | fuel + 1, content =>
    if content = [] then .ok (some [])
    else do
      Except.rejectIf (content.head? ≠ some 0x30)
        (materialError .parseFailed "X509PKIPathv1 contains a non-certificate DER element")
      let header ← parseDerHeader content "wssec_signature_material"
      let totalLen := header.1 + header.2
      if content.length < totalLen then pure none
      else
        let rest ← splitCertificates fuel (content.drop totalLen)
        pure (rest.map (content.take totalLen :: ·))

/-- `split_x509_pkipath_der_certificates`; `none` when it panics. -/
def splitX509PkipathDerCertificates (pkipathDer : Bytes) : Result (Option (List Bytes)) := do
  let header ← parseDerHeader pkipathDer "wssec_signature_material"
  Except.rejectIf (pkipathDer.head? ≠ some 0x30)
    (materialError .parseFailed "X509PKIPathv1 token is not a DER SEQUENCE")
  Except.rejectIf (header.1 + header.2 ≠ pkipathDer.length)
    (materialError .parseFailed "X509PKIPathv1 token has trailing bytes after DER SEQUENCE")
  let content := pkipathDer.drop header.1
  let certs ← splitCertificates content.length content
  Except.rejectIf (certs = some [])
    (materialError .parseFailed "X509PKIPathv1 token does not contain any certificates")
  pure certs

/-- Stands for the panic of an out-of-bounds slice: the caller gets no result. -/
def panicked : AsxError := materialError .parseFailed "range end index out of range for slice"

/-! ## Certificates -/

/-- The suffixes of the two supported `ValueType`s of a security token. -/
def x509PkipathValueTypeSuffix : Str := .lit "#X509PKIPathv1"

@[inherit_doc x509PkipathValueTypeSuffix]
def x509V3ValueTypeSuffix : Str := .lit "#X509v3"

/-- The `wsse:BinarySecurityToken` with this id. -/
def binarySecurityToken? (doc : Document) (tokenId : Str) : Option Node :=
  doc.descendants.find? fun node => node.hasTagName Ns.wsse "BinarySecurityToken" &&
    (node.attributeNs? Ns.wsu "Id").or (node.attribute? "Id") == some tokenId

/-- `extract_x509_certificates_from_security_token_reference`. -/
def extractX509CertificatesFromSecurityTokenReference (doc : Document) (keyInfo : Node) :
    Result (Option (List Bytes)) :=
  match keyInfo.descendants.find? (·.hasTagName Ns.wsse "SecurityTokenReference") with
  | none => .ok none
  | some tokenReference => do
    let tokenPtr ← Except.okOr
      (tokenReference.descendants.find? (·.hasTagName Ns.wsse "Reference"))
      (materialError .parseFailed "wsse:SecurityTokenReference is missing wsse:Reference")
    let uri ← Except.okOr (tokenPtr.attribute? "URI")
      (materialError .parseFailed "wsse:Reference is missing required URI attribute")
    let referencedValueType := (tokenPtr.attribute? "ValueType").getD []
    Except.rejectIf (referencedValueType ≠ [] ∧
        ¬ x509PkipathValueTypeSuffix.isSuffixOf referencedValueType ∧
        ¬ x509V3ValueTypeSuffix.isSuffixOf referencedValueType)
      (materialError .parseFailed ("unsupported wsse:Reference ValueType \"" ++
        referencedValueType ++ "\" (supported: X509v3 and X509PKIPathv1)"))
    let tokenId ← Except.okOr (Str.stripPrefix "#" uri) (materialError .parseFailed
      "wsse:Reference URI must be a same-document #token-id reference")
    Except.rejectIf (tokenId = [])
      (materialError .parseFailed "wsse:Reference URI token-id must not be empty")
    let binaryToken ← Except.okOr (binarySecurityToken? doc tokenId) (materialError .parseFailed
      "wsse:Reference points to missing wsse:BinarySecurityToken")
    let tokenValueType := (binaryToken.attribute? "ValueType").getD []
    Except.rejectIf (¬ x509PkipathValueTypeSuffix.isSuffixOf tokenValueType ∧
        ¬ x509V3ValueTypeSuffix.isSuffixOf tokenValueType)
      (materialError .parseFailed ("unsupported wsse:BinarySecurityToken ValueType \"" ++
        tokenValueType ++ "\" (supported: X509v3 and X509PKIPathv1)"))
    let tokenB64 ← Except.okOr (trimmedText? binaryToken)
      (materialError .parseFailed "wsse:BinarySecurityToken must not be empty")
    let tokenDer ← decodeXmlBase64 tokenB64 "wsse:BinarySecurityToken" "wssec_signature_material"
    if x509V3ValueTypeSuffix.isSuffixOf tokenValueType then pure (some [tokenDer])
    else
      -- a PkiPath ends with the signer
      let certs ← splitX509PkipathDerCertificates tokenDer
      let path ← Except.okOr certs panicked
      pure (some path.reverse)

/-- The certificates of the `ds:X509Certificate` elements of a `ds:KeyInfo`. -/
def x509Certificates (keyInfo : Node) : Result (List Bytes) :=
  (keyInfo.descendants.filter (isDsElement · "X509Certificate")).mapM fun node => do
    let b64 ← Except.okOr (trimmedText? node)
      (materialError .parseFailed "ds:X509Certificate must not be empty when present")
    decodeXmlBase64 b64 "X509Certificate" "wssec_signature_material"

/-! ## The method of `ds:SignedInfo` -/

/-- `parse_signed_info_canonicalization_method`. -/
def parseSignedInfoCanonicalizationMethod (signedInfo : Node) :
    Result (WsSecCanonicalizationKind × List Str) := do
  let method ← Except.okOr (dsChild? signedInfo "CanonicalizationMethod")
    (materialError .parseFailed "ds:SignedInfo missing ds:CanonicalizationMethod")
  let algorithm ← Except.okOr (((method.attribute? "Algorithm").map Str.trim).filter (· ≠ []))
    (materialError .parseFailed "ds:CanonicalizationMethod missing Algorithm attribute")
  let detail : Str :=
    if ("#WithComments" : Str).isSuffixOf algorithm then
      "comment-preserving canonicalization is not supported"
    else
      "only Canonical XML 1.0 (inclusive) and Exclusive XML Canonicalization 1.0 are supported"
  let kind ← (WsSecCanonicalizationKind.fromUri algorithm).mapError fun _ =>
    (materialError .interopViolation ("unsupported ds:CanonicalizationMethod Algorithm \"" ++
      algorithm ++ "\": " ++ detail ++ " (expected \"" ++ WsSecCanonicalizationKind.exclusive.uri ++
      "\" for AS4 WS-Security, or \"" ++ WsSecCanonicalizationKind.inclusive.uri ++
      "\" for Peppol SMP)")).withMessageId algorithm
  let inclusivePrefixes ← inclusiveNamespaces (fun childNs childLocal =>
    materialError .interopViolation ("unsupported child element \x7b" ++ childNs ++ "\x7d" ++
      childLocal ++ " inside ds:CanonicalizationMethod")) method
  Except.rejectIf (kind = .inclusive ∧ inclusivePrefixes ≠ []) (materialError .interopViolation
    ("ds:CanonicalizationMethod declares inclusive Canonical XML 1.0 but carries an " ++
      "exc-c14n InclusiveNamespaces PrefixList, which applies only to exclusive " ++
      "canonicalization"))
  pure (kind, inclusivePrefixes)

/-! ## The material -/

/-- `ParsedWsSecSignatureMaterialBorrowed`. -/
structure ParsedWsSecSignatureMaterial where
  signedInfo : Node
  signedInfoC14nKind : WsSecCanonicalizationKind
  signedInfoInclusiveNsPrefixes : List Str
  signatureValue : Bytes
  signatureMethodAlgorithm : Str
  rsaModulus : Option Bytes
  rsaExponent : Option Bytes
  x509CertificatesDer : List Bytes

/-- One part of a `ds:RSAKeyValue`: required when the element is there. -/
def rsaKeyPart (keyValue : Option Node) (loc label : Str) : Result (Option Bytes) :=
  match (keyValue.bind fun n => (dsChild? n loc).bind trimmedText?), keyValue with
  | some v, _ => do
    let bytes ← decodeXmlBase64 v ("RSA " ++ label) "wssec_signature_material"
    pure (some bytes)
  | none, some _ => throw (materialError .parseFailed ("ds:RSAKeyValue missing " ++ loc))
  | none, none => pure none

/-- `parse_signature_material_components_from_signature_with_signed_info`. -/
def parseSignatureMaterial (doc : Document) (signature signedInfo : Node) :
    Result ParsedWsSecSignatureMaterial := do
  let method ← parseSignedInfoCanonicalizationMethod signedInfo
  let signatureMethodAlgorithm ← Except.okOr
    ((((dsChild? signedInfo "SignatureMethod").bind (·.attribute? "Algorithm")).map
      Str.trim).filter (· ≠ []))
    (materialError .parseFailed "ds:SignedInfo missing SignatureMethod/Algorithm")
  let signatureValueB64 ← Except.okOr ((dsChild? signature "SignatureValue").bind trimmedText?)
    (materialError .parseFailed "ds:Signature missing non-empty SignatureValue")
  let keyInfo ← Except.okOr (dsChild? signature "KeyInfo")
    (materialError .parseFailed "ds:Signature missing ds:KeyInfo")
  let keyValue := keyInfo.descendants.find? (isDsElement · "RSAKeyValue")
  let inline ← x509Certificates keyInfo
  let x509CertificatesDer ←
    if inline = [] then do
      let token ← extractX509CertificatesFromSecurityTokenReference doc keyInfo
      pure (token.getD [])
    else pure inline
  let signatureValue ← decodeXmlBase64 signatureValueB64 "SignatureValue" "wssec_signature_material"
  let rsaModulus ← rsaKeyPart keyValue "Modulus" "modulus"
  let rsaExponent ← rsaKeyPart keyValue "Exponent" "exponent"
  pure { signedInfo
         signedInfoC14nKind := method.1
         signedInfoInclusiveNsPrefixes := method.2
         signatureValue, signatureMethodAlgorithm, rsaModulus, rsaExponent, x509CertificatesDer }

end Asx
