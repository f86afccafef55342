import Asx.Native.References

/-!
# Reading an XML Encryption envelope

`crypto/wssec/xmlenc/parse.rs` and the parameter reader of `kdf.rs`: what the
`xenc:EncryptedKey` and `xenc:EncryptedData` elements of a `wsse:Security` header say about
the encrypted attachments. No key is used here.
-/

namespace Asx

open Xml

namespace Ns

def wsse11 : Str := Str.lit "http://docs.oasis-open.org/wss/oasis-wss-wssecurity-secext-1.1.xsd"
def wsse11EncryptedKeyToken : Str :=
  Str.lit "http://docs.oasis-open.org/wss/oasis-wss-soap-message-security-1.1#EncryptedKey"
def swaContentOnly : Str :=
  Str.lit "http://docs.oasis-open.org/wss/oasis-wss-SwAProfile-1.1#Attachment-Content-Only"
def swaCiphertextTransform : Str :=
  Str.lit "http://docs.oasis-open.org/wss/oasis-wss-SwAProfile-1.1#Attachment-Ciphertext-Transform"
def dsig11 : Str := Str.lit "http://www.w3.org/2009/xmldsig11#"
def xenc : Str := Str.lit "http://www.w3.org/2001/04/xmlenc#"
def xenc11 : Str := Str.lit "http://www.w3.org/2009/xmlenc11#"

end Ns

/-! ## Algorithms -/

/-- `KeyTransportAlg::from_uri`. -/
def KeyTransportAlg.fromUri : Str → Result KeyTransportAlg :=
  typedLookup .keyTransport fun
    | .keyTransport a => some a
    | _ => none

/-- `AgreementAlg::from_uri`. -/
def AgreementAlg.fromUri : Str → Result AgreementAlg :=
  typedLookup .keyAgreement fun
    | .keyAgreement a => some a
    | _ => none

/-- `KdfAlg::from_uri`. -/
def KdfAlg.fromUri : Str → Result KdfAlg :=
  typedLookup .kdf fun
    | .kdf a => some a
    | _ => none

/-- `KeyWrapAlg::from_uri`. -/
def KeyWrapAlg.fromUri : Str → Result KeyWrapAlg :=
  typedLookup .keyWrap fun
    | .keyWrap a => some a
    | _ => none

/-- `XmlEncPayloadAlgorithm::from_uri`. -/
def XmlEncPayloadAlgorithm.fromUri : Str → Result XmlEncPayloadAlgorithm :=
  typedLookup .contentCipher fun
    | .contentCipher a => some a
    | _ => none

/-- `MgfAlg::from_uri`. -/
def MgfAlg.fromUri : Str → Result MgfAlg :=
  typedLookup .mgf fun
    | .mgf a => some a
    | _ => none

/-- `NamedCurve::from_uri`. -/
def NamedCurve.fromUri : Str → Result NamedCurve :=
  typedLookup .curve fun
    | .curve c => some c
    | _ => none

/-! ## Elements -/

/-- The `refused` of `xmlenc/parse.rs`. -/
def xmlencRefused (message : Str) : AsxError :=
  ⟨.interopViolation, message, .new "wssec_decrypt_payload"⟩

/-- The `malformed` of `xmlenc/parse.rs`. -/
def xmlencMalformed (message : Str) : AsxError :=
  ⟨.parseFailed, message, .new "wssec_decrypt_payload"⟩

/-- `named`: element children with this local name, in any namespace. -/
def namedChildren (parent : Node) (loc : Str) : List Node :=
  parent.children.filter fun n => n.isElement && n.localName == loc

/-- `children_in`. -/
def childrenIn (parent : Node) (ns loc : Str) : Result (List Node) :=
  let all := namedChildren parent loc
  match all.find? fun n => n.namespaceUri ≠ some ns with
  | some stray => .error (xmlencRefused (loc ++ " is declared in namespace " ++
      stray.namespaceUri.getD "(none)" ++ "; it is defined only in " ++ ns))
  | none => .ok all

/-- `exactly_one`. -/
def exactlyOne (nodes : List Node) (what : Str) : Result Node :=
  match nodes with
  | [one] => .ok one
  | [] => .error (xmlencRefused (what ++ " is absent; exactly one is required"))
  | many => .error (xmlencRefused (what ++ " appears " ++ showNat many.length ++
      " times; exactly one is required"))

/-- `children_in` and `exactly_one` together. -/
def oneChildIn (parent : Node) (ns loc what : Str) : Result Node := do
  let nodes ← childrenIn parent ns loc
  exactlyOne nodes what

/-- `algorithm`. -/
def algorithmOf (n : Node) (what : Str) : Result Str :=
  Except.okOr (((n.attribute? "Algorithm").map Str.trim).filter (· ≠ []))
    (xmlencMalformed (what ++ " has no Algorithm"))

/-- The text nodes below a node. -/
def descendantTextNodes (n : Node) : List Str :=
  (n.descendants.filter fun d => d.tree.isText).filterMap Node.text?

/-- `base64_text`. -/
def base64Text (n : Node) (what : Str) : Result Bytes := do
  let text := (descendantTextNodes n).flatten.filter fun c => !Str.isAsciiWhitespace c
  Except.rejectIf (text = []) (xmlencMalformed (what ++ " is empty"))
  Except.okOr (Base64.decode text) (xmlencMalformed (what ++ " is not base64: "))

/-- `cipher_value`. -/
def cipherValue (parent : Node) (what : Str) : Result Bytes := do
  let data ← oneChildIn parent Ns.xenc "CipherData" "xenc:CipherData"
  let value ← oneChildIn data Ns.xenc "CipherValue" "xenc:CipherData/xenc:CipherValue"
  base64Text value what

/-! ## The key -/

/-- `RsaOaepParams`. -/
structure RsaOaepParams where
  digest : WsSecDigestMethod
  mgf : MgfAlg
deriving DecidableEq, Repr

/-- `ConcatKdfParams`. -/
structure ConcatKdfParams where
  algorithmId : Bytes
  partyUInfo : Bytes
  partyVInfo : Bytes
  suppPubInfo : Bytes
  suppPrivInfo : Bytes
deriving DecidableEq, Repr

/-- `AgreementSpec`. `KeyDerivation` has one case, whose fields are `kdfDigest` and
    `kdfParams`. -/
structure AgreementSpec where
  kdfDigest : WsSecDigestMethod
  kdfParams : ConcatKdfParams
  originatorCurve : NamedCurve
  originatorPoint : Bytes
  wrap : KeyWrapAlg
deriving DecidableEq, Repr

/-- `KeyTransportSpec`. -/
inductive KeyTransportSpec where
  | rsaOaep (params : RsaOaepParams)
  | agreement (spec : AgreementSpec)
deriving DecidableEq, Repr

/-- `RecipientRef`. -/
inductive RecipientRef where
  | ski (ski : Bytes)
  | certificate (der : Bytes)
  | issuerSerial (issuer serial : Str)
deriving DecidableEq, Repr

/-- `EncryptedKeySpec`. -/
structure EncryptedKeySpec where
  transport : KeyTransportSpec
  wrappedKey : Bytes
  recipient : Option RecipientRef
deriving DecidableEq, Repr

/-- Whether a node lies below an `xenc:OriginatorKeyInfo`. -/
def underOriginator (n : Node) : Bool :=
  n.ancestors.any (·.hasTagName Ns.xenc "OriginatorKeyInfo")

/-- The text of a node without white space. -/
def compactText? (n : Node) : Option Str := n.text?.map Str.withoutWhitespace

/-- The loop of `recipient_ref`: a malformed value ends it without a reference. -/
def recipientRefFrom : List Node → Option RecipientRef
  | [] => none
  | node :: rest =>
    if node.hasTagName Ns.ds "X509SKI" then
      ((compactText? node).bind Base64.decode).map .ski
    else if node.hasTagName Ns.ds "X509Certificate" then
      ((compactText? node).bind Base64.decode).map .certificate
    else if node.hasTagName Ns.ds "X509IssuerSerial" then do
      let child := fun loc => ((namedChildren node loc).head?.bind Node.text?).map Str.trim
      let issuer ← child "X509IssuerName"
      let serial ← child "X509SerialNumber"
      some (.issuerSerial issuer serial)
    else if node.hasTagName Ns.wsse "KeyIdentifier" then do
      let valueType := (node.attribute? "ValueType").getD []
      let bytes ← (compactText? node).bind Base64.decode
      if ("#X509SubjectKeyIdentifier" : Str).isSuffixOf valueType then some (.ski bytes)
      else if ("#X509v3" : Str).isSuffixOf valueType then some (.certificate bytes)
      else recipientRefFrom rest
    else recipientRefFrom rest

/-- `recipient_ref`. -/
def recipientRef (key : Node) : Option RecipientRef :=
  recipientRefFrom (key.descendants.filter fun n => n.isElement && !underOriginator n)

/-- `parse_rsa_oaep_params`. -/
def parseRsaOaepParams (method : Node) : Result RsaOaepParams := do
  let digestNodes ← childrenIn method Ns.ds "DigestMethod"
  let digest ← match digestNodes with
    | [] => throw (xmlencRefused
        "RSA-OAEP DigestMethod absent (SHA-1 default); SHA-256 is required")
    | [one] => do
      let uri ← algorithmOf one "RSA-OAEP DigestMethod"
      match WsSecDigestMethod.fromAlgorithmUri uri with
      | .ok .sha256 => pure WsSecDigestMethod.sha256
      | _ => throw (xmlencRefused ("RSA-OAEP DigestMethod " ++ uri ++
          " is not supported; SHA-256 is required"))
    | many => throw (xmlencRefused ("RSA-OAEP DigestMethod appears " ++ showNat many.length ++
        " times"))
  let mgfNodes ← childrenIn method Ns.xenc11 "MGF"
  let mgf ← match mgfNodes with
    | [] => throw (xmlencRefused
        "RSA-OAEP MGF absent (MGF1-SHA-1 default); MGF1-SHA-256 is required")
    | [one] => do
      let uri ← algorithmOf one "RSA-OAEP MGF"
      (MgfAlg.fromUri uri).mapError fun _ => xmlencRefused ("RSA-OAEP MGF " ++ uri ++
        " is not supported; MGF1-SHA-256 is required")
    | many => throw (xmlencRefused ("RSA-OAEP MGF appears " ++ showNat many.length ++ " times"))
  let labels ← childrenIn method Ns.xenc "OAEPparams"
  Except.rejectIf (labels.any fun label => (descendantTextNodes label).any (Str.trim · ≠ []))
    (xmlencRefused "RSA-OAEP OAEPparams (a label) is not supported; it must be absent or empty")
  pure ⟨digest, mgf⟩

/-- An error of `decode_concat_kdf_param_bits`. -/
def kdfParamError (detail : Str) : AsxError :=
  ⟨.interopViolation, "invalid ConcatKDFParams attribute: " ++ detail,
    .new "wssec_decrypt_payload"⟩

/-- The `nibble` of `decode_concat_kdf_param_bits`. -/
def hexNibble (b : UInt8) : Result Nat :=
  let n := b.toNat
  if 48 ≤ n ∧ n ≤ 57 then .ok (n - 48)
  else if 97 ≤ n ∧ n ≤ 102 then .ok (n - 87)
  else if 65 ≤ n ∧ n ≤ 70 then .ok (n - 55)
  else .error (kdfParamError ("non-hex character 0x" ++ hexLower [b] ++ " in hexBinary value"))

/-- The octets of pairs of hexadecimal digits; a last single digit is left out. -/
def hexOctets : Bytes → Result Bytes
  | a :: b :: rest => do
    let x ← hexNibble a
    let y ← hexNibble b
    let octets ← hexOctets rest
    pure (.ofNat (x * 16 + y) :: octets)
  | _ => .ok []

/-- `decode_concat_kdf_param_bits`. -/
def decodeConcatKdfParamBits (raw : Bytes) : Result Bytes :=
  let trimmed := raw.filter fun b => !(b == 0x20 || b == 0x09 || b == 0x0A || b == 0x0C || b == 0x0D)
  if trimmed = [] then .ok []
  else do
    Except.rejectIf (trimmed.length % 2 ≠ 0) (kdfParamError ("hexBinary value has odd length " ++
      showNat trimmed.length))
    let octets ← hexOctets trimmed
    match octets with
    | [] => pure []
    | padding :: rest =>
      Except.rejectIf (padding ≠ 0) (kdfParamError ("bit strings with " ++ showNat padding.toNat ++
        " padding bits are not supported (only byte-aligned KDF parameters are accepted)"))
      pure rest

/-- `ConcatKdfParams::from_node`. -/
def ConcatKdfParams.fromNode (n : Node) : Result ConcatKdfParams := do
  let read := fun name => match n.attribute? name with
    | none => (.ok [] : Result Bytes)
    | some raw => decodeConcatKdfParamBits (Str.utf8 raw)
  let algorithmId ← read "AlgorithmID"
  let partyUInfo ← read "PartyUInfo"
  let partyVInfo ← read "PartyVInfo"
  let suppPubInfo ← read "SuppPubInfo"
  let suppPrivInfo ← read "SuppPrivInfo"
  pure { algorithmId, partyUInfo, partyVInfo, suppPubInfo, suppPrivInfo }

/-- The digest of a `xenc11:ConcatKDFParams`. -/
def concatKdfDigest (paramsNode : Node) : Result WsSecDigestMethod := do
  let digestNode ← oneChildIn paramsNode Ns.ds "DigestMethod" "ConcatKDFParams/DigestMethod"
  let uri ← algorithmOf digestNode "ConcatKDFParams/DigestMethod"
  match WsSecDigestMethod.fromAlgorithmUri uri with
  | .ok .sha256 => pure .sha256
  | _ => throw (xmlencRefused ("ConcatKDF digest " ++ uri ++
      " is not supported; SHA-256 is required"))

/-- `parse_agreement_method`. -/
def parseAgreementMethod (n : Node) (wrap : KeyWrapAlg) : Result AgreementSpec := do
  let agreementUri ← algorithmOf n "AgreementMethod"
  let _ ← AgreementAlg.fromUri agreementUri
  let kdm ← oneChildIn n Ns.xenc11 "KeyDerivationMethod"
    "xenc11:KeyDerivationMethod (ECDH-ES has no default KDF)"
  let kdfUri ← algorithmOf kdm "KeyDerivationMethod"
  let _ ← KdfAlg.fromUri kdfUri
  let paramsNode ← oneChildIn kdm Ns.xenc11 "ConcatKDFParams" "xenc11:ConcatKDFParams"
  let kdfDigest ← concatKdfDigest paramsNode
  let kdfParams ← ConcatKdfParams.fromNode paramsNode
  let originator ← oneChildIn n Ns.xenc "OriginatorKeyInfo" "xenc:OriginatorKeyInfo"
  let keyValue ← oneChildIn originator Ns.ds "KeyValue" "OriginatorKeyInfo/ds:KeyValue"
  let ec ← oneChildIn keyValue Ns.dsig11 "ECKeyValue" "dsig11:ECKeyValue"
  Except.rejectIf (ec.children.any (·.hasTagName Ns.dsig11 "ECParameters"))
    (xmlencRefused ("dsig11:ECParameters (explicit curve parameters) is not supported; a " ++
      "dsig11:NamedCurve is required"))
  let curveNode ← oneChildIn ec Ns.dsig11 "NamedCurve" "dsig11:NamedCurve"
  let originatorCurve ← NamedCurve.fromUri (((curveNode.attribute? "URI").map Str.trim).getD [])
  let pointNode ← oneChildIn ec Ns.dsig11 "PublicKey" "dsig11:PublicKey"
  let originatorPoint ← base64Text pointNode "originator public key"
  pure { kdfDigest, kdfParams, originatorCurve, originatorPoint, wrap }

/-- The key transport that the method of an `xenc:EncryptedKey` names. -/
def parseKeyTransport (n method : Node) (uri : Str) : Result KeyTransportSpec :=
  match KeyTransportAlg.fromUri uri, KeyWrapAlg.fromUri uri with
  | .ok .rsaOaep, _ => do
    let params ← parseRsaOaepParams method
    pure (.rsaOaep params)
  | .error _, .ok wrap => do
    let keyInfo ← oneChildIn n Ns.ds "KeyInfo" "xenc:EncryptedKey/ds:KeyInfo"
    let agreement ← oneChildIn keyInfo Ns.xenc "AgreementMethod" "xenc:AgreementMethod"
    let spec ← parseAgreementMethod agreement wrap
    pure (.agreement spec)
  | .error _, .error _ => .error (xmlencRefused
      ("unsupported key transport or key wrap algorithm: " ++ uri))

/-- `parse_encrypted_key`. -/
def parseEncryptedKey (n : Node) : Result EncryptedKeySpec := do
  let method ← oneChildIn n Ns.xenc "EncryptionMethod" "xenc:EncryptedKey/xenc:EncryptionMethod"
  let uri ← algorithmOf method "EncryptedKey method"
  let transport ← parseKeyTransport n method uri
  let wrappedKey ← cipherValue n "wrapped XML Encryption key"
  pure ⟨transport, wrappedKey, recipientRef n⟩

/-! ## The envelope -/

/-- `DataSpec`. -/
structure DataSpec where
  cid : Str
  cipher : XmlEncPayloadAlgorithm
  mimeType : Option Str
deriving DecidableEq, Repr

/-- `ResolvedEnvelope`. -/
structure ResolvedEnvelope where
  key : EncryptedKeySpec
  data : List DataSpec
deriving DecidableEq, Repr

/-- `Suite`. -/
structure Suite where
  keyMethod : Str
  agreement : Option (Str × Str × Str)
  content : Str
deriving DecidableEq, Repr

/-- `suite_refused`. -/
def suiteRefused (detail : Str) : AsxError :=
  ⟨.policyViolation, "encryption algorithm outside the partner's profile suite: " ++ detail,
    .new "wssec_decrypt_payload"⟩

/-- `element_id`. -/
def elementId (n : Node) : Result (Option Str) :=
  let plain := (n.tree.attrs.find? fun a => n.attrNs a = none ∧ a.name.loc = ("Id" : Str)).map
    Attr.value
  let wsu := n.attributeNs? Ns.wsu "Id"
  match plain, wsu with
  | some a, some b =>
    if a ≠ b then .error (xmlencRefused (n.localName ++ " carries Id " ++ Str.debug a ++
      " and wsu:Id " ++ Str.debug b))
    else .ok (some a)
  | a, b => .ok (a.or b)

/-- `elements_with_id`. -/
def elementsWithId (doc : Document) (id : Str) : List Node :=
  doc.descendants.filter fun n => n.isElement &&
    (n.attribute? "Id" == some id || n.attributeNs? Ns.wsu "Id" == some id ||
      n.attributeNs? xmlNs "id" == some id)

/-- `fragment`. -/
def fragment (uri : Str) : Option Str := (Str.stripPrefix "#" (Str.trim uri)).filter (· ≠ [])

/-- `normalize_cid` of `xmlenc/parse.rs`. -/
def normalizeCid (value : Str) : Str :=
  let value := Str.trim value
  let value := (Str.stripPrefix "<" value).getD value
  let value := (Str.stripSuffix ">" value).getD value
  if Str.eqIgnoreAsciiCase (value.take 4) "cid:" then value.drop 4 else value

/-- `.trim().get(..4)` is `cid:` in any case. -/
def hasCidScheme (uri : Str) : Bool := Str.eqIgnoreAsciiCase ((Str.trim uri).take 4) "cid:"

/-- Whether two nodes are one. -/
def sameNode (a b : Node) : Bool := a.path == b.path

/-- What `resolve_envelope` asks of an element of the encryption namespaces: it lies inside an
    encryption element of the targeted header. -/
def insideEncryption (security n : Node) : Bool :=
  match (n.ancestors.takeWhile fun a => !sameNode a security).getLast? with
  | some top => n.ancestors.any (sameNode · security) &&
      (top.hasTagName Ns.xenc "EncryptedKey" || top.hasTagName Ns.xenc "EncryptedData" ||
        top.hasTagName Ns.xenc "ReferenceList")
  | none => false

/-- Whether `resolve_envelope` cares where the element stands. -/
def isEncryptionElement (n : Node) : Bool :=
  n.isElement && (n.namespaceUri == some Ns.xenc || n.namespaceUri == some Ns.xenc11 ||
    n.hasTagName Ns.wsse11 "EncryptedHeader")

/-- The first loop of `resolve_envelope`. -/
def checkEncryptionPlacement (doc : Document) (security : Node) : Result Unit :=
  forM (doc.descendants.filter isEncryptionElement) fun n =>
    Except.rejectIf (insideEncryption security n = false) (xmlencRefused (n.localName ++
      " outside an xenc:EncryptedKey, xenc:EncryptedData or xenc:ReferenceList of the targeted " ++
      "wsse:Security header (eb:Messaging and the Body are never encrypted; eDelivery AS4 1.15 " ++
      "§3.2.6)"))

/-- One `xenc:DataReference` of the loop of `resolve_envelope`: its target is added to those
    named before. -/
def nameTarget (doc : Document) (datas : List Node) (targets : List Node) (reference : Node) :
    Result (List Node) := do
  Except.rejectIf (reference.hasTagName Ns.xenc "DataReference" = false) (xmlencRefused
    ("xenc:ReferenceList carries " ++ reference.localName ++
      "; only xenc:DataReference is accepted"))
  let uri := (reference.attribute? "URI").getD []
  let id ← Except.okOr (fragment uri) (xmlencRefused ("xenc:DataReference URI " ++ Str.debug uri ++
    " is not a same-document reference"))
  let target ← match elementsWithId doc id with
    | [one] => (.ok one : Result Node)
    | [] => .error (xmlencRefused ("xenc:DataReference " ++ Str.debug uri ++
        " resolves to no element"))
    | _ => .error (xmlencRefused ("xenc:DataReference " ++ Str.debug uri ++
        " resolves to several elements"))
  Except.rejectIf (¬ datas.any (sameNode · target)) (xmlencRefused ("xenc:DataReference " ++
    Str.debug uri ++ " does not name an xenc:EncryptedData of the header"))
  Except.rejectIf (targets.any (sameNode · target)) (xmlencRefused ("xenc:EncryptedData " ++
    Str.debug uri ++ " is named twice"))
  pure (targets ++ [target])

/-- Whether a `ds:KeyInfo` of an `xenc:EncryptedData` points at the `xenc:EncryptedKey`. -/
def pointsAtKey (keyId : Option Str) (keyInfo : Node) : Bool :=
  match keyInfo.children.filter Node.isElement with
  | [str] =>
    str.hasTagName Ns.wsse "SecurityTokenReference" &&
      (str.attributeNs? Ns.wsse11 "TokenType").all (· == Ns.wsse11EncryptedKeyToken) &&
      (match str.children.filter Node.isElement with
        | [r] => r.hasTagName Ns.wsse "Reference" &&
            ((r.attribute? "URI").bind fragment).isSome &&
            (r.attribute? "URI").bind fragment == keyId
        | _ => false)
  | _ => false

/-- Whether a `CipherReference` carries exactly the `Attachment-Ciphertext-Transform`. -/
def exactlyCiphertext (transforms : List Node) : Bool :=
  match transforms with
  | [t] => t.hasTagName Ns.ds "Transform" &&
      t.attribute? "Algorithm" == some Ns.swaCiphertextTransform
  | _ => false

/-- `resolve_data`. -/
def resolveData (n : Node) (keyId : Option Str) (declared : List Str) : Result DataSpec := do
  let _ ← elementId n
  let typeUri := (n.attribute? "Type").getD "(absent)"
  Except.rejectIf (typeUri ≠ Ns.swaContentOnly) (xmlencRefused ("xenc:EncryptedData Type " ++
    typeUri ++ " is not supported; only Attachment-Content-Only is accepted (WSS SwA 1.1 " ++
    "§5.4.2)"))
  let method ← oneChildIn n Ns.xenc "EncryptionMethod" "xenc:EncryptedData/xenc:EncryptionMethod"
  let cipherUri ← algorithmOf method "EncryptedData method"
  let cipher ← XmlEncPayloadAlgorithm.fromUri cipherUri
  let keyInfos ← childrenIn n Ns.ds "KeyInfo"
  Except.rejectIf (¬ keyInfos.all (pointsAtKey keyId)) (xmlencRefused
    ("xenc:EncryptedData/ds:KeyInfo does not reference the xenc:EncryptedKey that names it"))
  let cipherData ← oneChildIn n Ns.xenc "CipherData" "xenc:EncryptedData/xenc:CipherData"
  let values ← childrenIn cipherData Ns.xenc "CipherValue"
  Except.rejectIf (values.isEmpty = false) (xmlencRefused
    ("an attachment xenc:EncryptedData carries an inline xenc:CipherValue; a CipherReference " ++
      "to the MIME part is required (WSS SwA 1.1 §5.5)"))
  let reference ← oneChildIn cipherData Ns.xenc "CipherReference"
    "xenc:CipherData/xenc:CipherReference"
  let uri := (reference.attribute? "URI").getD []
  Except.rejectIf (hasCidScheme uri = false) (xmlencRefused ("xenc:CipherReference URI " ++
    Str.debug uri ++ " is not a cid: reference"))
  let cid := normalizeCid uri
  Except.rejectIf (¬ declared.any fun d => normalizeCid d == cid) (xmlencRefused
    ("xenc:CipherReference cid:" ++ cid ++ " is not a part eb:PartInfo declares"))
  let transformLists ← childrenIn reference Ns.xenc "Transforms"
  let transforms := transformLists.flatMap fun t => t.children.filter Node.isElement
  Except.rejectIf (¬ exactlyCiphertext transforms ∨
      (reference.children.filter Node.isElement).length ≠ 1) (xmlencRefused
    ("xenc:CipherReference cid:" ++ cid ++
      " must carry exactly the Attachment-Ciphertext-Transform"))
  pure ⟨cid, cipher, n.attribute? "MimeType"⟩

/-- One round of the loop of `resolve_envelope` over the `xenc:EncryptedData` elements. -/
def addData (keyId : Option Str) (declared : List Str) (data : List DataSpec) (n : Node) :
    Result (List DataSpec) := do
  let spec ← resolveData n keyId declared
  Except.rejectIf (data.any fun d => d.cid == spec.cid) (xmlencRefused
    ("two xenc:EncryptedData target cid:" ++ spec.cid))
  pure (data ++ [spec])

/-- The first child with this name. -/
def firstChildNamed (parent : Node) (ns loc : Str) : Option Node :=
  parent.children.find? (·.hasTagName ns loc)

/-- The `attr_of` of `check_suite`. -/
def algorithmAttr (n : Option Node) : Str :=
  ((n.bind (·.attribute? "Algorithm")).map Str.trim).getD "(absent)"

/-- The key agreement part of `check_suite`. -/
def checkSuiteAgreement (suite : Suite) (agreement : Option Node) : Result Unit :=
  match suite.agreement, agreement with
  | none, some _ => .error (suiteRefused "key agreement where the profile requires key transport")
  | some (want, _, _), none => .error (suiteRefused
      ("no xenc:AgreementMethod (the profile requires " ++ want ++ ")"))
  | some (wantAgreement, wantKdf, wantDigest), some am => do
    let actual := algorithmAttr (some am)
    Except.rejectIf (actual ≠ wantAgreement) (suiteRefused ("AgreementMethod " ++ actual ++
      " (the profile requires " ++ wantAgreement ++ ")"))
    let kdm := firstChildNamed am Ns.xenc11 "KeyDerivationMethod"
    let actual := algorithmAttr kdm
    Except.rejectIf (actual ≠ wantKdf) (suiteRefused ("KeyDerivationMethod " ++ actual ++
      " (the profile requires " ++ wantKdf ++ ")"))
    let digest := (kdm.bind (firstChildNamed · Ns.xenc11 "ConcatKDFParams")).bind
      (firstChildNamed · Ns.ds "DigestMethod")
    let actual := algorithmAttr digest
    Except.rejectIf (actual ≠ wantDigest) (suiteRefused ("ConcatKDF digest " ++ actual ++
      " (the profile requires " ++ wantDigest ++ ")"))
  | none, none => .ok ()

/-- `check_suite`. -/
def checkSuite (key : Node) (datas : List Node) (suite : Suite) : Result Unit := do
  let method := algorithmAttr (firstChildNamed key Ns.xenc "EncryptionMethod")
  Except.rejectIf (method ≠ suite.keyMethod) (suiteRefused ("EncryptedKey method " ++ method ++
    " (the profile requires " ++ suite.keyMethod ++ ")"))
  checkSuiteAgreement suite ((firstChildNamed key Ns.ds "KeyInfo").bind
    (firstChildNamed · Ns.xenc "AgreementMethod"))
  forM datas fun data =>
    let actual := algorithmAttr (firstChildNamed data Ns.xenc "EncryptionMethod")
    Except.rejectIf (actual ≠ suite.content) (suiteRefused ("content encryption " ++ actual ++
      " (the profile requires " ++ suite.content ++ ")"))

/-- `bst_reference`. -/
def bstReference (doc : Document) (security key : Node) : Option RecipientRef := do
  let reference ← (((key.children.filter (·.hasTagName Ns.ds "KeyInfo")).flatMap
    Node.descendants).find? fun n => n.hasTagName Ns.wsse "Reference" && !underOriginator n)
  let id ← fragment ((reference.attribute? "URI").getD [])
  match elementsWithId doc id with
  | [token] =>
    if token.hasTagName Ns.wsse "BinarySecurityToken" ∧ token.parent?.any (sameNode · security) ∧
        (token.attribute? "ValueType").any fun v => ("#X509v3" : Str).isSuffixOf v then
      ((base64Text token "recipient BinarySecurityToken").toOption).map .certificate
    else none
  | _ => none

/-- The `xenc:EncryptedKey` of a header; there is exactly one. -/
def theEncryptedKey (keys : List Node) : Result Node :=
  match keys with
  | [one] => .ok one
  | [] => .error (xmlencRefused "xenc:EncryptedData without an xenc:EncryptedKey")
  | many => .error (xmlencRefused (showNat many.length ++
      " xenc:EncryptedKey elements; exactly one is accepted"))

/-- Every `xenc:EncryptedData` is named by an `xenc:DataReference`. -/
def checkDataNamed (datas targets : List Node) : Result Unit :=
  match datas.find? fun d => !targets.any (sameNode · d) with
  | some orphan => .error (xmlencRefused ("xenc:EncryptedData " ++
      Str.debug ((orphan.attribute? "Id").getD []) ++ " is named by no xenc:DataReference"))
  | none => .ok ()

/-- The `resolve_envelope` of a header that encrypts something. -/
def resolveEncryption (doc : Document) (security : Node) (keys datas : List Node)
    (declared : List Str) (suite : Option Suite) (maxParts : Nat) : Result ResolvedEnvelope := do
  let key ← theEncryptedKey keys
  Except.rejectIf (datas.length > maxParts) (xmlencRefused (showNat datas.length ++
    " xenc:EncryptedData elements exceed the part cap " ++ showNat maxParts))
  let keyId ← elementId key
  let keyLists ← childrenIn key Ns.xenc "ReferenceList"
  let lists := keyLists ++ security.children.filter (·.hasTagName Ns.xenc "ReferenceList")
  let references := lists.flatMap fun list => list.children.filter Node.isElement
  let targets ← references.foldlM (nameTarget doc datas) []
  checkDataNamed datas targets
  let data ← datas.foldlM (addData keyId declared) []
  forM suite (checkSuite key datas)
  let spec ← parseEncryptedKey key
  pure ⟨{ spec with recipient := spec.recipient.or (bstReference doc security key) }, data⟩

/-- `resolve_envelope`. -/
def resolveEnvelope (doc : Document) (security : Node) (declared : List Str)
    (suite : Option Suite) (maxParts : Nat) : Result (Option ResolvedEnvelope) := do
  checkEncryptionPlacement doc security
  let keys := security.children.filter (·.hasTagName Ns.xenc "EncryptedKey")
  let datas := security.children.filter (·.hasTagName Ns.xenc "EncryptedData")
  if keys = [] ∧ datas = [] then pure none
  else do
    let envelope ← resolveEncryption doc security keys datas declared suite maxParts
    pure (some envelope)

end Asx
