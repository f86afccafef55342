import Asx.Native.References

/-!
# Reading a `ds:Signature`

The first half of `crypto/wssec/verify.rs`: which `ds:Signature` of a document is the
primary one, its references, and its key material. Nothing here trusts what it reads.
-/

namespace Asx

open Xml

/-- `children().find(|n| n.is_element() && is_ds_element(*n, loc))`. -/
def dsChild? (n : Node) (loc : Str) : Option Node := n.children.find? fun c => isDsElement c loc

/-- The trimmed text of a node, unless it is empty. -/
def trimmedText? (n : Node) : Option Str := (n.text?.map Str.trim).filter (· ≠ [])

/-- `SignedDocClass`. -/
inductive SignedDocClass where
  | userMessage
  | signal
  | smp
deriving DecidableEq, Repr

namespace SignedDocClass

/-- `SignedDocClass::max_references`. -/
def maxReferences : SignedDocClass → Nat
  | .userMessage => 3 + 16
  | .signal => 3
  | .smp => 1

/-- `SignedDocClass::MAX_TRANSFORMS`. -/
def maxTransforms : Nat := 2

/-- The derived `Debug`. -/
def debug : SignedDocClass → Str
  | .userMessage => "UserMessage"
  | .signal => "Signal"
  | .smp => "Smp"

end SignedDocClass

/-! ## Which signature -/

/-- Whether the parent of a node is a `wsse:Security`. -/
def inSecurity (n : Node) : Bool := n.parent?.any fun p => p.hasTagName Ns.wsse "Security"

/-- `find_single_signature_node`. -/
def findSingleSignatureNode (doc : Document) (stage : Str) : Result (Option Node) :=
  match doc.descendants.filter (isDsElement · "Signature") with
  | [] => .ok none
  | [signature] => .ok (some signature)
  | all =>
    match all.filter inSecurity with
    | [primary] => .ok (some primary)
    | _ :: _ :: _ => .error ⟨.interopViolation,
        "multiple ds:Signature elements inside wsse:Security; refusing to choose one — a " ++
          "document must carry exactly one WS-Security primary signature", .new stage⟩
    | [] => .error ⟨.interopViolation,
        showNat all.length ++ " ds:Signature elements found and none is a direct child of " ++
          "wsse:Security; refusing to resolve the ambiguity by document order", .new stage⟩

/-! ## Reference URIs -/

/-- `ParsedReferenceUri`. It is its own deduplication key (`ParsedReferenceDedupKey` has the
    same two cases with the same contents). -/
inductive ParsedReferenceUri where
  | sameDocument (targetId : Str)
  | cid (normalized : Str)
deriving DecidableEq, Repr

/-- `normalize_cid_uri`. -/
def normalizeCidUri (uri : Str) : Str :=
  Str.trimEndChar '>' ((Str.trimStartMatches "CID:"
    (Str.trimStartMatches "cid:" (Str.trim uri))).dropWhile (· == '<'))

/-- An error of the reference parser about one URI: `text` goes before it, `rest` after. -/
def referenceError (code : ErrorCode) (stage text uri rest : Str) : AsxError :=
  ⟨code, text ++ uri ++ rest, (ErrorContext.new stage).withMessageId uri⟩

/-- `is_cid_reference_uri`. -/
def isCidReferenceUri (uri : Str) : Bool :=
  ("cid:" : Str).isPrefixOf uri || ("CID:" : Str).isPrefixOf uri

/-- `validate_cid_reference_uri`. -/
def validateCidReferenceUri (uri : Str) : Result Str := do
  let normalized := normalizeCidUri uri
  Except.rejectIf (normalized = []) (referenceError .interopViolation "wssec_parse_references"
    "empty cid reference URI is not allowed in strict mode: " uri "")
  Except.rejectIf (normalized.contains '%') (referenceError .interopViolation
    "wssec_parse_references"
    "percent-encoded cid reference URIs are not supported in strict mode: " uri "")
  Except.rejectIf (normalized.any Str.isWhitespace ∨ normalized.any Str.isControl)
    (referenceError .interopViolation "wssec_parse_references"
      "invalid whitespace/control characters in cid reference URI: " uri "")
  pure normalized

/-- `parse_reference_uri`. -/
def parseReferenceUri (uri stage : Str) : Result ParsedReferenceUri := do
  Except.rejectIf (Str.trim uri ≠ uri) (referenceError .interopViolation stage
    "non-canonical ds:Reference URI with surrounding whitespace: " uri "")
  if isCidReferenceUri uri then
    let normalized ← validateCidReferenceUri uri
    pure (.cid normalized)
  else if ['#'].isPrefixOf uri then
    let targetId ← (normalizeSameDocumentUri uri).mapError fun _ =>
      referenceError .interopViolation stage
        "invalid same-document reference URI in ds:Reference: " uri ""
    pure (.sameDocument targetId)
  else
    throw (referenceError .interopViolation stage
      "unsupported ds:Reference URI scheme in strict mode: " uri
      " (supported: same-document '#...' and cid:...)")

/-! ## Transforms -/

/-- `default_c14n_kind`. -/
def defaultC14nKind : ParsedReferenceUri → WsSecCanonicalizationKind
  | .cid _ => .exclusive
  | .sameDocument _ => .inclusive

/-- The prefixes of the `ec:InclusiveNamespaces` children of a method or transform; any
    other child element is refused. -/
def inclusiveNamespaces (unsupportedChild : Str → Str → AsxError) (n : Node) :
    Result (List Str) :=
  (n.children.filter Node.isElement).foldlM (fun prefixes child =>
    let childNs := child.namespaceUri.getD []
    if childNs = Ns.excC14n ∧ child.localName = ("InclusiveNamespaces" : Str) then
      match child.attribute? "PrefixList" with
      | some list => pure (prefixes ++ Str.splitAsciiWhitespace list)
      | none => pure prefixes
    else throw (unsupportedChild childNs child.localName)) []

/-- The check of one transform of a `cid:` reference. -/
def checkAttachmentTransform (uri : Str) (transform : Node) : Result Unit :=
  let alg := (transform.attribute? "Algorithm").getD []
  match TransformAlg.fromUri alg with
  | .ok .attachmentContent => pure ()
  | _ =>
    let detail : Str :=
      if ("#Attachment-Complete-Signature-Transform" : Str).isSuffixOf alg then
        "the Attachment-Complete-Signature-Transform (MIME headers included in the digest) is " ++
          "not supported; AS4 mandates the content-only transform"
      else
        "the only supported transform for attachment references is the WSS SwA " ++
          "Attachment-Content-Signature-Transform"
    throw (referenceError .interopViolation "wssec_parse_references"
      ("unsupported ds:Transform Algorithm \"" ++ alg ++ "\" on cid: Reference ") uri
      (": " ++ detail))

/-- One transform of a same-document reference: the canonicalization so far, updated. -/
def applyTransform (uri : Str) (acc : WsSecCanonicalizationKind × List Str) (transform : Node) :
    Result (WsSecCanonicalizationKind × List Str) :=
  let alg := (transform.attribute? "Algorithm").getD []
  match TransformAlg.fromUri alg with
  | .ok (.c14n .inclusive) => pure (.inclusive, acc.2)
  | .ok (.c14n .exclusive) => do
    let more ← inclusiveNamespaces (fun childNs childLocal =>
      referenceError .interopViolation "wssec_parse_references"
        ("unsupported child element \x7b" ++ childNs ++ "\x7d" ++ childLocal ++
          " inside ds:Transform for Reference ") uri "") transform
    pure (.exclusive, acc.2 ++ more)
  | _ => throw (referenceError .interopViolation "wssec_parse_references"
      ("unsupported ds:Transform Algorithm \"" ++ alg ++ "\" in Reference ") uri
      ("; supported algorithms: Exclusive C14N (" ++ WsSecCanonicalizationKind.exclusive.uri ++
        ") and Inclusive C14N (" ++ WsSecCanonicalizationKind.inclusive.uri ++ ")"))

/-- `parse_reference_transform_profile`. -/
def parseReferenceTransformProfile (reference : Node) (uri : Str)
    (parsedUri : ParsedReferenceUri) : Result (WsSecCanonicalizationKind × List Str) :=
  match dsChild? reference "Transforms" with
  | none => .ok (defaultC14nKind parsedUri, [])
  | some transforms =>
    let transforms := transforms.children.filter (isDsElement · "Transform")
    match parsedUri with
    | .cid _ => do
      forM transforms (checkAttachmentTransform uri)
      pure (.exclusive, [])
    | .sameDocument _ => transforms.foldlM (applyTransform uri) (defaultC14nKind parsedUri, [])

/-! ## References -/

/-- `WsSecSignatureReferenceBorrowed`. -/
structure WsSecSignatureReference where
  uri : Str
  parsedUri : ParsedReferenceUri
  digestMethod : WsSecDigestMethod
  digestValueBase64 : Str
  c14nKind : WsSecCanonicalizationKind
  inclusiveNsPrefixes : List Str
deriving DecidableEq, Repr

/-- The `ds:Reference` elements of a `ds:SignedInfo`. -/
def referenceNodes (signedInfo : Node) : List Node :=
  signedInfo.descendants.filter (isDsElement · "Reference")

/-- `enforce_reference_cap`. -/
def enforceReferenceCap (signedInfo : Node) (docClass : SignedDocClass) : Result Unit :=
  let count := (referenceNodes signedInfo).length
  Except.rejectIf (count > docClass.maxReferences) ⟨.securityVerificationFailed,
    showNat count ++ " ds:Reference elements exceed the cap of " ++
      showNat docClass.maxReferences ++ " for a " ++ docClass.debug ++ " document",
    .new "wssec_parse_references"⟩

/-- `enforce_transform_cap`. -/
def enforceTransformCap (reference : Node) (uri : Str) : Result Unit :=
  let count := (((reference.children.filter (isDsElement · "Transforms")).flatMap
    Node.children).filter (isDsElement · "Transform")).length
  Except.rejectIf (count > SignedDocClass.maxTransforms)
    (referenceError .securityVerificationFailed "wssec_parse_references" "ds:Reference " uri
      (" carries " ++ showNat count ++ " transforms; at most " ++
        showNat SignedDocClass.maxTransforms ++ " are allowed"))

/-- One iteration of the loop of `parse_signature_references_from_signed_info_borrowed`;
    `seen` holds the URIs of the references before this one. -/
def parseSignatureReference (seen : List ParsedReferenceUri) (node : Node) :
    Result WsSecSignatureReference := do
  let uri ← Except.okOr (node.attribute? "URI") ⟨.parseFailed,
    "Reference is missing required URI attribute", .new "wssec_parse_references"⟩
  enforceTransformCap node uri
  let parsedUri ← parseReferenceUri uri "wssec_parse_references"
  Except.rejectIf (parsedUri ∈ seen) (referenceError .interopViolation "wssec_parse_references"
    "duplicate or semantically equivalent ds:Reference URI found: " uri "")
  let profile ← parseReferenceTransformProfile node uri parsedUri
  let digestMethodUri ← Except.okOr ((dsChild? node "DigestMethod").bind (·.attribute? "Algorithm"))
    ⟨.parseFailed, "Reference is missing DigestMethod/Algorithm",
      (ErrorContext.new "wssec_parse_references").withMessageId uri⟩
  let digestValue ← Except.okOr ((dsChild? node "DigestValue").bind trimmedText?)
    ⟨.parseFailed, "Reference is missing non-empty DigestValue",
      (ErrorContext.new "wssec_parse_references").withMessageId uri⟩
  let digestMethod ← WsSecDigestMethod.fromAlgorithmUri digestMethodUri
  pure ⟨uri, parsedUri, digestMethod, digestValue, profile.1, profile.2⟩

/-- The loop over the `ds:Reference` elements. -/
def parseSignatureReferenceNodes (seen : List ParsedReferenceUri) :
    List Node → Result (List WsSecSignatureReference)
  | [] => .ok []
  | node :: nodes => do
    let reference ← parseSignatureReference seen node
    let rest ← parseSignatureReferenceNodes (reference.parsedUri :: seen) nodes
    pure (reference :: rest)

/-- `parse_signature_references_from_signed_info_borrowed`. -/
def parseSignatureReferencesFromSignedInfo (signedInfo : Node) (docClass : SignedDocClass) :
    Result (List WsSecSignatureReference) := do
  enforceReferenceCap signedInfo docClass
  let refs ← parseSignatureReferenceNodes [] (referenceNodes signedInfo)
  Except.rejectIf (refs = []) ⟨.parseFailed,
    "no ds:Reference elements found under ds:SignedInfo", .new "wssec_parse_references"⟩
  pure refs

end Asx
