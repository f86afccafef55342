import Asx.Native.Alg
import Asx.Xml.WellFormed

/-!
# Same-document references

The part of `crypto/wssec/canonicalize.rs` that finds the element a `ds:Reference` with a
`#id` URI names and digests its canonical form. `SameDocumentReferenceIndex` is a hash map
that is only looked up, so its model is a finite map.

The digest algorithms are a parameter of the model (`Digests`).
-/

namespace Asx

open Xml

/-- The digest functions of `sha2` and of `openssl::hash`. -/
abbrev Digests := WsSecDigestMethod → Bytes → Bytes

/-- `is_ds_element`. -/
def isDsElement (n : Node) (loc : Str) : Bool := n.hasTagName Ns.ds loc

/-! ## The index -/

/-- `SameDocumentReferenceEntry`. -/
inductive SameDocumentReferenceEntry where
  | unique (node : Node)
  | ambiguous

/-- `SameDocumentReferenceIndex`. -/
structure SameDocumentReferenceIndex where
  entries : OrdMap Str SameDocumentReferenceEntry

/-- `is_reference_id_attr`: same-document reference ids are `wsu:Id`, the unqualified `Id`
    and `xml:id`. -/
def isReferenceIdAttr (namespace? : Option Str) (name : Str) : Bool :=
  match namespace? with
  | none => name == ("Id" : Str)
  | some ns =>
    if ns = Ns.wsu then name == ("Id" : Str)
    else if ns = xmlNs then name == ("id" : Str)
    else false

namespace SameDocumentReferenceIndex

/-- The ids of one element that are wanted, each once. -/
def nodeIds (wanted : Option (List Str)) (node : Node) : List Str :=
  node.tree.attrs.foldl (fun ids a =>
    if isReferenceIdAttr (node.attrNs a) a.name.loc then
      if wanted.any fun w => !w.contains a.value then ids
      else if ids.contains a.value then ids
      else ids ++ [a.value]
    else ids) []

/-- Enter one id of an element. -/
def enter (node : Node) (entries : OrdMap Str SameDocumentReferenceEntry) (value : Str) :
    OrdMap Str SameDocumentReferenceEntry :=
  match entries.get value with
  | none => entries.insert value (.unique node)
  | some (.unique existing) =>
    if existing.path = node.path then entries else entries.insert value .ambiguous
  | some .ambiguous => entries.insert value .ambiguous

/-- `SameDocumentReferenceIndex::build_impl`. -/
def buildImpl (doc : Document) (wanted : Option (List Str)) : SameDocumentReferenceIndex :=
  ⟨(doc.descendants.filter Node.isElement).foldl
    (fun entries node => (nodeIds wanted node).foldl (enter node) entries) .empty⟩

/-- `SameDocumentReferenceIndex::build`. -/
def build (doc : Document) : SameDocumentReferenceIndex := buildImpl doc none

/-- `SameDocumentReferenceIndex::build_for_targets`. -/
def buildForTargets (doc : Document) (targetIds : List Str) : SameDocumentReferenceIndex :=
  if targetIds = [] then ⟨.empty⟩ else buildImpl doc (some targetIds)

end SameDocumentReferenceIndex

/-! ## Reference URIs -/

/-- The error of `normalize_same_document_uri` for one of its rules. -/
def referenceUriError (code : ErrorCode) (text uri : Str) : AsxError :=
  ⟨code, text ++ uri, .new "wssec_reference_uri"⟩

/-- `normalize_same_document_uri`: the fragment of a `#id` URI. -/
def normalizeSameDocumentUri (uri : Str) : Result Str := do
  Except.rejectIf (Str.trim uri ≠ uri) (referenceUriError .interopViolation
    "non-canonical reference URI with surrounding whitespace: " uri)
  Except.rejectIf (¬ ['#'].isPrefixOf uri) (referenceUriError .invalidInput
    "unsupported reference URI: " uri)
  Except.rejectIf (uri.utf8.length = 1) (referenceUriError .interopViolation
    "empty same-document URI fragment is not supported in strict mode: " uri)
  let fragment := uri.drop 1
  Except.rejectIf (fragment.contains '%') (referenceUriError .interopViolation
    "percent-encoded same-document URI fragments are not supported in strict mode: " uri)
  Except.rejectIf (¬ fragment.all Str.isAscii) (referenceUriError .interopViolation
    "non-ASCII same-document URI fragments are not supported in strict mode: " uri)
  Except.rejectIf (fragment.contains '#') (referenceUriError .interopViolation
    "nested fragment markers are not supported in strict same-document URIs: " uri)
  Except.rejectIf (fragment.any Str.isWhitespace) (referenceUriError .interopViolation
    "whitespace is not allowed inside strict same-document URI fragments: " uri)
  Except.rejectIf (fragment.any Str.isControl) (referenceUriError .interopViolation
    "control characters are not allowed in strict same-document URI fragments: " uri)
  let firstIsValid := (fragment.head?.map fun c => Str.isAsciiAlphabetic c || c == '_').getD false
  let restIsValid := (fragment.drop 1).all fun c =>
    Str.isAsciiAlphanumeric c || c == '.' || c == '-' || c == '_' || c == ':'
  Except.rejectIf (¬ firstIsValid ∨ ¬ restIsValid) (referenceUriError .interopViolation
    "non-canonical same-document URI fragment characters are not supported in strict mode: " uri)
  Except.rejectIf (fragment.contains ':') (referenceUriError .interopViolation
    "namespace-like delimiters are not supported in strict same-document URI fragments: " uri)
  pure fragment

/-- `resolve_same_document_reference_target_with_index`. -/
def resolveSameDocumentReferenceTargetWithIndex (index : SameDocumentReferenceIndex)
    (uri targetId : Str) : Result Node :=
  match index.entries.get targetId with
  | some (.unique node) => .ok node
  | some .ambiguous => .error ⟨.interopViolation,
      "ambiguous same-document reference target for URI " ++ uri ++
        ": multiple elements share ID " ++ targetId,
      (ErrorContext.new "wssec_canonicalize").withMessageId uri⟩
  | none => .error ⟨.invalidInput,
      "could not resolve same-document reference target for URI " ++ uri ++
        ": no element carries wsu:Id, Id or xml:id = \"" ++ targetId ++ "\"",
      (ErrorContext.new "wssec_canonicalize").withMessageId uri⟩

/-! ## Digests -/

/-- `canonicalize_reference_digest_from_target_with_inclusive_ns`. -/
def canonicalizeReferenceDigestFromTarget (digests : Digests) (target : Node)
    (profile : WsSecCanonicalizationProfile) (override : Option (List Str))
    (digestMethod : WsSecDigestMethod) : Result Bytes := do
  let out ← Except.okOr (trySerializeNodeWithInclusiveNs profile override target)
    ⟨.securityVerificationFailed, "failed to canonicalize XML reference subtree",
      .new "wssec_canonicalize"⟩
  pure (digests digestMethod (Str.utf8 out))

/-- `canonicalize_reference_digest_from_doc_with_inclusive_ns_and_index`. -/
def canonicalizeReferenceDigestWithIndex (digests : Digests) (index : SameDocumentReferenceIndex)
    (uri : Str) (profile : WsSecCanonicalizationProfile) (override : Option (List Str))
    (digestMethod : WsSecDigestMethod) : Result Bytes := do
  let targetId ← normalizeSameDocumentUri uri
  let target ← resolveSameDocumentReferenceTargetWithIndex index uri targetId
  canonicalizeReferenceDigestFromTarget digests target profile override digestMethod

end Asx
