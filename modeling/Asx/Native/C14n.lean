import Asx.ForStd.OrdMap
import Asx.Xml.WellFormed

/-!
# XML canonicalization

The C14N serializer of `crypto/wssec/canonicalize.rs`: Exclusive and Inclusive
Canonical XML of a node, with or without comments, optionally omitting one subtree
(the enveloped signature). The writer is threaded as the text produced so far, so a
function that writes returns what it wrote; the only `fmt::Error` the serializer raises
is the depth bound, and it is the `none` of `serializeSubtree`.

A node is passed as its tree, the trees above it and its path, so that the recursion
follows the tree. `parentNs` is the rendered namespace context: the declarations that
the output's ancestors already carry.
-/

namespace Asx

open Xml

/-- `WsSecCanonicalizationKind`. -/
inductive WsSecCanonicalizationKind where
  | exclusive
  | inclusive
deriving DecidableEq, Repr

/-- `WsSecCanonicalizationProfile`. -/
structure WsSecCanonicalizationProfile where
  kind : WsSecCanonicalizationKind
  includeComments : Bool
  /-- Prefixes of `ec:InclusiveNamespaces/@PrefixList`. -/
  inclusiveNsPrefixes : List Str
deriving DecidableEq, Repr

namespace WsSecCanonicalizationProfile

/-- The `Default` profile: Exclusive C14N without comments. -/
def exclusive : WsSecCanonicalizationProfile := ⟨.exclusive, false, []⟩

/-- `WsSecCanonicalizationProfile::inclusive`. -/
def inclusive : WsSecCanonicalizationProfile := ⟨.inclusive, false, []⟩

end WsSecCanonicalizationProfile

/-- `MAX_C14N_DEPTH`: an element at this depth or deeper fails serialization. -/
def maxC14nDepth : Nat := 256

/-- The `PrefixList` token for the default namespace. -/
def defaultToken : Str := ['#', 'd', 'e', 'f', 'a', 'u', 'l', 't']

/-- Namespace context: prefix to URI, the empty prefix being the default namespace. -/
abbrev NsMap := OrdMap Str Str

/-! ## Escaping -/

/-- One character of `escape_text`. -/
def escapeTextChar (c : Char) : Str :=
  match c with
  | '<' => ['&', 'l', 't', ';']
  | '>' => ['&', 'g', 't', ';']
  | '&' => ['&', 'a', 'm', 'p', ';']
  | '\r' => ['&', '#', 'x', 'D', ';']
  | c => [c]

/-- `escape_text`. -/
def escapeText (s : Str) : Str := s.flatMap escapeTextChar

/-- One character of `escape_attr_value`. -/
def escapeAttrChar (c : Char) : Str :=
  match c with
  | '&' => ['&', 'a', 'm', 'p', ';']
  | '<' => ['&', 'l', 't', ';']
  | '"' => ['&', 'q', 'u', 'o', 't', ';']
  | '\t' => ['&', '#', 'x', '9', ';']
  | '\n' => ['&', '#', 'x', 'A', ';']
  | '\r' => ['&', '#', 'x', 'D', ';']
  | c => [c]

/-- `escape_attr_value`. -/
def escapeAttrValue (s : Str) : Str := s.flatMap escapeAttrChar

/-! ## Names as written -/

/-- `element_source_prefix`: the name is read from the source text after `<`, up to the
    first white space, `>` or `/`. What follows the name there is one of these, so only
    a delimiter inside the name itself can cut it short. -/
def elementSourcePrefix (q : QName) : Str :=
  let qname := (qnameText q.pre q.loc).takeWhile
    fun c => !(Str.isWhitespace c || c == '>' || c == '/')
  (Str.beforeLast ':' qname).getD []

/-- `attribute_source_prefix`. -/
def attributeSourcePrefix (q : QName) : Str :=
  (Str.beforeLast ':' (qnameText q.pre q.loc)).getD []

/-! ## Namespaces to render -/

/-- Inclusive C14N: every binding in scope, less `xml` and empty named bindings. -/
def utilizedInclusive (chain : List Tree) : NsMap :=
  (namespaces chain).foldl (fun utilized b =>
    if b.2 = xmlNs then utilized
    else if b.2 = [] ∧ b.1 ≠ [] then utilized
    else utilized.insert b.1 b.2) .empty

/-- Exclusive C14N: the binding of the element's own name. An element in no namespace
    utilizes the binding of the empty prefix to no namespace. -/
def utilizedTag (chain : List Tree) (q : QName) : NsMap :=
  match resolve chain q.pre with
  | some uri => if uri = xmlNs then .empty else OrdMap.empty.insert (elementSourcePrefix q) uri
  | none => OrdMap.empty.insert [] []

/-- Exclusive C14N: add the bindings of the attributes' names. -/
def utilizedAttrs (chain : List Tree) (attrs : List Attr) (utilized : NsMap) : NsMap :=
  attrs.foldl (fun utilized a =>
    match resolveAttr chain a.name.pre with
    | some uri =>
      if uri = xmlNs then utilized else utilized.insert (attributeSourcePrefix a.name) uri
    | none => utilized) utilized

/-- The prefix a `PrefixList` token stands for. -/
def tokenPrefix (token : Str) : Str := if token = defaultToken then [] else token

/-- Exclusive C14N: add the `PrefixList` bindings in scope that are not utilized yet. -/
def mergeInclusivePrefixes (chain : List Tree) (tokens : List Str) (utilized : NsMap) : NsMap :=
  tokens.foldl (fun utilized token =>
    match inScope chain (tokenPrefix token) with
    | some uri => if uri = xmlNs then utilized else utilized.orInsert (tokenPrefix token) uri
    | none => utilized) utilized

/-- The namespaces to render at an element, `chain` being the element and its ancestors. -/
def utilizedNamespaces (profile : WsSecCanonicalizationProfile)
    (override : Option (List Str)) (chain : List Tree) (q : QName) (attrs : List Attr) : NsMap :=
  match profile.kind with
  | .inclusive => utilizedInclusive chain
  | .exclusive =>
    mergeInclusivePrefixes chain (override.getD profile.inclusiveNsPrefixes)
      (utilizedAttrs chain attrs (utilizedTag chain q))

/-- Whether a declaration is written: the binding differs from the rendered context, and
    `xmlns=""` only undeclares a non-empty default namespace. -/
def shouldEmit (parentNs : NsMap) (b : Str × Str) : Bool :=
  if b.2 = [] ∧ b.1 = [] then
    match parentNs.get b.1 with
    | some p => !p.isEmpty
    | none => false
  else parentNs.get b.1 ≠ some b.2

/-- `ns_emitted`, in the order written. -/
def nsEmitted (parentNs utilized : NsMap) : List (Str × Str) :=
  utilized.entries.filter (shouldEmit parentNs)

/-! ## Attributes -/

/-- A row of the attribute table: namespace, local name, qualified name, value. -/
structure AttrRow where
  ns : Option Str
  loc : Str
  qname : Str
  value : Str
deriving DecidableEq, Repr

/-- The order of the attribute table: namespace URI, then local name. -/
def AttrRow.le (a b : AttrRow) : Prop :=
  a.ns.getD [] < b.ns.getD [] ∨ (a.ns.getD [] = b.ns.getD [] ∧ a.loc ≤ b.loc)

instance : DecidableRel AttrRow.le := fun _ _ =>
  inferInstanceAs (Decidable (_ ∨ (_ ∧ _)))

/-- The row of an attribute of the element at the head of `chain`. -/
def attrRow (chain : List Tree) (a : Attr) : AttrRow :=
  { ns := resolveAttr chain a.name.pre
    loc := a.name.loc
    qname := qnameText (attributeSourcePrefix a.name) a.name.loc
    value := a.value }

/-- The attributes of one ancestor that the apex inherits, added to those taken from
    nearer ancestors. -/
def inheritFrom (own : List AttrRow) (chain : List Tree) (attrs : List Attr)
    (inherited : List AttrRow) : List AttrRow :=
  attrs.foldl (fun inherited a =>
    let row := attrRow chain a
    if row.ns ≠ some xmlNs then inherited
    else if own.any (fun o => o.ns = some xmlNs ∧ o.loc = row.loc) ∨
        inherited.any (fun seen => seen.loc = row.loc) then inherited
    else inherited ++ [row]) inherited

/-- `inherited_xml_attributes`: the `xml:*` attributes of the ancestors, the nearest
    winning, that the element does not carry itself. -/
def inheritedXmlAttributes (own : List AttrRow) : List Tree → List AttrRow → List AttrRow
  | [], inherited => inherited
  | t :: up, inherited => inheritedXmlAttributes own up (inheritFrom own (t :: up) t.attrs inherited)

/-- The attribute table of an element, sorted. Ties of `sort_unstable_by` cannot occur:
    expanded names of attributes are unique. -/
def attrRows (profile : WsSecCanonicalizationProfile) (chain : List Tree) (attrs : List Attr)
    (apex : Bool) : List AttrRow :=
  let own := attrs.map (attrRow chain)
  let rows :=
    if apex ∧ profile.kind = .inclusive then own ++ inheritedXmlAttributes own chain.tail []
    else own
  rows.insertionSort AttrRow.le

/-! ## Start tags -/

/-- A namespace declaration as written. -/
def writeDecl (b : Str × Str) : Str :=
  (if b.1 = [] then " xmlns=\"".toList else " xmlns:".toList ++ b.1 ++ ['=', '"']) ++
    escapeAttrValue b.2 ++ ['"']

/-- An attribute as written. -/
def writeAttr (row : AttrRow) : Str :=
  ' ' :: row.qname ++ ['=', '"'] ++ escapeAttrValue row.value ++ ['"']

/-- `write_start_tag`: the element's qualified name, the declarations emitted, and the
    text written. `chain` is the element and its ancestors. -/
def writeStartTag (profile : WsSecCanonicalizationProfile) (override : Option (List Str))
    (parentNs : NsMap) (apex : Bool) (chain : List Tree) (q : QName) (attrs : List Attr) :
    Str × List (Str × Str) × Str :=
  let tagQname := qnameText (elementSourcePrefix q) q.loc
  let emitted := nsEmitted parentNs (utilizedNamespaces profile override chain q attrs)
  let rows := attrRows profile chain attrs apex
  (tagQname, emitted, '<' :: tagQname ++ emitted.flatMap writeDecl ++ rows.flatMap writeAttr ++ ['>'])

/-! ## Subtrees -/

/-- A processing instruction as written; empty data is not separated from the target. -/
def writePi (target : Str) (data : Option Str) : Str :=
  '<' :: '?' :: target ++
    (match data with
      | some d => if d = [] then [] else ' ' :: d
      | none => []) ++ ['?', '>']

/-- A comment as written, when comments are included. -/
def writeComment (profile : WsSecCanonicalizationProfile) (s : Str) : Str :=
  if profile.includeComments then "<!--".toList ++ s ++ "-->".toList else []

mutual

/-- `serialize_subtree` and `serialize_element`: the canonical text of a node, or `none`
    when an element lies at the depth bound. `omitted` is the path of the node to skip. -/
def serializeSubtree (profile : WsSecCanonicalizationProfile) (override : Option (List Str))
    (omitted : Option (List Nat)) (parentNs : NsMap) (depth : Nat)
    (up : List Tree) (path : List Nat) : Tree → Option Str
  | .element q ds as cs =>
    if omitted = some path then some []
    else if depth ≥ maxC14nDepth then none
    else
      let chain := .element q ds as cs :: up
      let tag := writeStartTag profile override parentNs (depth == 0) chain q as
      (serializeChildren profile override omitted (parentNs.extend tag.2.1) (depth + 1)
        chain path 0 cs).map fun content =>
          tag.2.2 ++ content ++ ('<' :: '/' :: tag.1 ++ ['>'])
  | .text s => if omitted = some path then some [] else some (escapeText s)
  | .comment s => if omitted = some path then some [] else some (writeComment profile s)
  | .pi target data => if omitted = some path then some [] else some (writePi target data)
  | .root cs =>
    if omitted = some path then some []
    else serializeChildren profile override omitted parentNs depth (.root cs :: up) path 0 cs

/-- The canonical texts of a list of children one after the other, the first of them at
    position `i`; the first failure ends the loop. -/
def serializeChildren (profile : WsSecCanonicalizationProfile) (override : Option (List Str))
    (omitted : Option (List Nat)) (parentNs : NsMap) (depth : Nat)
    (up : List Tree) (path : List Nat) (i : Nat) : List Tree → Option Str
  | [] => some []
  | t :: ts =>
    match serializeSubtree profile override omitted parentNs depth up (i :: path) t with
    | none => none
    | some s =>
      (serializeChildren profile override omitted parentNs depth up path (i + 1) ts).map (s ++ ·)

end

/-- `try_serialize_node_omitting`: serialize a node from an empty rendered context. -/
def trySerializeNodeOmitting (profile : WsSecCanonicalizationProfile)
    (override : Option (List Str)) (omitted : Option Node) (n : Node) : Option Str :=
  serializeSubtree profile override (omitted.map Node.path) .empty 0 n.up n.path n.tree

/-- `try_serialize_node_with_inclusive_ns`. -/
def trySerializeNodeWithInclusiveNs (profile : WsSecCanonicalizationProfile)
    (override : Option (List Str)) (n : Node) : Option Str :=
  trySerializeNodeOmitting profile override none n

/-- `try_serialize_node`. -/
def trySerializeNode (profile : WsSecCanonicalizationProfile) (n : Node) : Option Str :=
  trySerializeNodeWithInclusiveNs profile none n

/-! ## Whole documents -/

/-- What `serialize_root_node` writes for the child of the document node at position `i`.
    A processing instruction or a comment is set off from the document element by a line
    feed, on the side of the element. -/
def serializeTopLevel (profile : WsSecCanonicalizationProfile) (docElemIdx : Option Nat)
    (i : Nat) (child : Node) : Option Str :=
  let leading : Str := if docElemIdx.any (· < i) then ['\n'] else []
  let trailing : Str := if docElemIdx.any (i < ·) then ['\n'] else []
  match child.tree with
  | .element .. => trySerializeNodeWithInclusiveNs profile none child
  | .pi target data => some (leading ++ writePi target data ++ trailing)
  | .comment s =>
    if profile.includeComments then
      some (leading ++ "<!--".toList ++ s ++ "-->".toList ++ trailing)
    else some []
  | _ => some []

/-- The loop of `serialize_root_node`. -/
def serializeTopLevels (profile : WsSecCanonicalizationProfile) (docElemIdx : Option Nat) :
    Nat → List Node → Option Str
  | _, [] => some []
  | i, child :: rest =>
    match serializeTopLevel profile docElemIdx i child with
    | none => none
    | some s => (serializeTopLevels profile docElemIdx (i + 1) rest).map (s ++ ·)

/-- `serialize_root_node`. -/
def serializeRootNode (profile : WsSecCanonicalizationProfile) (doc : Document) : Option Str :=
  serializeTopLevels profile (doc.root.children.findIdx? Node.isElement) 0 doc.root.children

end Asx
