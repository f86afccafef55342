import Asx.ForStd.Str

/-!
# XML documents as trees of nodes

The document tree of a read-only, namespace-aware XML parser, in the shape of
`roxmltree`: nodes are navigated from the document down, and a node knows its
ancestors. A node is a subtree together with the chain of trees above it and the path
of child positions that leads to it; the path is the node's identity.

Names are kept as they were written (prefix and local part). Namespaces are not
stored: they are resolved through the declarations of the node and its ancestors.

## Key definitions
- `Tree`: root, element, text, comment and processing instruction
- `Node`: a tree in its context, with `children`, `descendants`, `ancestors`
- `namespaces`, `resolve`: the bindings in scope and what a prefix means there
- `Node.attribute?`: lookup by local name in any namespace
-/

namespace Xml

/-- A qualified name as written: `pre:loc`, or `loc` alone when `pre` is empty. -/
structure QName where
  pre : Str
  loc : Str
deriving DecidableEq, Repr

/-- The text of a qualified name. -/
def qnameText (pre loc : Str) : Str := if pre = [] then loc else pre ++ ':' :: loc

/-- An attribute that is not a namespace declaration. -/
structure Attr where
  name : QName
  value : Str
deriving DecidableEq, Repr

/-- A document tree. `decls` holds the namespace declarations of an element, as pairs
    of a prefix (empty for `xmlns`) and a URI. -/
inductive Tree where
  | root (children : List Tree)
  | element (name : QName) (decls : List (Str × Str)) (attrs : List Attr)
      (children : List Tree)
  | text (s : Str)
  | comment (s : Str)
  | pi (target : Str) (data : Option Str)
deriving Repr

namespace Tree

/-- The child trees, empty for the leaves. -/
def children : Tree → List Tree
  | root cs => cs
  | element _ _ _ cs => cs
  | _ => []

/-- The namespace declarations written on the node. -/
def decls : Tree → List (Str × Str)
  | element _ ds _ _ => ds
  | _ => []

/-- The attributes written on the node, in document order. -/
def attrs : Tree → List Attr
  | element _ _ as _ => as
  | _ => []

/-- The name of an element. -/
def name? : Tree → Option QName
  | element n _ _ _ => some n
  | _ => none

/-- Whether the node is an element. -/
def isElement : Tree → Bool
  | element .. => true
  | _ => false

/-- Whether the node is a text node. -/
def isText : Tree → Bool
  | text _ => true
  | _ => false

/-- `Node::text`: the content of a text or comment node; of an element, the content of
    its first child when that is a text node. -/
def text? : Tree → Option Str
  | text s => some s
  | comment s => some s
  | element _ _ _ (text s :: _) => some s
  | root (text s :: _) => some s
  | _ => none

end Tree

/-! ## Namespaces -/

/-- The namespace the prefix `xml` is bound to by definition. -/
def xmlNs : Str := Str.lit "http://www.w3.org/XML/1998/namespace"

/-- The namespace of the prefix `xmlns`, which no declaration may bind. -/
def xmlnsNs : Str := Str.lit "http://www.w3.org/2000/xmlns/"

/-- The prefix `xml`. -/
def xmlPre : Str := ['x', 'm', 'l']

/-- The name `xmlns`. -/
def xmlnsPre : Str := ['x', 'm', 'l', 'n', 's']

/-- `Node::namespaces`: the bindings in scope at the head of a chain of nodes (the node,
    then its ancestors, nearest first): its own declarations, then the inherited ones
    that they do not redeclare. An `xmlns=""` is listed as a binding to the empty URI. -/
def namespaces : List Tree → List (Str × Str)
  | [] => []
  | t :: up => t.decls ++ (namespaces up).filter (fun b => !(t.decls.map Prod.fst).contains b.1)

/-- The binding of a prefix in scope. -/
def inScope (chain : List Tree) (pre : Str) : Option Str := (namespaces chain).lookup pre

/-- A namespace name: the empty URI of an `xmlns=""` names no namespace. -/
def nsOfUri : Option Str → Option Str
  | some [] => none
  | r => r

/-- The namespace of an element name with this prefix. -/
def resolve (chain : List Tree) (pre : Str) : Option Str :=
  if pre = xmlPre then some xmlNs else nsOfUri (inScope chain pre)

/-- The namespace of an attribute name with this prefix; the default namespace does not
    apply to attributes. -/
def resolveAttr (chain : List Tree) (pre : Str) : Option Str :=
  if pre = [] then none else resolve chain pre

private theorem lookup_filter_notMem {l : List (Str × Str)} {keys : List Str} {k : Str}
    (h : k ∉ keys) : (l.filter fun b => !keys.contains b.1).lookup k = l.lookup k := by
  induction l with
  | nil => rfl
  | cons b l ih =>
    obtain ⟨k', v⟩ := b
    simp only [List.filter_cons]
    split
    · simp only [List.lookup_cons, ih]
    · rename_i hc
      have hmem : k' ∈ keys := by simpa using hc
      have hne : (k == k') = false := by
        simp only [beq_eq_false_iff_ne]
        rintro rfl
        exact h hmem
      simp only [List.lookup_cons, hne, ih]

/-- A declared prefix means what the declaration says, any other what it meant above. -/
theorem inScope_cons (t : Tree) (up : List Tree) (pre : Str) :
    inScope (t :: up) pre = (t.decls.lookup pre).or (inScope up pre) := by
  simp only [inScope, namespaces, List.lookup_append]
  by_cases h : pre ∈ t.decls.map Prod.fst
  · obtain ⟨b, hb, rfl⟩ := List.mem_map.mp h
    have hs : (t.decls.lookup b.1).isSome := by
      cases hl : t.decls.lookup b.1 with
      | some v => rfl
      | none =>
        have hne := List.lookup_eq_none_iff.mp hl b hb
        simp at hne
    obtain ⟨v, hv⟩ := Option.isSome_iff_exists.mp hs
    simp [hv]
  · rw [lookup_filter_notMem h]

/-! ## Induction over trees -/

/-- Induction over a tree and its lists of children at once. -/
theorem Tree.induction {P : Tree → Prop} {L : List Tree → Prop}
    (root : ∀ cs, L cs → P (.root cs))
    (element : ∀ q ds as cs, L cs → P (.element q ds as cs))
    (text : ∀ s, P (.text s)) (comment : ∀ s, P (.comment s))
    (pi : ∀ target data, P (.pi target data))
    (nil : L []) (cons : ∀ t ts, P t → L ts → L (t :: ts)) :
    (∀ t, P t) ∧ (∀ ts, L ts) :=
  have hP : ∀ t, P t := fun t =>
    Tree.rec root element text comment pi nil (fun t ts ht hts => cons t ts ht hts) t
  ⟨hP, fun ts => List.rec nil (fun t ts hts => cons t ts (hP t) hts) ts⟩

/-! ## Nodes -/

/-- A node: a tree, the trees above it (nearest first) and its position. -/
structure Node where
  tree : Tree
  up : List Tree
  path : List Nat

namespace Node

/-- The node and its ancestors as a chain of trees. -/
def chain (n : Node) : List Tree := n.tree :: n.up

/-- The local name of an element, empty for other nodes. -/
def localName (n : Node) : Str := (n.tree.name?.map QName.loc).getD []

/-- The namespace of an element's name. -/
def namespaceUri (n : Node) : Option Str :=
  n.tree.name?.bind fun q => resolve n.chain q.pre

/-- Whether the node is an element. -/
def isElement (n : Node) : Bool := n.tree.isElement

/-- `has_tag_name((ns, loc))`. -/
def hasTagName (n : Node) (ns loc : Str) : Bool :=
  n.isElement && n.namespaceUri == some ns && n.localName == loc

/-- The text of the node as `Node::text` gives it. -/
def text? (n : Node) : Option Str := n.tree.text?

/-- The namespace of one of the node's attributes. -/
def attrNs (n : Node) (a : Attr) : Option Str := resolveAttr n.chain a.name.pre

/-- `Node::attribute` with a plain name: the first attribute with this local name,
    whatever its namespace. -/
def attribute? (n : Node) (loc : Str) : Option Str :=
  (n.tree.attrs.find? fun a => a.name.loc = loc).map Attr.value

/-- `Node::attribute` with a namespace and a local name. -/
def attributeNs? (n : Node) (ns loc : Str) : Option Str :=
  (n.tree.attrs.find? fun a => n.attrNs a = some ns ∧ a.name.loc = loc).map Attr.value

/-- The child nodes, in document order. -/
def children (n : Node) : List Node :=
  n.tree.children.mapIdx fun i t => ⟨t, n.chain, i :: n.path⟩

/-- The ancestors of the node together with their positions, nearest first. -/
def ancestorsFrom : List Tree → List Nat → List Node
  | [], _ => []
  | t :: up, path => ⟨t, up, path⟩ :: ancestorsFrom up path.tail

/-- The proper ancestors, nearest first. -/
def properAncestors (n : Node) : List Node := ancestorsFrom n.up n.path.tail

/-- `Node::ancestors`: the node itself, then its ancestors. -/
def ancestors (n : Node) : List Node := n :: n.properAncestors

/-- The parent node. -/
def parent? (n : Node) : Option Node := n.properAncestors.head?

end Node

mutual

/-- The nodes of a subtree in document order, the subtree's own node first. -/
def descendantsOf (up : List Tree) (path : List Nat) : Tree → List Node
  | .root cs => ⟨.root cs, up, path⟩ :: descendantsOfList (.root cs :: up) path 0 cs
  | .element q ds as cs =>
    ⟨.element q ds as cs, up, path⟩ :: descendantsOfList (.element q ds as cs :: up) path 0 cs
  | .text s => [⟨.text s, up, path⟩]
  | .comment s => [⟨.comment s, up, path⟩]
  | .pi t d => [⟨.pi t d, up, path⟩]

/-- The nodes of the subtrees of a list of children, the first of them at position `i`. -/
def descendantsOfList (up : List Tree) (path : List Nat) (i : Nat) : List Tree → List Node
  | [] => []
  | t :: ts => descendantsOf up (i :: path) t ++ descendantsOfList up path (i + 1) ts

end

/-- `Node::descendants`: the node itself and everything below it, in document order. -/
def Node.descendants (n : Node) : List Node := descendantsOf n.up n.path n.tree

end Xml
