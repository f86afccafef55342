import Mathlib.Data.List.Infix
import Asx.Xml.Dom

/-!
# Well-formed XML

The constraints that XML 1.0 (fifth edition) and Namespaces in XML put on a document
without a document type declaration, on the level of trees: characters, names,
namespace declarations, prefixes in scope, unique attributes, comments and processing
instructions. All of them are decidable.
-/

namespace Xml

/-! ## Characters and names -/

/-- Whether a code point lies in one of the ranges. -/
def inRanges (ranges : List (Nat × Nat)) (c : Char) : Bool :=
  ranges.any fun r => r.1 ≤ c.toNat && c.toNat ≤ r.2

/-- The production `Char`. -/
def isChar : Char → Bool :=
  inRanges [(0x9, 0xA), (0xD, 0xD), (0x20, 0xD7FF), (0xE000, 0xFFFD), (0x10000, 0x10FFFF)]

/-- The production `S`, for one character. -/
def isSpace (c : Char) : Bool := c == ' ' || c == '\t' || c == '\n' || c == '\r'

/-- The production `NameStartChar`, without the colon. -/
def isNameStart : Char → Bool :=
  inRanges [(0x41, 0x5A), (0x5F, 0x5F), (0x61, 0x7A), (0xC0, 0xD6), (0xD8, 0xF6),
    (0xF8, 0x2FF), (0x370, 0x37D), (0x37F, 0x1FFF), (0x200C, 0x200D), (0x2070, 0x218F),
    (0x2C00, 0x2FEF), (0x3001, 0xD7FF), (0xF900, 0xFDCF), (0xFDF0, 0xFFFD),
    (0x10000, 0xEFFFF)]

/-- The production `NameChar`, without the colon. -/
def isNameChar (c : Char) : Bool :=
  isNameStart c ||
    inRanges [(0x2D, 0x2E), (0x30, 0x39), (0xB7, 0xB7), (0x300, 0x36F), (0x203F, 0x2040)] c

/-- The production `NCName`. -/
def isNCName : Str → Bool
  | [] => false
  | c :: cs => isNameStart c && cs.all isNameChar

/-- The production `QName`. -/
def QName.IsName (q : QName) : Prop :=
  (q.pre = [] ∨ isNCName q.pre = true) ∧ isNCName q.loc = true

instance (q : QName) : Decidable q.IsName := inferInstanceAs (Decidable (_ ∧ _))

/-- A name that an element or an attribute can have: its prefix is not `xmlns`. -/
def QName.Ok (q : QName) : Prop := q.IsName ∧ q.pre ≠ xmlnsPre

instance (q : QName) : Decidable q.Ok := inferInstanceAs (Decidable (_ ∧ _))

/-- Text of legal characters. -/
def AllChars (s : Str) : Prop := ∀ c ∈ s, isChar c = true

instance (s : Str) : Decidable (AllChars s) :=
  decidable_of_iff (s.all isChar = true) List.all_eq_true

/-! ## Start tags -/

/-- A namespace declaration: the prefixes `xml` and `xmlns` and their namespaces are
    reserved, and only the default namespace can be undeclared. -/
def DeclOk (d : Str × Str) : Prop :=
  (d.1 = [] ∨ (isNCName d.1 = true ∧ d.1 ≠ xmlPre ∧ d.1 ≠ xmlnsPre ∧ d.2 ≠ [])) ∧
    d.2 ≠ xmlNs ∧ d.2 ≠ xmlnsNs ∧ AllChars d.2

instance (d : Str × Str) : Decidable (DeclOk d) := inferInstanceAs (Decidable (_ ∧ _))

/-- A name whose prefix, if it has one, is bound. -/
def Bound (chain : List Tree) (q : QName) : Prop := q.pre = [] ∨ (resolve chain q.pre).isSome

instance (chain : List Tree) (q : QName) : Decidable (Bound chain q) :=
  inferInstanceAs (Decidable (_ ∨ _))

/-- An attribute that is not a declaration, with a bound prefix and a legal value. -/
def AttrOk (chain : List Tree) (a : Attr) : Prop :=
  a.name.Ok ∧ ¬ (a.name.pre = [] ∧ a.name.loc = xmlnsPre) ∧ Bound chain a.name ∧
    AllChars a.value

instance (chain : List Tree) (a : Attr) : Decidable (AttrOk chain a) :=
  inferInstanceAs (Decidable (_ ∧ _))

/-- The expanded name of an attribute. -/
def expandedName (chain : List Tree) (a : Attr) : Option Str × Str :=
  (resolveAttr chain a.name.pre, a.name.loc)

/-- What namespace well-formedness asks of a start tag; `chain` is the element and its
    ancestors. -/
structure StartTagOk (chain : List Tree) (q : QName) (ds : List (Str × Str))
    (as : List Attr) : Prop where
  name : q.Ok
  bound : Bound chain q
  decls : ∀ d ∈ ds, DeclOk d
  declsNodup : (ds.map Prod.fst).Nodup
  attrs : ∀ a ∈ as, AttrOk chain a
  attrsNodup : (as.map (expandedName chain)).Nodup

instance (chain : List Tree) (q : QName) (ds : List (Str × Str)) (as : List Attr) :
    Decidable (StartTagOk chain q ds as) :=
  decidable_of_iff (q.Ok ∧ Bound chain q ∧ (∀ d ∈ ds, DeclOk d) ∧ (ds.map Prod.fst).Nodup ∧
      (∀ a ∈ as, AttrOk chain a) ∧ (as.map (expandedName chain)).Nodup)
    ⟨fun h => ⟨h.1, h.2.1, h.2.2.1, h.2.2.2.1, h.2.2.2.2.1, h.2.2.2.2.2⟩,
      fun h => ⟨h.name, h.bound, h.decls, h.declsNodup, h.attrs, h.attrsNodup⟩⟩

/-! ## Comments and processing instructions -/

/-- A comment holds no `--` and does not end in `-`. -/
def CommentOk (s : Str) : Prop :=
  AllChars s ∧ ¬ ['-', '-'] <:+: s ∧ s.getLast? ≠ some '-'

instance (s : Str) : Decidable (CommentOk s) := inferInstanceAs (Decidable (_ ∧ _))

/-- The data of a processing instruction starts after the white space that ends the
    target and holds no `?>`. -/
def PiDataOk (d : Str) : Prop :=
  AllChars d ∧ ¬ ['?', '>'] <:+: d ∧ d.head?.any isSpace = false

instance (d : Str) : Decidable (PiDataOk d) := inferInstanceAs (Decidable (_ ∧ _))

/-- A processing instruction; the target `xml` is reserved in any case. -/
def PiOk (target : Str) (data : Option Str) : Prop :=
  isNCName target = true ∧ target.map Char.toLower ≠ xmlPre ∧ ∀ d ∈ data, PiDataOk d

instance (target : Str) (data : Option Str) : Decidable (PiOk target data) :=
  inferInstanceAs (Decidable (_ ∧ _))

/-! ## Trees -/

mutual

/-- A well-formed node of element content, below the trees `up`. -/
def WellFormed (up : List Tree) : Tree → Prop
  | .root _ => False
  | .element q ds as cs =>
    StartTagOk (.element q ds as cs :: up) q ds as ∧
      WellFormedList (.element q ds as cs :: up) cs
  | .text s => AllChars s
  | .comment s => CommentOk s
  | .pi target data => PiOk target data

/-- Well-formed element content. -/
def WellFormedList (up : List Tree) : List Tree → Prop
  | [] => True
  | t :: ts => WellFormed up t ∧ WellFormedList up ts

end

mutual

/-- Well-formedness is decided by recursion over the tree. -/
def decWellFormed (up : List Tree) : (t : Tree) → Decidable (WellFormed up t)
  | .root _ => .isFalse (by simp [WellFormed])
  | .element q ds as cs =>
    match (inferInstance : Decidable (StartTagOk (.element q ds as cs :: up) q ds as)),
        decWellFormedList (.element q ds as cs :: up) cs with
    | .isTrue h, .isTrue hs => .isTrue (by rw [WellFormed]; exact ⟨h, hs⟩)
    | .isFalse h, _ => .isFalse (by rw [WellFormed]; exact fun hc => h hc.1)
    | _, .isFalse hs => .isFalse (by rw [WellFormed]; exact fun hc => hs hc.2)
  | .text s => decidable_of_iff (AllChars s) (by rw [WellFormed])
  | .comment s => decidable_of_iff (CommentOk s) (by rw [WellFormed])
  | .pi target data => decidable_of_iff (PiOk target data) (by rw [WellFormed])

/-- `decWellFormed` over a list of children. -/
def decWellFormedList (up : List Tree) : (ts : List Tree) → Decidable (WellFormedList up ts)
  | [] => .isTrue (by simp [WellFormedList])
  | t :: ts =>
    match decWellFormed up t, decWellFormedList up ts with
    | .isTrue h, .isTrue hs => .isTrue (by rw [WellFormedList]; exact ⟨h, hs⟩)
    | .isFalse h, _ => .isFalse (by rw [WellFormedList]; exact fun hc => h hc.1)
    | _, .isFalse hs => .isFalse (by rw [WellFormedList]; exact fun hc => hs hc.2)

end

instance (up : List Tree) (t : Tree) : Decidable (WellFormed up t) := decWellFormed up t

/-- The declarations of every tree of a chain are well-formed. -/
def ScopeOk (chain : List Tree) : Prop :=
  ∀ t ∈ chain, (∀ d ∈ t.decls, DeclOk d) ∧ (t.decls.map Prod.fst).Nodup

instance (chain : List Tree) : Decidable (ScopeOk chain) :=
  inferInstanceAs (Decidable (∀ t ∈ chain, _))

/-- A document: one element, among comments and processing instructions. -/
structure DocumentOk (cs : List Tree) : Prop where
  noText : ∀ t ∈ cs, t.isText = false
  oneElement : (cs.filter Tree.isElement).length = 1
  content : WellFormedList [.root cs] cs

instance (cs : List Tree) : Decidable (DocumentOk cs) :=
  have : Decidable (WellFormedList [.root cs] cs) := decWellFormedList _ cs
  decidable_of_iff ((∀ t ∈ cs, t.isText = false) ∧ (cs.filter Tree.isElement).length = 1 ∧
      WellFormedList [.root cs] cs)
    ⟨fun h => ⟨h.1, h.2.1, h.2.2⟩, fun h => ⟨h.noText, h.oneElement, h.content⟩⟩

/-- A parsed document. -/
structure Document where
  children : List Tree
  ok : DocumentOk children

namespace Document

/-- The document node. -/
def root (doc : Document) : Node := ⟨.root doc.children, [], []⟩

/-- Every node of the document, in document order. -/
def descendants (doc : Document) : List Node := doc.root.descendants

/-- The document's element. There is one (`DocumentOk.oneElement`), so the default is never
    taken. -/
def rootElement (doc : Document) : Node := (doc.root.children.find? Node.isElement).getD doc.root

end Document

end Xml
