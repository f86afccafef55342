import Mathlib.Data.Multiset.MapFold
import Asx.Xml.Parse

/-!
# The information a tree carries

`infoset` forgets what XML regards as a matter of writing: the order of attributes, where
namespaces are declared, comments, and how character data is split into text nodes. It
keeps prefixes, expanded names, attribute values, processing instructions and text.
-/

namespace Xml

/-- An attribute: prefix, namespace, local name and value. -/
structure AttrInfo where
  pre : Str
  ns : Option Str
  loc : Str
  value : Str
deriving DecidableEq

/-- A node of the infoset. Attributes are unordered. -/
inductive Info where
  | element (pre : Str) (ns : Option Str) (loc : Str) (attrs : Multiset AttrInfo)
      (children : List Info)
  | text (s : Str)
  | pi (target data : Str)

/-- The information of an attribute of the element at the head of `chain`. -/
def attrInfo (chain : List Tree) (a : Attr) : AttrInfo :=
  ⟨a.name.pre, resolveAttr chain a.name.pre, a.name.loc, a.value⟩

/-- Put an information item in front of others; text absorbs the text it touches. -/
def consInfo : Info → List Info → List Info
  | .text s, .text s' :: is => .text (s ++ s') :: is
  | .text [], is => is
  | i, is => i :: is

mutual

/-- The information items of a node, with prefixes read by `pre`. -/
def infosetWith (pre : QName → Str) (up : List Tree) : Tree → List Info
  | .root cs => infosetWithList pre (.root cs :: up) cs
  | .element q ds as cs =>
    let chain := .element q ds as cs :: up
    [.element (pre q) (resolve chain q.pre) q.loc (as.map (attrInfo chain))
      (infosetWithList pre chain cs)]
  | .text s => [.text s]
  | .comment _ => []
  | .pi target data => [.pi target (data.getD [])]

/-- The information items of a list of nodes, with touching text merged. -/
def infosetWithList (pre : QName → Str) (up : List Tree) : List Tree → List Info
  | [] => []
  | t :: ts => (infosetWith pre up t).foldr consInfo (infosetWithList pre up ts)

end

/-- The infoset of a node below the trees `up`. -/
def infoset (up : List Tree) (t : Tree) : List Info := infosetWith QName.pre up t

/-! ## Merging text -/

theorem consInfo_text_nil (is : List Info) : consInfo (.text []) is = is := by
  cases is with
  | nil => rfl
  | cons i is => cases i <;> rfl

theorem consInfo_text_append (s s' : Str) (is : List Info) :
    consInfo (.text s) (consInfo (.text s') is) = consInfo (.text (s ++ s')) is := by
  cases is with
  | nil => cases s <;> cases s' <;> simp [consInfo]
  | cons i is =>
    cases i with
    | text s'' => simp [consInfo]
    | element pre ns loc attrs children => cases s <;> cases s' <;> simp [consInfo]
    | pi target data => cases s <;> cases s' <;> simp [consInfo]

/-- Merging the text nodes of a tree merges the text of its infoset. -/
theorem infosetWithList_consNode (pre : QName → Str) (up : List Tree) (t : Tree)
    (ts : List Tree) :
    infosetWithList pre up (consNode t ts) =
      (infosetWith pre up t).foldr consInfo (infosetWithList pre up ts) := by
  unfold consNode
  split
  · simp [infosetWithList, infosetWith, consInfo_text_append]
  · -- empty text leaves no trace
    simp [infosetWith, consInfo_text_nil]
  · rfl

theorem infosetWithList_foldr (pre : QName → Str) (up : List Tree) (l ts : List Tree) :
    infosetWithList pre up (l.foldr consNode ts) =
      (l.flatMap (infosetWith pre up)).foldr consInfo (infosetWithList pre up ts) := by
  induction l with
  | nil => rfl
  | cons t l ih =>
    rw [List.foldr_cons, infosetWithList_consNode, ih, List.flatMap_cons, List.foldr_append]

end Xml
