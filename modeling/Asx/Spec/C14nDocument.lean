import Asx.Native.C14n

/-!
# Whole-document canonicalization

The module `canonicalize.rs` holds two serializers of a document node: the `Root` branch
of `serialize_subtree`, which production code uses, and `serialize_root_node`, which the
conformance tests use. They are compared here on every document: the first writes the
children one after the other, the second sets processing instructions and comments off
from the document element by a line feed each.

## Main results
- `serializeSubtree_eq_none_iff`: serialization fails exactly beyond the depth bound
- `root_serializers_agree_iff`: when the two serializers agree
-/

namespace Xml

mutual

/-- The nesting depth of elements: of a leaf 0, of an element with no element below 1. -/
def Tree.elementDepth : Tree → Nat
  | .root cs => elementDepthList cs
  | .element _ _ _ cs => elementDepthList cs + 1
  | _ => 0

/-- The greatest nesting depth among a list of trees. -/
def elementDepthList : List Tree → Nat
  | [] => 0
  | t :: ts => max t.elementDepth (elementDepthList ts)

end

end Xml

namespace Asx

open Xml

/-! ## The depth bound -/

/-- Without an omitted node, serialization fails exactly when the tree nests too deep. -/
theorem serializeSubtree_eq_none_iff (profile : WsSecCanonicalizationProfile)
    (override : Option (List Str)) :
    (∀ (t : Tree) (parentNs : NsMap) (depth : Nat) (up : List Tree) (path : List Nat),
      depth ≤ maxC14nDepth →
      (serializeSubtree profile override none parentNs depth up path t = none ↔
        maxC14nDepth < depth + t.elementDepth)) ∧
    (∀ (ts : List Tree) (parentNs : NsMap) (depth : Nat) (up : List Tree) (path : List Nat)
      (i : Nat), depth ≤ maxC14nDepth →
      (serializeChildren profile override none parentNs depth up path i ts = none ↔
        maxC14nDepth < depth + elementDepthList ts)) := by
  apply Tree.induction
  case root =>
    intro cs ih parentNs depth up path hd
    rw [serializeSubtree, if_neg (by simp), ih _ _ _ _ _ hd, Tree.elementDepth]
  case element =>
    intro q ds as cs ih parentNs depth up path hd
    rw [serializeSubtree, if_neg (by simp), Tree.elementDepth]
    by_cases hge : depth ≥ maxC14nDepth
    · rw [if_pos hge]
      simp only [true_iff]
      omega
    · rw [if_neg hge]
      simp only [Option.map_eq_none_iff]
      rw [ih _ _ _ _ _ (by omega)]
      omega
  case text =>
    intro s parentNs depth up path hd
    simp only [serializeSubtree, Tree.elementDepth]
    simp [hd]
  case comment =>
    intro s parentNs depth up path hd
    simp only [serializeSubtree, Tree.elementDepth]
    simp [hd]
  case pi =>
    intro target data parentNs depth up path hd
    simp only [serializeSubtree, Tree.elementDepth]
    simp [hd]
  case nil =>
    intro parentNs depth up path i hd
    simp [serializeChildren, elementDepthList, hd]
  case cons =>
    intro t ts iht ihts parentNs depth up path i hd
    have hmax : maxC14nDepth < depth + elementDepthList (t :: ts) ↔
        maxC14nDepth < depth + t.elementDepth ∨ maxC14nDepth < depth + elementDepthList ts := by
      rw [elementDepthList]
      omega
    rw [hmax, ← iht parentNs depth up (i :: path) hd, ← ihts parentNs depth up path (i + 1) hd,
      serializeChildren]
    cases serializeSubtree profile override none parentNs depth up (i :: path) t with
    | none => simp
    | some s => simp

/-! ## Top-level nodes -/

/-- A processing instruction, or a comment that is written. -/
def rendersAround (profile : WsSecCanonicalizationProfile) : Tree → Bool
  | .pi _ _ => true
  | .comment _ => profile.includeComments
  | _ => false

/-- A node that can stand at the top level of a document. -/
def topLevelOk : Tree → Bool
  | .root _ => false
  | .text _ => false
  | _ => true

section TopLevel

variable {profile : WsSecCanonicalizationProfile} {up : List Tree} {docElemIdx : Option Nat}

/-- Where nothing is set off, the two serializers write the same. -/
theorem serializeTopLevel_of_not_rendersAround {i : Nat} {t : Tree} (hok : topLevelOk t = true)
    (hr : rendersAround profile t = false) :
    serializeTopLevel profile docElemIdx i ⟨t, up, [i]⟩ =
      serializeSubtree profile none none .empty 0 up [i] t := by
  cases t with
  | root cs => simp [topLevelOk] at hok
  | text s => simp [topLevelOk] at hok
  | element q ds as cs => rfl
  | pi target data => simp [rendersAround] at hr
  | comment s =>
    have hc : profile.includeComments = false := hr
    simp [serializeTopLevel, serializeSubtree, writeComment, hc]

/-- A node that is set off is one line feed longer. -/
theorem serializeTopLevel_of_rendersAround {i d : Nat} {t : Tree} (hne : i ≠ d)
    (hr : rendersAround profile t = true) :
    (serializeTopLevel profile (some d) i ⟨t, up, [i]⟩).map List.length =
      (serializeSubtree profile none none .empty 0 up [i] t).map fun s => s.length + 1 := by
  have hside : (if (some d).any (· < i) then ['\n'] else []).length +
      (if (some d).any (i < ·) then ['\n'] else []).length = 1 := by
    rcases Nat.lt_or_gt_of_ne hne with h | h
    · simp [h, Nat.not_lt_of_lt h]
    · simp [h, Nat.not_lt_of_lt h]
  cases t with
  | root cs => simp [rendersAround] at hr
  | text s => simp [rendersAround] at hr
  | element q ds as cs => simp [rendersAround] at hr
  | pi target data =>
    rw [serializeSubtree, if_neg (by simp)]
    simp only [serializeTopLevel, Option.map_some, List.length_append, Option.some.injEq]
    omega
  | comment s =>
    have hc : profile.includeComments = true := hr
    rw [serializeSubtree, if_neg (by simp)]
    simp only [serializeTopLevel, writeComment, if_pos hc, Option.map_some, List.length_append,
      Option.some.injEq]
    omega

private theorem mapIdx_node_cons (t : Tree) (ts : List Tree) (i : Nat) :
    ((t :: ts).mapIdx fun j t => (⟨t, up, [i + j]⟩ : Node)) =
      ⟨t, up, [i]⟩ :: ts.mapIdx fun j t => ⟨t, up, [i + 1 + j]⟩ := by
  have hshift : (fun j (t : Tree) => (⟨t, up, [i + (j + 1)]⟩ : Node)) =
      fun j t => ⟨t, up, [i + 1 + j]⟩ := by
    funext j t
    rw [show i + (j + 1) = i + 1 + j from by omega]
  rw [List.mapIdx_cons, hshift]
  rfl

/-- Where nothing is set off, the loops write the same. -/
theorem serializeTopLevels_of_not_rendersAround (ts : List Tree) (i : Nat)
    (hok : ∀ t ∈ ts, topLevelOk t = true) (hr : ∀ t ∈ ts, rendersAround profile t = false) :
    serializeTopLevels profile docElemIdx i (ts.mapIdx fun j t => ⟨t, up, [i + j]⟩) =
      serializeChildren profile none none .empty 0 up [] i ts := by
  induction ts generalizing i with
  | nil => simp [serializeTopLevels, serializeChildren]
  | cons t ts ih =>
    rw [mapIdx_node_cons, serializeTopLevels, serializeChildren]
    rw [serializeTopLevel_of_not_rendersAround (hok t List.mem_cons_self)
        (hr t List.mem_cons_self),
      ih (i + 1) (fun t ht => hok t (List.mem_cons_of_mem _ ht))
        (fun t ht => hr t (List.mem_cons_of_mem _ ht))]

/-- The loops fail together, and otherwise differ by one line feed for each node that is
    set off. -/
theorem serializeTopLevels_length (ts : List Tree) (i d : Nat)
    (hok : ∀ t ∈ ts, topLevelOk t = true)
    (hne : ∀ j t, ts[j]? = some t → rendersAround profile t = true → i + j ≠ d) :
    (serializeTopLevels profile (some d) i (ts.mapIdx fun j t => ⟨t, up, [i + j]⟩)).map
        List.length =
      (serializeChildren profile none none .empty 0 up [] i ts).map fun s =>
        s.length + ts.countP (rendersAround profile) := by
  induction ts generalizing i with
  | nil => simp [serializeTopLevels, serializeChildren]
  | cons t ts ih =>
    have ih' := ih (i + 1) (fun t ht => hok t (List.mem_cons_of_mem _ ht))
      (fun j t hj hr => by have := hne (j + 1) t (by simpa using hj) hr; omega)
    have hhead : (serializeTopLevel profile (some d) i ⟨t, up, [i]⟩).map List.length =
        (serializeSubtree profile none none .empty 0 up [i] t).map fun s =>
          s.length + if rendersAround profile t then 1 else 0 := by
      cases hr : rendersAround profile t with
      | false => rw [serializeTopLevel_of_not_rendersAround (hok t List.mem_cons_self) hr]; rfl
      | true => exact serializeTopLevel_of_rendersAround (hne 0 t rfl hr) hr
    rw [mapIdx_node_cons, serializeTopLevels, serializeChildren]
    -- both sides fail at the same child, or both go on
    cases hs : serializeSubtree profile none none .empty 0 up [i] t with
    | none =>
      rw [hs] at hhead
      simp [Option.map_eq_none_iff.mp hhead]
    | some s =>
      rw [hs] at hhead
      obtain ⟨s', hs', hlen⟩ := Option.map_eq_some_iff.mp hhead
      rw [hs']
      simp only [Option.map_map]
      cases hc : serializeChildren profile none none .empty 0 up [] (i + 1) ts with
      | none =>
        rw [hc] at ih'
        simp [Option.map_eq_none_iff.mp ih']
      | some content =>
        rw [hc] at ih'
        obtain ⟨content', hc', hlen'⟩ := Option.map_eq_some_iff.mp ih'
        simp only [hc', Option.map_some, Function.comp_apply, List.length_append,
          List.countP_cons, hlen, hlen', Option.some.injEq]
        omega

end TopLevel

/-! ## Documents -/

private theorem wellFormed_of_mem {up : List Tree} {ts : List Tree} (h : WellFormedList up ts) :
    ∀ t ∈ ts, WellFormed up t := by
  induction ts with
  | nil => simp
  | cons t ts ih =>
    rw [WellFormedList] at h
    intro t' ht'
    rcases List.mem_cons.mp ht' with rfl | ht'
    · exact h.1
    · exact ih h.2 t' ht'

/-- The children of a document node are elements, comments and processing instructions. -/
theorem topLevelOk_of_mem_children (doc : Document) : ∀ t ∈ doc.children, topLevelOk t = true := by
  intro t ht
  have htext := doc.ok.noText t ht
  have hwf := wellFormed_of_mem doc.ok.content t ht
  cases t with
  | root cs => simp [WellFormed] at hwf
  | text s => simp [Tree.isText] at htext
  | element | comment | pi => rfl

/-- The document element is found, and nothing is set off at its position. -/
theorem findIdx?_documentElement (doc : Document) :
    ∃ d, doc.root.children.findIdx? Node.isElement = some d ∧
      ∀ (profile : WsSecCanonicalizationProfile) (j : Nat) (t : Tree),
        doc.children[j]? = some t → rendersAround profile t = true → 0 + j ≠ d := by
  have hpos : 0 < (doc.children.filter Tree.isElement).length := by
    rw [doc.ok.oneElement]
    exact Nat.one_pos
  obtain ⟨e, he⟩ := List.exists_mem_of_length_pos hpos
  obtain ⟨hmem, helem⟩ := List.mem_filter.mp he
  obtain ⟨k, hk⟩ := List.mem_iff_getElem?.mp hmem
  have hsome : (doc.root.children.findIdx? Node.isElement).isSome := by
    rw [List.findIdx?_isSome, List.any_eq_true]
    refine ⟨⟨e, doc.root.chain, [k]⟩, ?_, helem⟩
    rw [List.mem_iff_getElem?]
    refine ⟨k, ?_⟩
    simp only [Node.children, List.getElem?_mapIdx]
    rw [show doc.root.tree.children[k]? = some e from hk]
    rfl
  obtain ⟨d, hd⟩ := Option.isSome_iff_exists.mp hsome
  refine ⟨d, hd, ?_⟩
  rintro profile j t hj hr rfl
  obtain ⟨hlt, helem', _⟩ := List.findIdx?_eq_some_iff_getElem.mp hd
  -- the node found is an element, and elements are not set off
  have hget : doc.root.children[0 + j]? = some ⟨t, doc.root.chain, [0 + j]⟩ := by
    simp only [Node.children, List.getElem?_mapIdx]
    rw [Nat.zero_add, show doc.root.tree.children[j]? = some t from hj]
    rfl
  rw [List.getElem?_eq_getElem hlt, Option.some.injEq] at hget
  rw [hget] at helem'
  cases t with
  | element q ds as cs => simp [rendersAround] at hr
  | root | text | comment | pi => simp [Node.isElement, Tree.isElement] at helem'

/-- The `Root` branch of `serialize_subtree` agrees with `serialize_root_node` on a
    document exactly when no processing instruction and no written comment stands beside
    the document element, or both fail because the elements nest too deep. -/
theorem root_serializers_agree_iff (profile : WsSecCanonicalizationProfile) (doc : Document) :
    trySerializeNode profile doc.root = serializeRootNode profile doc ↔
      maxC14nDepth < doc.root.tree.elementDepth ∨
        ∀ t ∈ doc.children, rendersAround profile t = false := by
  have hroot : trySerializeNode profile doc.root =
      serializeChildren profile none none .empty 0 [.root doc.children] [] 0 doc.children := by
    show serializeSubtree profile none none .empty 0 [] [] (.root doc.children) = _
    rw [serializeSubtree, if_neg (by simp)]
  have hchildren : doc.root.children =
      doc.children.mapIdx fun j t => ⟨t, [.root doc.children], [0 + j]⟩ := by
    simp only [Nat.zero_add]
    rfl
  have hnone := (serializeSubtree_eq_none_iff profile none).1 doc.root.tree .empty 0 [] []
    (Nat.zero_le _)
  rw [Nat.zero_add] at hnone
  change trySerializeNode profile doc.root = none ↔ _ at hnone
  obtain ⟨d, hd, hne⟩ := findIdx?_documentElement doc
  have hlen := @serializeTopLevels_length profile [.root doc.children] doc.children 0 d
    (topLevelOk_of_mem_children doc) (hne profile)
  rw [← hchildren, ← hd, ← hroot] at hlen
  change (serializeRootNode profile doc).map List.length = _ at hlen
  constructor
  · intro heq
    rw [← heq] at hlen
    cases hs : trySerializeNode profile doc.root with
    | none => exact .inl (hnone.mp hs)
    | some s =>
      rw [hs] at hlen
      simp only [Option.map_some, Option.some.injEq] at hlen
      have hcount : doc.children.countP (rendersAround profile) = 0 := by omega
      exact .inr fun t ht => by simpa using List.countP_eq_zero.mp hcount t ht
  · rintro (hdeep | hnothing)
    · have hs := hnone.mpr hdeep
      rw [hs] at hlen ⊢
      exact (Option.map_eq_none_iff.mp hlen).symm
    · rw [hroot, serializeRootNode, hchildren]
      exact (serializeTopLevels_of_not_rendersAround doc.children 0
        (topLevelOk_of_mem_children doc) hnothing).symm

/-- The document `<?p?><r></r>`. -/
def instructedDocument : Document where
  children := [.pi ['p'] none, .element ⟨[], ['r']⟩ [] [] []]
  ok := by decide

/-- A processing instruction in front of the root element tells the serializers apart. -/
theorem root_serializers_disagree_instruction :
    trySerializeNode .exclusive instructedDocument.root ≠
      serializeRootNode .exclusive instructedDocument := by
  decide

end Asx
