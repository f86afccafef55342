import Asx.Xml.RoundTrip
import Asx.Spec.C14nRender

/-!
# The canonical form as a tree

The serializer of `Native/C14n.lean` writes text. Here its output is described as the
printed form of a tree: the elements with the declarations that were emitted and their
attributes in canonical order, comments dropped unless they are included, and the text
around them merged. The description is what the round trip of `Xml/RoundTrip.lean`
applies to.

## Key results
- `textEscape`, `attrEscape`: the two escapers are sound
- `serializeSubtree_eq`: serializing a node prints its canonical nodes, and fails exactly
  when elements nest deeper than the bound
-/

namespace Asx

open Xml

/-! ## The escapers -/

/-- `escape_text` is sound: the parser gives the character back. -/
def textEscape : TextEscape where
  esc := escapeTextChar
  decodes := by
    intro c s hc
    have hlt : reference ['l', 't'] = some '<' := rfl
    have hgt : reference ['g', 't'] = some '>' := rfl
    have hamp : reference ['a', 'm', 'p'] = some '&' := rfl
    have hcr : reference ['#', 'x', 'D'] = some '\r' := by decide +kernel
    simp only [escapeTextChar]
    split <;> simp_all [unescape]
  safe := by
    intro c d hd
    simp only [escapeTextChar] at hd
    split at hd <;> grind
  nonempty := by
    intro c
    simp only [escapeTextChar]
    split <;> simp

/-- `escape_attr_value` is sound; literal white space is never left to normalization. -/
def attrEscape : AttrEscape where
  esc := escapeAttrChar
  decodes := by
    intro c s hc
    have hlt : reference ['l', 't'] = some '<' := rfl
    have hamp : reference ['a', 'm', 'p'] = some '&' := rfl
    have hquot : reference ['q', 'u', 'o', 't'] = some '"' := rfl
    have htab : reference ['#', 'x', '9'] = some '\t' := by decide +kernel
    have hlf : reference ['#', 'x', 'A'] = some '\n' := by decide +kernel
    have hcr : reference ['#', 'x', 'D'] = some '\r' := by decide +kernel
    have hnorm : c ≠ '\t' → c ≠ '\n' → c ≠ '\r' → attrNorm c = c := by
      intro htab hlf hcr
      by_cases hsp : c = ' '
      · rw [hsp]
        rfl
      · simp [attrNorm, isSpace, htab, hlf, hcr, hsp]
    simp only [escapeAttrChar]
    split <;> simp_all [unescape]
  safe := by
    intro c d hd
    simp only [escapeAttrChar] at hd
    split at hd <;> grind
  nonempty := by
    intro c
    simp only [escapeAttrChar]
    split <;> simp

/-! ## Canonical nodes -/

/-- Attributes in canonical order. -/
def canonAttrs (chain : List Tree) (as : List Attr) : List Attr :=
  as.insertionSort fun a b => (attrRow chain a).le (attrRow chain b)

mutual

/-- The nodes that serializing a node writes, `parentNs` being the rendered context. -/
def canonNodes (profile : WsSecCanonicalizationProfile) (override : Option (List Str))
    (parentNs : NsMap) (up : List Tree) : Tree → List Tree
  | .element q ds as cs =>
    let chain := .element q ds as cs :: up
    let emitted := nsEmitted parentNs (utilizedNamespaces profile override chain q as)
    [.element ⟨elementSourcePrefix q, q.loc⟩ emitted (canonAttrs chain as)
      (canonNodesList profile override (parentNs.extend emitted) chain cs)]
  | .text s => [.text s]
  | .comment s => if profile.includeComments then [.comment s] else []
  | .pi target data => [.pi target (data.filter (· ≠ []))]
  | .root cs => canonNodesList profile override parentNs (.root cs :: up) cs

/-- The nodes that serializing a list of children writes, with touching text merged. -/
def canonNodesList (profile : WsSecCanonicalizationProfile) (override : Option (List Str))
    (parentNs : NsMap) (up : List Tree) : List Tree → List Tree
  | [] => []
  | t :: ts =>
    (canonNodes profile override parentNs up t).foldr consNode
      (canonNodesList profile override parentNs up ts)

end

mutual

/-- How deep elements nest in a tree. -/
def elementHeight : Tree → Nat
  | .element _ _ _ cs => elementHeightList cs + 1
  | .root cs => elementHeightList cs
  | _ => 0

/-- How deep elements nest in a list of trees. -/
def elementHeightList : List Tree → Nat
  | [] => 0
  | t :: ts => max (elementHeight t) (elementHeightList ts)

end

/-- No `xml:*` attributes are inherited at this depth: the profile is exclusive, the
    element is not the apex, or its ancestors carry no attributes. -/
def NoInherited (profile : WsSecCanonicalizationProfile) (depth : Nat) (up : List Tree) : Prop :=
  profile.kind = .exclusive ∨ depth ≠ 0 ∨ ∀ t ∈ up, t.attrs = []

/-! ## Serializing prints the canonical nodes -/

theorem writeList_consNode (t : Tree) (ts : List Tree) :
    writeList textEscape attrEscape (consNode t ts) =
      write textEscape attrEscape t ++ writeList textEscape attrEscape ts := by
  unfold consNode
  split <;> simp [writeList, write]

private theorem writeList_foldr_consNode (l ts : List Tree) :
    writeList textEscape attrEscape (l.foldr consNode ts) =
      writeList textEscape attrEscape l ++ writeList textEscape attrEscape ts := by
  induction l with
  | nil => simp [writeList]
  | cons t l ih => rw [List.foldr_cons, writeList_consNode, ih, writeList, List.append_assoc]

private theorem inheritedXmlAttributes_nil {own : List AttrRow} {up : List Tree}
    (h : ∀ t ∈ up, t.attrs = []) (acc : List AttrRow) : inheritedXmlAttributes own up acc = acc := by
  induction up generalizing acc with
  | nil => rfl
  | cons t up ih =>
    rw [inheritedXmlAttributes, h t List.mem_cons_self, inheritFrom, List.foldl_nil]
    exact ih (fun u hu => h u (List.mem_cons_of_mem _ hu)) acc

private theorem attrRows_eq {profile : WsSecCanonicalizationProfile} {depth : Nat} {t : Tree}
    {up : List Tree} (h : NoInherited profile depth up) (as : List Attr) :
    attrRows profile (t :: up) as (depth == 0) = (canonAttrs (t :: up) as).map (attrRow (t :: up)) := by
  have hrows : attrRows profile (t :: up) as (depth == 0) =
      (as.map (attrRow (t :: up))).insertionSort AttrRow.le := by
    simp only [attrRows, List.tail_cons]
    split
    · rename_i hap
      have hup : ∀ u ∈ up, u.attrs = [] := by
        obtain hk | hd | hup := h
        · rw [hk] at hap
          cases hap.2
        · exact absurd (by simpa using hap.1) hd
        · exact hup
      rw [inheritedXmlAttributes_nil hup, List.append_nil]
    · rfl
  rw [hrows, canonAttrs]
  exact (List.map_insertionSort _ _ (attrRow (t :: up)) as fun _ _ _ _ => Iff.rfl).symm

/-- A declaration is written as the attribute it is. -/
theorem writeDecl_eq (b : Str × Str) :
    writeDecl b = Xml.writeAttr attrEscape (declAttr b) := by
  obtain ⟨p, u⟩ := b
  by_cases hp : p = []
  · simp [writeDecl, Xml.writeAttr, declAttr, hp, qnameText, xmlnsPre, escapeAttrValue, attrEscape]
  · simp [writeDecl, Xml.writeAttr, declAttr, hp, qnameText, xmlnsPre, escapeAttrValue, attrEscape]

private theorem writeAttr_eq (chain : List Tree) {a : Attr} (h : ':' ∉ a.name.loc) :
    writeAttr (attrRow chain a) = Xml.writeAttr attrEscape a := by
  simp [writeAttr, attrRow, Xml.writeAttr, attributeSourcePrefix_eq_pre h, escapeAttrValue, attrEscape]

/-- Elements that nest to this height stay above the depth bound. -/
def Fits (depth height : Nat) : Prop := height = 0 ∨ depth + height ≤ maxC14nDepth

instance (depth height : Nat) : Decidable (Fits depth height) := inferInstanceAs (Decidable (_ ∨ _))

section

variable {profile : WsSecCanonicalizationProfile} {override : Option (List Str)}

/-- The start tag as written, in terms of the canonical element. -/
private theorem writeStartTag_eq {depth : Nat} {parentNs : NsMap} {up : List Tree} {q : QName}
    {ds : List (Str × Str)} {as : List Attr} {cs : List Tree}
    (hin : NoInherited profile depth up)
    (htag : StartTagOk (.element q ds as cs :: up) q ds as) :
    (writeStartTag profile override parentNs (depth == 0) (.element q ds as cs :: up) q as).2.2 =
      '<' :: qnameText (elementSourcePrefix q) q.loc ++
        ((nsEmitted parentNs (utilizedNamespaces profile override (.element q ds as cs :: up) q as)).map
          declAttr ++ canonAttrs (.element q ds as cs :: up) as).flatMap (Xml.writeAttr attrEscape) ++
        ['>'] := by
  have hdecls : ∀ l : List (Str × Str), l.flatMap writeDecl =
      (l.map declAttr).flatMap (Xml.writeAttr attrEscape) := by
    intro l
    rw [List.flatMap_map]
    exact congrArg (l.flatMap ·) (funext writeDecl_eq)
  have hrows : ((canonAttrs (.element q ds as cs :: up) as).map
      (attrRow (.element q ds as cs :: up))).flatMap writeAttr =
      (canonAttrs (.element q ds as cs :: up) as).flatMap (Xml.writeAttr attrEscape) := by
    rw [List.flatMap_map]
    refine List.flatMap_congr fun a ha => ?_
    have hmem : a ∈ as := (List.perm_insertionSort _ as).mem_iff.mp ha
    exact writeAttr_eq _ (colon_notMem_of_isNCName (htag.attrs a hmem).1.1.2)
  simp only [writeStartTag, attrRows_eq hin, hdecls, hrows, List.flatMap_append, List.cons_append,
    List.append_assoc]

/-- Serializing a node prints its canonical nodes; it fails exactly when elements nest
    deeper than the bound. -/
theorem serializeSubtree_eq :
    (∀ t : Tree, ∀ parentNs depth up path, WellFormed up t → NoInherited profile depth up →
      serializeSubtree profile override none parentNs depth up path t =
        if Fits depth (elementHeight t) then
          some (writeList textEscape attrEscape (canonNodes profile override parentNs up t))
        else none) ∧
    (∀ ts : List Tree, ∀ parentNs depth up path i, WellFormedList up ts →
      NoInherited profile depth up →
      serializeChildren profile override none parentNs depth up path i ts =
        if Fits depth (elementHeightList ts) then
          some (writeList textEscape attrEscape (canonNodesList profile override parentNs up ts))
        else none) := by
  refine Tree.induction ?_ ?_ ?_ ?_ ?_ ?_ ?_
  · -- root
    intro cs _ parentNs depth up path hwf
    exact absurd hwf (by simp [WellFormed])
  · -- element
    intro q ds as cs ih parentNs depth up path hwf hin
    rw [WellFormed] at hwf
    have hchildren := ih (parentNs.extend (nsEmitted parentNs
      (utilizedNamespaces profile override (.element q ds as cs :: up) q as))) (depth + 1)
      (.element q ds as cs :: up) path 0 hwf.2 (.inr (.inl (Nat.succ_ne_zero depth)))
    have hfits : Fits depth (elementHeightList cs + 1) ↔
        ¬ depth ≥ maxC14nDepth ∧ Fits (depth + 1) (elementHeightList cs) := by
      simp only [Fits]
      omega
    rw [serializeSubtree]
    simp only [reduceCtorEq, if_false, elementHeight, hfits]
    by_cases hdepth : depth ≥ maxC14nDepth
    · simp [hdepth]
    · by_cases hc : Fits (depth + 1) (elementHeightList cs)
      · simp only [hdepth, hc, if_false, if_true, not_false_eq_true, and_self] at hchildren ⊢
        rw [writeStartTag_eq hin hwf.1]
        simp only [writeStartTag, hchildren, Option.map_some, canonNodes, writeList, write,
          List.append_nil]
      · simp only [hdepth, hc, if_false, not_false_eq_true, and_false] at hchildren ⊢
        simp only [writeStartTag, hchildren, Option.map_none]
  · -- text
    intro s parentNs depth up path _ _
    simp [serializeSubtree, elementHeight, Fits, canonNodes, writeList, write, escapeText, textEscape]
  · -- comment
    intro s parentNs depth up path _ _
    simp only [serializeSubtree, reduceCtorEq, if_false, elementHeight, Fits, true_or, if_true,
      canonNodes, writeComment]
    split <;> simp [writeList, write]
  · -- processing instruction
    intro target data parentNs depth up path _ _
    simp only [serializeSubtree, reduceCtorEq, if_false, elementHeight, Fits, true_or, if_true,
      canonNodes, writePi, writeList, write, List.append_nil]
    cases data with
    | none => simp [writePiData]
    | some d =>
      by_cases hd : d = []
      · simp [hd, writePiData, Option.filter_some]
      · simp [hd, writePiData, Option.filter_some]
  · -- no child left
    intro parentNs depth up path i _ _
    simp [serializeChildren, elementHeightList, Fits, canonNodesList, writeList]
  · -- the first child and the rest
    intro t ts iht ihts parentNs depth up path i hwf hin
    rw [WellFormedList] at hwf
    have ht := iht parentNs depth up (i :: path) hwf.1 hin
    have hts := ihts parentNs depth up path (i + 1) hwf.2 hin
    have hfits : Fits depth (max (elementHeight t) (elementHeightList ts)) ↔
        Fits depth (elementHeight t) ∧ Fits depth (elementHeightList ts) := by
      simp only [Fits]
      omega
    simp only [serializeChildren, ht, hts, elementHeightList, hfits]
    by_cases h₁ : Fits depth (elementHeight t)
    · by_cases h₂ : Fits depth (elementHeightList ts)
      · simp [h₁, h₂, canonNodesList, writeList_foldr_consNode]
      · simp [h₁, h₂]
    · simp [h₁]

end

end Asx
