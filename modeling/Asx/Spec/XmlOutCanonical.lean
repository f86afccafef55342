import Asx.Spec.C14nDocument
import Asx.Spec.XmlOutTree

/-!
# The XML writer writes canonical XML

In the form of `XmlOut::canonical` the text of the writer is its own Exclusive C14N, when the
calls give namespaces and attributes in canonical order, use each declared prefix where they
declare it and never declare again what holds already. What is rendered by canonicalization and
what is in scope are then the same at every element.

## Key results
- `xmlOut_writes_what_it_was_told`: the text parses as what the calls describe, and is canonical
- `xmlOut_redeclaration_not_canonical`: a declaration that is repeated
-/

namespace Asx

open Xml

/-- Each declared prefix is used by the name of the element or of an attribute; declarations come
    first, by prefix, then attributes, by namespace and local name. -/
structure GivenCanonically (chain : List Tree) (q : QName) (items : List Attr) : Prop where
  used : ∀ b ∈ declsOf items,
    b.1 = q.pre ∨ (b.1 ≠ [] ∧ b.1 ∈ (attrsOf items).map fun a => a.name.pre)
  declarationsFirst : items = (declsOf items).map declAttr ++ attrsOf items
  declarationsSorted : (declsOf items).Pairwise fun a b => a.1 < b.1
  attributesSorted : (attrsOf items).Pairwise fun a b => (attrRow chain a).le (attrRow chain b)

/-- No declaration repeats what holds around the element, and no character of the prefix counts
    as white space. -/
structure DeclaredAnew (chain : List Tree) (q : QName) (items : List Attr) : Prop where
  anew : ∀ b ∈ declsOf items, nsOfUri (inScope chain.tail b.1) ≠ nsOfUri (some b.2)
  noSpace : ∀ c ∈ q.pre, Str.isWhitespace c = false

section

variable {up : List Tree} {q : QName} {items : List Attr} {ms : List Markup} {parentNs : NsMap}

/-- Such an element keeps its prefix. -/
private theorem elementSourcePrefix_given (hq : q.IsName)
    (hspace : ∀ c ∈ q.pre, Str.isWhitespace c = false) : elementSourcePrefix q = q.pre := by
  rw [elementSourcePrefix_eq_pre_iff hq]
  cases hq.1 with
  | inl hnil =>
    intro c hc
    rw [hnil] at hc
    cases hc
  | inr hname => exact (nameContinues_iff hname).mpr hspace

/-- What the tag utilizes for a prefix: the binding of its own prefix, or that there is none. -/
private theorem get_utilizedTag {chain : List Tree} (hs : ScopeOk chain) (hbound : Bound chain q)
    (hpre : elementSourcePrefix q = q.pre) (p : Str) :
    (utilizedTag chain q).get p =
      if p = q.pre ∧ p ≠ xmlPre then some ((nsOfUri (inScope chain p)).getD []) else none := by
  by_cases hxml : q.pre = xmlPre
  · have hres : resolve chain q.pre = some xmlNs := by simp [resolve, hxml]
    have hneg : ¬ (p = q.pre ∧ p ≠ xmlPre) := by
      rintro ⟨rfl, hne⟩
      exact hne hxml
    simp [utilizedTag, hres, hneg]
  · cases hres : resolve chain q.pre with
    | none =>
      obtain hnil | hsome := hbound
      · rw [hnil] at hres hxml
        rw [resolve, if_neg hxml] at hres
        by_cases hp : p = []
        · subst hp
          simp [utilizedTag, hnil, resolve, hxml, hres]
        · simp [utilizedTag, hnil, resolve, hxml, hres, hp]
      · rw [hres] at hsome
        cases hsome
    | some u =>
      obtain ⟨hin, hne, hempty⟩ := resolve_ne_xmlNs hs hxml hres
      have hns : nsOfUri (inScope chain q.pre) = some u := by
        rw [resolve, if_neg hxml] at hres
        exact hres
      by_cases hp : p = q.pre
      · subst hp
        simp [utilizedTag, hres, hne, hpre, hxml, hns]
      · simp [utilizedTag, hres, hne, hpre, hp]

/-- What a start tag utilizes: the bindings in scope of the prefixes that its names have. -/
private theorem get_utilized {chain : List Tree} {ds : List (Str × Str)} {as : List Attr}
    (hs : ScopeOk chain) (htag : StartTagOk chain q ds as) (hpre : elementSourcePrefix q = q.pre)
    (p : Str) :
    (utilizedNamespaces .exclusive none chain q as).get p =
      if p ≠ xmlPre ∧ (p = q.pre ∨ (p ≠ [] ∧ p ∈ as.map fun a => a.name.pre)) then
        some ((nsOfUri (inScope chain p)).getD []) else none := by
  rw [get_utilizedExclusive rfl none q (colon_notMem_attrs htag) chain p,
    get_utilizedTag hs htag.bound hpre]
  have htoken : tokenBinding chain
      ((none : Option (List Str)).getD WsSecCanonicalizationProfile.exclusive.inclusiveNsPrefixes) p =
      none := rfl
  rw [htoken, Option.or_none]
  by_cases hxml : p = xmlPre
  · have hres : (resolve chain p).filter (· ≠ xmlNs) = none := by simp [resolve, hxml]
    rw [hres, ite_self, Option.none_or, if_neg fun h => h.2 hxml, if_neg fun h => h.1 hxml]
  by_cases hattr : p ≠ [] ∧ p ∈ as.map fun a => a.name.pre
  · obtain ⟨a, ha, rfl⟩ := List.mem_map.mp hattr.2
    -- The prefix of an attribute resolves.
    obtain ⟨u, hu⟩ := Option.isSome_iff_exists.mp ((htag.attrs a ha).2.2.1.resolve_left hattr.1)
    obtain ⟨-, hne, -⟩ := resolve_ne_xmlNs hs hxml hu
    have hns : nsOfUri (inScope chain a.name.pre) = some u := by
      rw [resolve, if_neg hxml] at hu
      exact hu
    have hfilter : (some u).filter (· ≠ xmlNs) = some u := by simp [hne]
    rw [if_pos hattr, hu, hfilter, Option.some_or, if_pos ⟨hxml, .inr hattr⟩, hns]
    rfl
  · rw [if_neg hattr, Option.none_or]
    simp only [hattr, or_false, and_comm]

/-- What canonicalization emits for such an element is what it was given. -/
private theorem nsEmitted_given {t : Tree} {ds : List (Str × Str)} {as : List Attr}
    (hs : ScopeOk (t :: up)) (htag : StartTagOk (t :: up) q ds as) (hdecls : t.decls = ds)
    (hpre : elementSourcePrefix q = q.pre) (hparent : ∀ p, parentNs.get p = inScope up p)
    (hused : ∀ b ∈ ds, b.1 = q.pre ∨ (b.1 ≠ [] ∧ b.1 ∈ as.map fun a => a.name.pre))
    (hsorted : ds.Pairwise fun a b => a.1 < b.1)
    (hanew : ∀ b ∈ ds, nsOfUri (inScope up b.1) ≠ nsOfUri (some b.2)) :
    nsEmitted parentNs (utilizedNamespaces .exclusive none (t :: up) q as) = ds := by
  refine OrdMap.eq_of_lookup_eq (nsEmitted_sorted _ _) hsorted fun p => ?_
  rw [lookup_nsEmitted, get_utilized hs htag hpre]
  have hscope : inScope (t :: up) p = (ds.lookup p).or (inScope up p) := by
    rw [inScope_cons, hdecls]
  cases hlookup : ds.lookup p with
  | some u =>
    have hmem := OrdMap.mem_of_lookup hlookup
    have hok := htag.decls _ hmem
    have hne := hanew _ hmem
    have hxml : p ≠ xmlPre := by
      cases hok.1 with
      | inl hnil =>
        intro heq
        rw [heq] at hnil
        cases hnil
      | inr hnamed => exact hnamed.2.1
    have hvalue : (nsOfUri (some u)).getD [] = u := by cases u <;> rfl
    rw [if_pos ⟨hxml, hused _ hmem⟩, hscope, hlookup, Option.some_or, hvalue, Option.filter_some,
      if_pos]
    simp only [shouldEmit]
    split
    · rename_i hempty
      obtain ⟨rfl, rfl⟩ := hempty
      rw [hparent]
      cases hup : inScope up [] with
      | none => simp [hup, nsOfUri] at hne
      | some v =>
        cases v with
        | nil => simp [hup] at hne
        | cons c cs => rfl
    · rw [hparent, decide_eq_true_eq]
      intro heq
      exact hne (by rw [heq])
  | none =>
    rw [hlookup, Option.none_or] at hscope
    split
    · rename_i hcond
      rw [Option.filter_eq_none_iff]
      intro v hv
      obtain rfl := Option.some.inj hv
      rw [hscope]
      cases hns : nsOfUri (inScope up p) with
      | some w =>
        have hw : inScope up p = some w := by
          cases hup : inScope up p with
          | none => simp [hup, nsOfUri] at hns
          | some w' => cases w' <;> simp_all [nsOfUri]
        have hrendered : parentNs.get p = some w := by rw [hparent, hw]
        simp [shouldEmit_rendered hrendered]
      | none =>
        -- Only the empty prefix can be used without a binding.
        have hnil : p = [] := by
          by_contra hne
          have hres : resolve (t :: up) p = none := by rw [resolve, if_neg hcond.1, hscope, hns]
          have hbound : (resolve (t :: up) p).isSome := by
            obtain heq | ⟨-, hmem⟩ := hcond.2
            · exact heq ▸ htag.bound.resolve_left (heq ▸ hne)
            · obtain ⟨a, ha, heq⟩ := List.mem_map.mp hmem
              exact heq ▸ (htag.attrs a ha).2.2.1.resolve_left (heq ▸ hne)
          rw [hres] at hbound
          cases hbound
        subst hnil
        have hdefault : nsOfUri (parentNs.get []) = none := by rw [hparent, hns]
        simp [shouldEmit_empty_default hdefault]
    · rfl

/-- What is given canonically is written as the tree it describes. -/
private theorem print_given :
    (∀ m : Markup, ∀ up, m.EachTag GivenCanonically up →
      Markup.print textEscape attrEscape false m = write textEscape attrEscape m.tree) ∧
    (∀ ms : List Markup, ∀ up, Markup.EachTagList GivenCanonically up ms →
      Markup.printList textEscape attrEscape false ms =
        writeList textEscape attrEscape (Markup.treeList ms)) := by
  refine Markup.induction ?_ ?_ ?_ ?_
  · intro q items ms ih up h
    rw [Markup.EachTag] at h
    have hitems := congrArg (List.flatMap (Xml.writeAttr attrEscape)) h.1.declarationsFirst
    simp only [Markup.print, Markup.tree, write, ih _ h.2, hitems, Bool.false_and,
      Bool.false_eq_true, if_false, List.append_assoc]
  · intro s up _
    rfl
  · intro up _
    rfl
  · intro m ms ihm ihms up h
    rw [Markup.EachTagList] at h
    rw [Markup.printList, Markup.treeList, writeList_consNode, ihm up h.1, ihms up h.2]

private theorem wellFormed_of_consNode {t : Tree} {ts : List Tree}
    (h : WellFormedList up (consNode t ts)) : WellFormed up t ∧ WellFormedList up ts := by
  unfold consNode at h
  split at h
  · rw [WellFormedList, WellFormed] at h
    rw [WellFormed, WellFormedList, WellFormed]
    exact ⟨fun c hc => h.1 c (List.mem_append_left _ hc), fun c hc => h.1 c (List.mem_append_right _ hc),
      h.2⟩
  · rw [WellFormed]
    refine ⟨fun c hc => ?_, h⟩
    cases hc
  · rw [WellFormedList] at h
    exact h

private theorem canonNodesList_consNode (t : Tree) (ts : List Tree) :
    canonNodesList .exclusive none parentNs up (consNode t ts) =
      (canonNodes .exclusive none parentNs up t).foldr consNode
        (canonNodesList .exclusive none parentNs up ts) := by
  conv_lhs => unfold consNode
  split
  · simp only [canonNodesList, canonNodes, List.foldr_cons, List.foldr_nil, Markup.consNode_text_text]
  · simp only [canonNodes, List.foldr_cons, List.foldr_nil, Markup.consNode_text_nil]
  · rw [canonNodesList]

/-- What is given canonically is its own canonical form. -/
private theorem canonNodes_given :
    (∀ m : Markup, ∀ (parentNs : NsMap) up, WellFormed up m.tree → ScopeOk up →
      (∀ p, parentNs.get p = inScope up p) → m.EachTag GivenCanonically up →
      m.EachTag DeclaredAnew up → canonNodes .exclusive none parentNs up m.tree = [m.tree]) ∧
    (∀ ms : List Markup, ∀ (parentNs : NsMap) up, WellFormedList up (Markup.treeList ms) → ScopeOk up →
      (∀ p, parentNs.get p = inScope up p) → Markup.EachTagList GivenCanonically up ms →
      Markup.EachTagList DeclaredAnew up ms →
      canonNodesList .exclusive none parentNs up (Markup.treeList ms) = Markup.treeList ms) := by
  refine Markup.induction ?_ ?_ ?_ ?_
  · intro q items ms ih parentNs up hwf hs hparent hgiven hanew
    rw [Markup.EachTag] at hgiven hanew
    rw [Markup.tree] at hwf hgiven hanew ⊢
    rw [WellFormed] at hwf
    have hs' := scopeOk_cons hwf.1 hs
    have hpre := elementSourcePrefix_given hwf.1.name.1 hanew.1.noSpace
    have hemitted := nsEmitted_given hs' hwf.1 rfl hpre hparent hgiven.1.used
      hgiven.1.declarationsSorted hanew.1.anew
    have hattrs : canonAttrs _ (attrsOf items) = attrsOf items :=
      List.Pairwise.insertionSort_eq hgiven.1.attributesSorted
    have hcontent := ih (parentNs.extend (declsOf items)) _ hwf.2 hs' (by
      intro p
      rw [OrdMap.get_extend _ hgiven.1.declarationsSorted, hparent, inScope_cons]
      rfl) hgiven.2 hanew.2
    simp only [canonNodes, hpre, hemitted, hattrs, hcontent]
  · intro s parentNs up _ _ _ _ _
    rw [Markup.tree, canonNodes]
  · intro parentNs up _ _ _ _ _
    rw [Markup.treeList, canonNodesList]
  · intro m ms ihm ihms parentNs up hwf hs hparent hgiven hanew
    rw [Markup.treeList] at hwf ⊢
    rw [Markup.EachTagList] at hgiven hanew
    obtain ⟨hm, hms⟩ := wellFormed_of_consNode hwf
    rw [canonNodesList_consNode, ihm parentNs up hm hs hparent hgiven.1 hanew.1,
      ihms parentNs up hms hs hparent hgiven.2 hanew.2]
    rfl

end

/-- A document of nothing but an element is serialized as that element. -/
private theorem serializeRootNode_single {profile : WsSecCanonicalizationProfile} {t : Tree}
    (ht : t.isElement = true) (ok : DocumentOk [t]) :
    serializeRootNode profile ⟨[t], ok⟩ =
      serializeSubtree profile none none .empty 0 [.root [t]] [0] t := by
  cases t with
  | element q ds as cs =>
    simp only [serializeRootNode, Document.root, Node.children, Tree.children, List.mapIdx_cons,
      List.mapIdx_nil, serializeTopLevels, serializeTopLevel, trySerializeNodeWithInclusiveNs,
      trySerializeNodeOmitting, Node.chain, Option.map_none]
    cases serializeSubtree profile none none .empty 0 [.root [.element q ds as cs]] [0]
      (.element q ds as cs) with
    | none => rfl
    | some s => simp
  | _ => cases ht

/-- For every sequence of calls whose names and URIs are legal, that succeeds, that `finish`
    accepts and that describes one element on which nothing is given twice: the text parses as
    the document of that element. For the canonical form its Exclusive C14N without comments is
    the text, if the calls are in canonical order, use each prefix where they declare it and
    declare nothing that holds already; canonicalization fails below its depth bound. -/
theorem xmlOut_writes_what_it_was_told (form : EmptyForm) (calls : List XmlCall) (out : XmlOut)
    (doc : XmlDoc) (q : QName) (items : List Attr) (ms : List Markup)
    (hlegal : ∀ c ∈ calls, c.Legal) (hrun : (XmlOut.withForm form).run calls = .ok out)
    (hfinish : out.finish = .ok doc) (hroot : describe calls = some [.element q items ms])
    (htwice : Markup.EachTag NothingTwice [.root [Markup.tree (.element q items ms)]]
      (.element q items ms)) :
    ∃ text ok, doc.intoString = .ok text ∧
      parse text = some ⟨[Markup.tree (.element q items ms)], ok⟩ ∧
      (form = .startEnd →
        Markup.EachTag GivenCanonically [.root [Markup.tree (.element q items ms)]]
          (.element q items ms) →
        Markup.EachTag DeclaredAnew [.root [Markup.tree (.element q items ms)]]
          (.element q items ms) →
        trySerializeNode .exclusive (Document.rootElement ⟨_, ok⟩) =
            (if elementHeight (Markup.tree (.element q items ms)) ≤ maxC14nDepth then some text
              else none) ∧
          serializeRootNode .exclusive ⟨_, ok⟩ =
            if elementHeight (Markup.tree (.element q items ms)) ≤ maxC14nDepth then some text
              else none) := by
  obtain ⟨htext, ok, hparse⟩ := parse_of_run hlegal hrun hfinish hroot htwice
  refine ⟨_, ok, htext, hparse, ?_⟩
  rintro rfl hgiven hanew
  have hwf := ok.content
  rw [WellFormedList] at hwf
  have hscope := scopeOk_root [Markup.tree (.element q items ms)]
  have hcanon := canonNodes_given.1 _ .empty _ hwf.1 hscope (fun p => rfl) hgiven hanew
  have hserialize := (@serializeSubtree_eq .exclusive none).1
    (Markup.tree (.element q items ms)) .empty 0 [.root [Markup.tree (.element q items ms)]] [0]
    hwf.1 (.inl rfl)
  have hfits : Fits 0 (elementHeight (Markup.tree (.element q items ms))) ↔
      elementHeight (Markup.tree (.element q items ms)) ≤ maxC14nDepth := by
    simp only [Fits]
    omega
  simp only [hfits] at hserialize
  rw [hcanon, writeList, writeList, List.append_nil,
    ← print_given.1 _ _ hgiven] at hserialize
  have htree : printed (EmptyForm.startEnd == .selfClosing) [.element q items ms] =
      Markup.print textEscape attrEscape false (.element q items ms) := by
    rw [printed, Markup.printList, Markup.printList, List.append_nil]
    rfl
  refine ⟨?_, ?_⟩
  · rw [htree, ← hserialize]
    rfl
  · rw [htree, ← hserialize]
    exact serializeRootNode_single rfl ok

/-- `p:a` with a declaration, an attribute to escape, text and an element in it. -/
def plainCalls : List XmlCall :=
  [.start "p:a".toList, .ns ['p'] ['u'], .attr ['x'] ['<'] ['f'], .text ['y'] ['f'],
    .start "p:b".toList, .endElement, .endElement]

/-- What these calls describe. -/
def plainItems : List Attr := [declAttr (['p'], ['u']), ⟨⟨[], ['x']⟩, ['<']⟩]

/-- The content of the outer element. -/
def plainContent : List Markup := [.text ['y'], .element ⟨['p'], ['b']⟩ [] []]

private theorem legal_plainCalls : ∀ c ∈ plainCalls, c.Legal := by
  intro c hc
  simp only [plainCalls, List.mem_cons, List.not_mem_nil, or_false] at hc
  obtain rfl | rfl | rfl | rfl | rfl | rfl | rfl := hc
  · exact ⟨⟨['p'], ['a']⟩, by decide, by decide⟩
  · exact (by decide : DeclOk (['p'], ['u']))
  · exact ⟨⟨[], ['x']⟩, by decide, by decide, by decide⟩
  · trivial
  · exact ⟨⟨['p'], ['b']⟩, by decide, by decide⟩
  · trivial
  · trivial

/-- They are written as their own canonical form. -/
theorem xmlOut_writes_what_it_was_told_plain :
    ∃ ok, parse "<p:a xmlns:p=\"u\" x=\"&lt;\">y<p:b></p:b></p:a>".toList =
        some ⟨[Markup.tree (.element ⟨['p'], ['a']⟩ plainItems plainContent)], ok⟩ ∧
      serializeRootNode .exclusive ⟨_, ok⟩ =
        some "<p:a xmlns:p=\"u\" x=\"&lt;\">y<p:b></p:b></p:a>".toList := by
  have htwice : Markup.EachTag NothingTwice
      [.root [Markup.tree (.element ⟨['p'], ['a']⟩ plainItems plainContent)]]
      (.element ⟨['p'], ['a']⟩ plainItems plainContent) := by
    simp only [Markup.EachTag, Markup.EachTagList, plainContent, and_true, true_and]
    exact ⟨⟨by decide, by decide⟩, by decide, by decide⟩
  obtain ⟨text, ok, htext, hparse, hcanon⟩ := xmlOut_writes_what_it_was_told .startEnd plainCalls _ _
    ⟨['p'], ['a']⟩ plainItems plainContent legal_plainCalls rfl rfl rfl htwice
  obtain rfl : "<p:a xmlns:p=\"u\" x=\"&lt;\">y<p:b></p:b></p:a>".toList = text := Except.ok.inj htext
  refine ⟨ok, hparse, (hcanon rfl ?_ ?_).2⟩
  · simp only [Markup.EachTag, Markup.EachTagList, plainContent, and_true, true_and]
    exact ⟨⟨by decide, by decide, by decide, by decide⟩, by decide, by decide, by decide, by decide⟩
  · simp only [Markup.EachTag, Markup.EachTagList, plainContent, and_true, true_and]
    exact ⟨⟨by decide, List.forall_mem_of_all (by decide)⟩, by decide,
      List.forall_mem_of_all (by decide)⟩

/-- The calls succeed, `finish` accepts them, and they describe one element on which nothing is
    given twice; this is the text. -/
def WritesElement (form : EmptyForm) (calls : List XmlCall) (m : Markup) (text : Str) : Prop :=
  ∃ out doc, (XmlOut.withForm form).run calls = .ok out ∧ out.finish = .ok doc ∧
    describe calls = some [m] ∧ m.EachTag NothingTwice [.root [m.tree]] ∧ doc.intoString = .ok text

/-- An element and one in it, which both declare the prefix that both use. -/
def redeclaring : Markup :=
  .element ⟨['p'], ['a']⟩ [declAttr (['p'], ['u'])]
    [.element ⟨['p'], ['b']⟩ [declAttr (['p'], ['u'])] []]

/-- An element whose prefix ends in an Ogham space mark, which is a name character and white
    space. -/
def spaced : Markup :=
  .element ⟨['p', '\u1680'], ['a']⟩ [declAttr (['p', '\u1680'], ['u'])] []

private theorem legal_redeclaring : ∀ c ∈ [XmlCall.start "p:a".toList, .ns ['p'] ['u'],
    .start "p:b".toList, .ns ['p'] ['u'], .endElement, .endElement], c.Legal := by
  intro c hc
  simp only [List.mem_cons, List.not_mem_nil, or_false] at hc
  obtain rfl | rfl | rfl | rfl | rfl | rfl := hc
  · exact ⟨⟨['p'], ['a']⟩, by decide, by decide⟩
  · exact (by decide : DeclOk (['p'], ['u']))
  · exact ⟨⟨['p'], ['b']⟩, by decide, by decide⟩
  · exact (by decide : DeclOk (['p'], ['u']))
  · trivial
  · trivial

private theorem legal_spaced : ∀ c ∈ [XmlCall.start "p\u1680:a".toList, .ns ['p', '\u1680'] ['u'],
    .endElement], c.Legal := by
  intro c hc
  simp only [List.mem_cons, List.not_mem_nil, or_false] at hc
  obtain rfl | rfl | rfl := hc
  · exact ⟨⟨['p', '\u1680'], ['a']⟩, by decide, by decide⟩
  · exact (by decide : DeclOk (['p', '\u1680'], ['u']))
  · trivial

/-- A declaration that is repeated where its prefix is used again, and a prefix with a character
    that canonicalization takes for white space: both texts parse as what was described, and are
    not its canonical form. A name that is none makes a text that does not parse. -/
theorem xmlOut_redeclaration_not_canonical :
    (∃ text ok, WritesElement .startEnd [.start "p:a".toList, .ns ['p'] ['u'], .start "p:b".toList,
        .ns ['p'] ['u'], .endElement, .endElement] redeclaring text ∧
      redeclaring.EachTag GivenCanonically [.root [redeclaring.tree]] ∧
      parse text = some ⟨[redeclaring.tree], ok⟩ ∧
      serializeRootNode .exclusive ⟨_, ok⟩ ≠ some text) ∧
    (∃ text ok, WritesElement .startEnd [.start "p\u1680:a".toList, .ns ['p', '\u1680'] ['u'],
        .endElement] spaced text ∧
      spaced.EachTag GivenCanonically [.root [spaced.tree]] ∧
      parse text = some ⟨[spaced.tree], ok⟩ ∧
      serializeRootNode .exclusive ⟨_, ok⟩ ≠ some text) ∧
    ∃ text, WritesElement .startEnd [.start ['1'], .endElement] (.element ⟨[], ['1']⟩ [] []) text ∧
      parse text = none := by
  have htwice : redeclaring.EachTag NothingTwice [.root [redeclaring.tree]] := by
    simp only [redeclaring, Markup.EachTag, Markup.EachTagList, and_true]
    exact ⟨⟨by decide, by decide⟩, by decide, by decide⟩
  have htwice' : spaced.EachTag NothingTwice [.root [spaced.tree]] := by
    simp only [spaced, Markup.EachTag, Markup.EachTagList, and_true]
    exact ⟨by decide, by decide⟩
  have hgiven : redeclaring.EachTag GivenCanonically [.root [redeclaring.tree]] := by
    simp only [redeclaring, Markup.EachTag, Markup.EachTagList, and_true]
    exact ⟨⟨by decide, by decide, by decide, by decide⟩, by decide, by decide, by decide, by decide⟩
  have hgiven' : spaced.EachTag GivenCanonically [.root [spaced.tree]] := by
    simp only [spaced, Markup.EachTag, Markup.EachTagList, and_true]
    exact ⟨by decide, by decide, by decide, by decide⟩
  obtain ⟨htext, ok, hparse⟩ := @parse_of_run .startEnd _ _ _ ⟨['p'], ['a']⟩
    [declAttr (['p'], ['u'])] [.element ⟨['p'], ['b']⟩ [declAttr (['p'], ['u'])] []] legal_redeclaring
    rfl rfl rfl htwice
  obtain ⟨htext', ok', hparse'⟩ := @parse_of_run .startEnd _ _ _ ⟨['p', '\u1680'], ['a']⟩
    [declAttr (['p', '\u1680'], ['u'])] [] legal_spaced rfl rfl rfl htwice'
  refine ⟨⟨_, ok, ⟨_, _, rfl, rfl, rfl, htwice, htext⟩, hgiven, hparse, ?_⟩,
    ⟨_, ok', ⟨_, _, rfl, rfl, rfl, htwice', htext'⟩, hgiven', hparse', ?_⟩,
    _, ⟨_, _, rfl, rfl, rfl, ?_, rfl⟩, ?_⟩
  · intro hsame
    exact absurd ((serializeRootNode_single rfl ok).symm.trans hsame) (by decide +kernel)
  · intro hsame
    exact absurd ((serializeRootNode_single rfl ok').symm.trans hsame) (by decide +kernel)
  · simp only [Markup.EachTag, Markup.EachTagList, and_true]
    exact ⟨by decide, by decide⟩
  · have hnone : (parse ("<1></1>".toList)).isNone := by decide +kernel
    exact Option.isNone_iff_eq_none.mp hnone

end Asx
