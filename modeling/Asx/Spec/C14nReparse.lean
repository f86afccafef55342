import Asx.Spec.C14nFaithful
import Asx.Xml.LineEnds

/-!
# Exclusive C14N and reading it back

Parsing what the serializer wrote under Exclusive C14N without comments yields an element
with the infoset of the original, and canonicalizing that element yields the same text.
There are two exceptions:

- `element_source_prefix` stops at white space, and U+1680 (OGHAM SPACE MARK) is white
  space to `char::is_whitespace` and a name character to XML. An element whose prefix
  contains it is written without its prefix.
- A carriage return in a processing instruction, or in a comment that is kept, is written
  as it is, while the ones in text and attribute values are escaped. Reading turns it into
  a line feed.

## Key results
- `exclusive_c14n_faithful_iff`: when the text written is faithful, when it is a fixed
  point, and that it determines the infoset
- `exclusive_c14n_loses_ogham_space_mark`: an element that loses its prefix
-/

namespace Asx

open Xml

/-- No element of the tree has white space in its prefix. -/
def NoSpaceInPrefixes (t : Tree) : Prop :=
  ∀ q ∈ elementNames t, ∀ c ∈ q.pre, Str.isWhitespace c = false

/-- The text reads back as one element that carries the infoset of `t` and has the same
    canonical form. -/
def Faithful (profile : WsSecCanonicalizationProfile) (override : Option (List Str))
    (up : List Tree) (t : Tree) (text : Str) : Prop :=
  ∃ doc e, parse text = some doc ∧ doc.children = [e] ∧
    infoset [.root doc.children] e = infoset up t ∧
    serializeSubtree profile override none .empty 0 [.root doc.children] [0] e = some text

section

variable {profile : WsSecCanonicalizationProfile} {override : Option (List Str)} {up : List Tree}
  {q : QName} {ds : List (Str × Str)} {as : List Attr} {cs : List Tree}

/-- At the apex nothing is rendered, and nothing is in scope in a document of its own. -/
private theorem canonContext_apex (hkind : profile.kind = .exclusive) (hs : ScopeOk up)
    (ts : List Tree) : CanonContext profile .empty up [.root ts] where
  scope := hs
  canonScope := by
    intro t ht
    rw [List.mem_singleton] at ht
    subst ht
    simp [Tree.decls]
  bindings := fun p => rfl
  rendered := fun h => by
    rw [hkind] at h
    cases h

private theorem keepsPrefixes_exclusive (hkind : profile.kind = .exclusive) (names : List QName) :
    KeepsPrefixes profile names := by
  intro h
  rw [hkind] at h
  cases h

/-- What is written under Exclusive C14N is the printed canonical element. -/
private theorem text_eq_write (hkind : profile.kind = .exclusive) {path : List Nat}
    (hwf : WellFormed up (.element q ds as cs)) {text : Str}
    (h : serializeSubtree profile override none .empty 0 up path (.element q ds as cs) =
      some text) :
    text = write textEscape attrEscape (canonElement profile override .empty up q ds as cs) ∧
      Fits 0 (elementHeight (.element q ds as cs)) := by
  rw [serializeSubtree_eq.1 _ _ _ _ _ hwf (.inl hkind)] at h
  split at h
  · rename_i hfits
    rw [canonNodes_element, writeList, writeList, List.append_nil] at h
    exact ⟨(Option.some.inj h).symm, hfits⟩
  · cases h

/-- Of the nodes that are written, those with carriage returns are those of the original. -/
private theorem noReturn_canonNodes :
    (∀ t : Tree, ∀ parentNs up,
      NoReturnList true (canonNodes profile override parentNs up t) ↔
        NoReturn profile.includeComments t) ∧
    (∀ ts : List Tree, ∀ parentNs up,
      NoReturnList true (canonNodesList profile override parentNs up ts) ↔
        NoReturnList profile.includeComments ts) := by
  refine Tree.induction ?_ ?_ ?_ ?_ ?_ ?_ ?_
  · intro cs ih parentNs up
    rw [canonNodes, NoReturn]
    exact ih _ _
  · intro q ds as cs ih parentNs up
    rw [canonNodes, NoReturn, NoReturnList, NoReturnList, NoReturn, ih, and_true]
  · intro s parentNs up
    simp [canonNodes, NoReturnList, NoReturn]
  · intro s parentNs up
    cases hcomments : profile.includeComments <;>
      simp [canonNodes, NoReturnList, NoReturn, hcomments]
  · intro target data parentNs up
    cases data with
    | none => simp [canonNodes, NoReturnList, NoReturn]
    | some d =>
      by_cases hd : d = []
      · simp [canonNodes, NoReturnList, NoReturn, hd]
      · simp [canonNodes, NoReturnList, NoReturn, hd]
  · intro parentNs up
    simp [canonNodesList, NoReturnList]
  · intro t ts iht ihts parentNs up
    -- merging text keeps the other nodes
    have hmerge : ∀ l us : List Tree, NoReturnList true (l.foldr consNode us) ↔
        NoReturnList true l ∧ NoReturnList true us := by
      intro l us
      induction l with
      | nil => simp [NoReturnList]
      | cons t l ihl => rw [List.foldr_cons, noReturnList_consNode, ihl, NoReturnList, and_assoc]
    rw [canonNodesList, hmerge, iht, ihts, NoReturnList]

/-- Fewer comments count. -/
private theorem noReturn_of_true :
    (∀ t : Tree, ∀ comments, NoReturn true t → NoReturn comments t) ∧
    (∀ ts : List Tree, ∀ comments, NoReturnList true ts → NoReturnList comments ts) := by
  refine Tree.induction ?_ ?_ ?_ ?_ ?_ ?_ ?_
  · intro cs ih comments h
    rw [NoReturn] at h ⊢
    exact ih comments h
  · intro q ds as cs ih comments h
    rw [NoReturn] at h ⊢
    exact ih comments h
  · intro s comments h
    rw [NoReturn]
    trivial
  · intro s comments h
    rw [NoReturn] at h ⊢
    exact fun _ => h rfl
  · intro target data comments h
    rw [NoReturn] at h ⊢
    exact h
  · intro comments h
    rw [NoReturnList]
    trivial
  · intro t ts iht ihts comments h
    rw [NoReturnList] at h ⊢
    exact ⟨iht comments h.1, ihts comments h.2⟩

private theorem noReturn_canonElement :
    NoReturn true (canonElement profile override .empty up q ds as cs) ↔
      NoReturn profile.includeComments (.element q ds as cs) := by
  have hnodes : NoReturnList true (canonNodes profile override .empty up (.element q ds as cs)) ↔ _ :=
    noReturn_canonNodes.1 _ .empty up
  rw [← hnodes, canonNodes_element, NoReturnList, NoReturnList, and_true]

/-- The canonical element is well-formed and in the form a parser gives, wherever it is put,
    and it carries the infoset of the original with the prefixes that are written. -/
private theorem canonElement_ok (override : Option (List Str)) (hkind : profile.kind = .exclusive)
    (hs : ScopeOk up) (hwf : WellFormed up (.element q ds as cs)) (ts : List Tree) :
    WellFormed [.root ts] (canonElement profile override .empty up q ds as cs) ∧
      Coalesced (canonElement profile override .empty up q ds as cs) ∧
      infoset [.root ts] (canonElement profile override .empty up q ds as cs) =
        infosetWith elementSourcePrefix up (.element q ds as cs) := by
  have hctx := canonContext_apex hkind hs ts
  have hkeep := keepsPrefixes_exclusive hkind (elementNames (.element q ds as cs))
  have hmem : canonElement profile override .empty up q ds as cs ∈
      canonNodes profile override .empty up (.element q ds as cs) := by
    rw [canonNodes_element]
    exact List.mem_singleton_self _
  obtain ⟨hwf', hcoalesced⟩ := (canonNodes_ok profile override).1 _ _ _ _ hctx hwf hkeep _ hmem
  have hinfo := (infoset_canonNodes profile override).1 _ _ _ _ hctx hwf hkeep
  rw [canonNodes_element, List.flatMap_singleton] at hinfo
  exact ⟨hwf', hcoalesced.resolve_left (by simp [canonElement, Tree.isText]), hinfo⟩

/-- The canonical element is its own canonical form, and nests as deep as the original. -/
private theorem canonElement_again (override : Option (List Str))
    (hkind : profile.kind = .exclusive) (hs : ScopeOk up)
    (hwf : WellFormed up (.element q ds as cs))
    (hfits : Fits 0 (elementHeight (.element q ds as cs))) :
    serializeSubtree profile override none .empty 0
        [.root [canonElement profile override .empty up q ds as cs]] [0]
        (canonElement profile override .empty up q ds as cs) =
      some (write textEscape attrEscape (canonElement profile override .empty up q ds as cs)) := by
  have hctx := canonContext_apex hkind hs [canonElement profile override .empty up q ds as cs]
  have hkeep := keepsPrefixes_exclusive hkind (elementNames (.element q ds as cs))
  have hmem : canonElement profile override .empty up q ds as cs ∈
      canonNodes profile override .empty up (.element q ds as cs) := by
    rw [canonNodes_element]
    exact List.mem_singleton_self _
  obtain ⟨hwf', -, -⟩ := canonElement_ok override hkind hs hwf
    [canonElement profile override .empty up q ds as cs]
  have hheight := (elementHeight_canonNodes profile override).1 (.element q ds as cs) .empty up
  rw [canonNodes_element, elementHeightList, elementHeightList, Nat.max_zero] at hheight
  have hidem := (canonNodes_idem profile override).1 _ _ _ _ hctx hwf hkeep _ hmem
  rw [serializeSubtree_eq.1 _ _ _ _ _ hwf' (.inl hkind), hheight, if_pos hfits, hidem, writeList,
    writeList, List.append_nil]

/-- A text that reads back as its own canonical form has no carriage return that is not
    escaped: the document that was read has none. -/
private theorem cr_notMem_of_fixed (hkind : profile.kind = .exclusive) {text : Str}
    {doc : Document} {e : Tree} (hparse : parse text = some doc) (hchildren : doc.children = [e])
    (h : serializeSubtree profile override none .empty 0 [.root doc.children] [0] e =
      some text) : '\r' ∉ text := by
  have hplain := noReturn_of_parse hparse
  obtain ⟨children, hdoc⟩ := doc
  obtain rfl : children = [e] := hchildren
  have hcontent := hdoc.content
  rw [WellFormedList] at hcontent
  have helement := hdoc.oneElement
  cases e with
  | element q ds as cs =>
    have hscope : ScopeOk [.root [.element q ds as cs]] := by
      intro t ht
      rw [List.mem_singleton] at ht
      subst ht
      simp [Tree.decls]
    obtain ⟨rfl, -⟩ := text_eq_write hkind hcontent.1 h
    obtain ⟨hwf', -, -⟩ := canonElement_ok override hkind hscope hcontent.1 []
    rw [cr_notMem_write_iff hwf', noReturn_canonElement]
    rw [NoReturnList] at hplain
    exact noReturn_of_true.1 _ _ hplain.1
  | root cs => cases helement
  | text s => cases helement
  | comment s => cases helement
  | pi target data => cases helement

/-- Reading back what is written gives the canonical element. -/
private theorem reparse (override : Option (List Str)) (hkind : profile.kind = .exclusive)
    (hs : ScopeOk up) (hwf : WellFormed up (.element q ds as cs))
    (hreturn : NoReturn profile.includeComments (.element q ds as cs)) :
    ∃ doc, parse (write textEscape attrEscape
        (canonElement profile override .empty up q ds as cs)) = some doc ∧
      doc.children = [canonElement profile override .empty up q ds as cs] := by
  obtain ⟨hwf', hcoalesced, -⟩ := canonElement_ok override hkind hs hwf
    [canonElement profile override .empty up q ds as cs]
  obtain ⟨hok, hparse⟩ := parse_write textEscape attrEscape hwf' hcoalesced
    (noReturn_canonElement.mpr hreturn)
  exact ⟨⟨[canonElement profile override .empty up q ds as cs], hok⟩, hparse, rfl⟩

/-- Names lose their prefixes exactly when these hold white space. -/
private theorem infosetWith_eq_iff (hwf : WellFormed up (.element q ds as cs)) :
    infosetWith elementSourcePrefix up (.element q ds as cs) = infoset up (.element q ds as cs) ↔
      NoSpaceInPrefixes (.element q ds as cs) := by
  have hname := isName_elementNames.1 _ _ hwf
  have hiff : ∀ r ∈ elementNames (.element q ds as cs), elementSourcePrefix r = r.pre ↔
      ∀ c ∈ r.pre, Str.isWhitespace c = false := by
    intro r hr
    rw [elementSourcePrefix_eq_pre_iff (hname r hr)]
    cases (hname r hr).1 with
    | inl hnil => simp [hnil]
    | inr hnc => exact nameContinues_iff hnc
  constructor
  · intro heq r hr
    have hpre := congrArg infoPrefixesList heq
    rw [infoset, (infoPrefixes_infosetWith _).1, (infoPrefixes_infosetWith _).1] at hpre
    exact (hiff r hr).mp (List.map_inj_left.mp hpre r hr)
  · intro hspace
    exact infosetWith_congr.1 _ _ fun r hr => (hiff r hr).mpr (hspace r hr)

/-- Under Exclusive C14N, what is written for an element of a namespace-well-formed
    document reads back as one element with the same infoset and the same canonical form
    exactly when no element prefix holds white space and no processing instruction, nor a
    comment that is kept, holds a carriage return; it reads back with the same canonical
    form exactly when the latter holds; and two elements without white space in prefixes
    and with the same canonical form carry the same infoset. Comments are no part of the
    infoset. -/
theorem exclusive_c14n_faithful_iff (profile : WsSecCanonicalizationProfile)
    (hkind : profile.kind = .exclusive) (override : Option (List Str)) (up : List Tree) (hs : ScopeOk up) (path : List Nat)
    (q : QName) (ds : List (Str × Str)) (as : List Attr) (cs : List Tree)
    (hwf : WellFormed up (.element q ds as cs)) (text : Str)
    (h : serializeSubtree profile override none .empty 0 up path (.element q ds as cs) =
      some text) :
    (Faithful profile override up (.element q ds as cs) text ↔
      NoSpaceInPrefixes (.element q ds as cs) ∧
        NoReturn profile.includeComments (.element q ds as cs)) ∧
    ((∃ doc e, parse text = some doc ∧ doc.children = [e] ∧
      serializeSubtree profile override none .empty 0 [.root doc.children] [0] e = some text) ↔
        NoReturn profile.includeComments (.element q ds as cs)) ∧
    (∀ up' path' q' ds' as' cs', ScopeOk up' → WellFormed up' (.element q' ds' as' cs') →
      serializeSubtree profile override none .empty 0 up' path' (.element q' ds' as' cs') =
        some text →
      NoSpaceInPrefixes (.element q ds as cs) → NoSpaceInPrefixes (.element q' ds' as' cs') →
      infoset up (.element q ds as cs) = infoset up' (.element q' ds' as' cs')) := by
  obtain ⟨rfl, hfits⟩ := text_eq_write hkind hwf h
  obtain ⟨hwf', hcoalesced, hinfo⟩ := canonElement_ok override hkind hs hwf
    [canonElement profile override .empty up q ds as cs]
  have hfixed : (∃ doc e, parse (write textEscape attrEscape
        (canonElement profile override .empty up q ds as cs)) = some doc ∧ doc.children = [e] ∧
      serializeSubtree profile override none .empty 0 [.root doc.children] [0] e =
        some (write textEscape attrEscape
          (canonElement profile override .empty up q ds as cs))) ↔
      NoReturn profile.includeComments (.element q ds as cs) := by
    constructor
    · intro hread
      obtain ⟨doc, e, hparse, hchildren, hagain⟩ := hread
      have hcr := cr_notMem_of_fixed hkind hparse hchildren hagain
      exact noReturn_canonElement.mp ((cr_notMem_write_iff hwf').mp hcr)
    · intro hreturn
      obtain ⟨doc, hparse, hchildren⟩ := reparse override hkind hs hwf hreturn
      refine ⟨doc, _, hparse, hchildren, ?_⟩
      rw [hchildren]
      exact canonElement_again override hkind hs hwf hfits
  refine ⟨⟨?_, ?_⟩, hfixed, ?_⟩
  · intro hfaithful
    obtain ⟨doc', e, hparse', hchildren', hinfo', hagain'⟩ := hfaithful
    have hreturn := hfixed.mp ⟨doc', e, hparse', hchildren', hagain'⟩
    obtain ⟨doc, hparse, hchildren⟩ := reparse override hkind hs hwf hreturn
    obtain rfl : doc = doc' := Option.some.inj (hparse.symm.trans hparse')
    obtain rfl : canonElement profile override .empty up q ds as cs = e := by
      simpa [hchildren] using hchildren'
    rw [hchildren] at hinfo'
    exact ⟨(infosetWith_eq_iff hwf).mp (hinfo.symm.trans hinfo'), hreturn⟩
  · intro hboth
    obtain ⟨doc, hparse, hchildren⟩ := reparse override hkind hs hwf hboth.2
    refine ⟨doc, _, hparse, hchildren, ?_⟩
    rw [hchildren]
    exact ⟨hinfo.trans ((infosetWith_eq_iff hwf).mpr hboth.1),
      canonElement_again override hkind hs hwf hfits⟩
  · intro up' path' q' ds' as' cs' hs' hwfOther h' hspace hspace'
    -- what is printed determines the canonical element
    obtain ⟨htext, -⟩ := text_eq_write hkind hwfOther h'
    obtain ⟨hwf'', hcoalesced', hinfo'⟩ := canonElement_ok override hkind hs' hwfOther
      [canonElement profile override .empty up q ds as cs]
    have helem : canonElement profile override .empty up q ds as cs =
        canonElement profile override .empty up' q' ds' as' cs' :=
      write_injective hwf' hcoalesced hwf'' hcoalesced' htext
    rw [← helem] at hinfo'
    rw [← (infosetWith_eq_iff hwf).mpr hspace, ← (infosetWith_eq_iff hwfOther).mpr hspace',
      ← hinfo, ← hinfo']

end

/-- `<p:a xmlns:p="u" x="&lt;"><!--c-->t<b/></p:a>` is written faithfully. -/
theorem exclusive_c14n_faithful_plain :
    Faithful .exclusive none [] (.element ⟨['p'], ['a']⟩ [(['p'], ['u'])] [⟨⟨[], ['x']⟩, ['<']⟩]
        [.comment ['c'], .text ['t'], .element ⟨[], ['b']⟩ [] [] []])
      "<p:a xmlns:p=\"u\" x=\"&lt;\">t<b></b></p:a>".toList := by
  refine (exclusive_c14n_faithful_iff .exclusive rfl none [] (by decide) [] _ _ _ _
    (by decide +kernel) _ (by decide +kernel)).1.mpr ⟨?_, by simp [NoReturn, NoReturnList]⟩
  intro q hq c hc
  simp only [elementNames, elementNamesList, List.nil_append, List.append_nil, List.mem_cons,
    List.not_mem_nil, or_false] at hq
  obtain rfl | rfl := hq
  · rw [List.mem_singleton.mp hc]
    decide
  · cases hc

-- the carriage return of a processing instruction is written, and reads back as a line feed
example :
    serializeSubtree .exclusive none none .empty 0 [] []
        (.element ⟨[], ['a']⟩ [] [] [.pi ['p'] (some ['x', '\r', 'y'])]) =
      some "<a><?p x\ry?></a>".toList ∧
    (parse "<a><?p x\ry?></a>".toList).map
        (fun doc => writeList textEscape attrEscape doc.children) =
      some "<a><?p x\ny?></a>".toList := by
  decide +kernel

/-- `<a\u1680:c xmlns:a\u1680="u"/>` is well-formed. It is written as `<c xmlns="u"></c>`,
    which reads back with another prefix. -/
theorem exclusive_c14n_loses_ogham_space_mark :
    let t : Tree := .element ⟨['a', '\u1680'], ['c']⟩ [(['a', '\u1680'], ['u'])] [] []
    let text : Str := "<c xmlns=\"u\"></c>".toList
    ScopeOk [] ∧ WellFormed [] t ∧
      serializeSubtree .exclusive none none .empty 0 [] [] t = some text ∧
      ¬ Faithful .exclusive none [] t text := by
  intro t text
  refine ⟨by decide, by decide +kernel, by decide +kernel, ?_⟩
  rintro ⟨doc, e, hparse, hchildren, hinfo, -⟩
  have hread : (parse text).map (fun d => d.children.map fun e => elementNames e) =
      some [[⟨[], ['c']⟩]] := by decide +kernel
  have hnames : elementNames e = [⟨[], ['c']⟩] := by
    simpa [hparse, hchildren] using hread
  have hpre := congrArg infoPrefixesList hinfo
  rw [infoset, infoset, (infoPrefixes_infosetWith _).1, (infoPrefixes_infosetWith _).1,
    hnames] at hpre
  exact absurd hpre (by decide)

end Asx
