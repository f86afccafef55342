import Asx.Xml.Infoset
import Asx.Spec.C14nScope
import Asx.Spec.C14nContext

/-!
# The canonical form carries the infoset

The canonical nodes of a well-formed tree are well-formed, carry its infoset up to the
prefixes that `element_source_prefix` loses, and are their own canonical form.

The induction runs over the tree with the rendered context. `CanonContext` is its
invariant: the trees above the canonical node bind exactly what has been rendered.

## Key results
- `canonNodes_ok`: the canonical form can be read back
- `infoset_canonNodes`: it carries the infoset, up to lost prefixes
- `canonNodes_idem`: canonicalizing it again changes nothing
-/

namespace Asx

open Xml

/-! ## The invariant -/

/-- What relates a node in its document to its canonical form: the document's scope is
    legal, the trees above the canonical node bind what has been rendered, and under
    Inclusive C14N that is what is in scope. -/
structure CanonContext (profile : WsSecCanonicalizationProfile) (parentNs : NsMap)
    (up canonUp : List Tree) : Prop where
  scope : ScopeOk up
  canonScope : ScopeOk canonUp
  bindings : ∀ p, inScope canonUp p = parentNs.get p
  rendered : Rendered profile parentNs up

/-- Under Inclusive C14N no element may lose its prefix. -/
def KeepsPrefixes (profile : WsSecCanonicalizationProfile) (names : List QName) : Prop :=
  profile.kind = .inclusive → ∀ q ∈ names, elementSourcePrefix q = q.pre

section

variable {profile : WsSecCanonicalizationProfile} {override : Option (List Str)}
  {parentNs : NsMap} {up canonUp : List Tree}
  {q : QName} {ds : List (Str × Str)} {as : List Attr} {cs : List Tree}

/-- The declarations of the canonical element. -/
def emittedDecls (profile : WsSecCanonicalizationProfile) (override : Option (List Str))
    (parentNs : NsMap) (chain : List Tree) (q : QName) (as : List Attr) : List (Str × Str) :=
  nsEmitted parentNs (utilizedNamespaces profile override chain q as)

/-- The canonical form of an element. -/
def canonElement (profile : WsSecCanonicalizationProfile) (override : Option (List Str))
    (parentNs : NsMap) (up : List Tree) (q : QName) (ds : List (Str × Str)) (as : List Attr)
    (cs : List Tree) : Tree :=
  .element ⟨elementSourcePrefix q, q.loc⟩
    (emittedDecls profile override parentNs (.element q ds as cs :: up) q as)
    (canonAttrs (.element q ds as cs :: up) as)
    (canonNodesList profile override
      (childNs profile override parentNs (.element q ds as cs :: up) q as)
      (.element q ds as cs :: up) cs)

/-- The canonical element: its rendered declarations, its sorted attributes, its canonical
    children. -/
theorem canonNodes_element (profile : WsSecCanonicalizationProfile) (override : Option (List Str))
    (parentNs : NsMap) (up : List Tree) (q : QName) (ds : List (Str × Str)) (as : List Attr)
    (cs : List Tree) :
    canonNodes profile override parentNs up (.element q ds as cs) =
      [canonElement profile override parentNs up q ds as cs] := by
  rw [canonNodes]
  rfl

/-- A well-formed start tag continues a scope. -/
theorem scopeOk_cons (htag : StartTagOk (.element q ds as cs :: up) q ds as) (h : ScopeOk up) :
    ScopeOk (.element q ds as cs :: up) := by
  intro t ht
  cases List.mem_cons.mp ht with
  | inl heq =>
    subst heq
    exact ⟨htag.decls, htag.declsNodup⟩
  | inr hmem => exact h t hmem

/-- The declarations that are rendered are legal. -/
private theorem emittedDecls_ok (hs : ScopeOk (.element q ds as cs :: up))
    (htag : StartTagOk (.element q ds as cs :: up) q ds as) :
    ∀ d ∈ emittedDecls profile override parentNs (.element q ds as cs :: up) q as, DeclOk d := by
  rintro ⟨p, u⟩ hd
  have hmem := (List.mem_filter.mp hd).1
  exact declOk_of_utilized hs htag (OrdMap.lookup_of_mem (OrdMap.sorted _) hmem)

/-- A prefix is rendered once. -/
private theorem emittedDecls_nodup (chain : List Tree) :
    ((emittedDecls profile override parentNs chain q as).map Prod.fst).Nodup := by
  have hs := nsEmitted_sorted parentNs (utilizedNamespaces profile override chain q as)
  exact (List.pairwise_map.mpr hs).imp ne_of_lt

/-- Below an element the invariant holds again. -/
theorem CanonContext.child (h : CanonContext profile parentNs up canonUp)
    (override : Option (List Str)) (htag : StartTagOk (.element q ds as cs :: up) q ds as) :
    CanonContext profile (childNs profile override parentNs (.element q ds as cs :: up) q as)
      (.element q ds as cs :: up)
      (canonElement profile override parentNs up q ds as cs :: canonUp) := by
  have hs := scopeOk_cons htag h.scope
  refine ⟨hs, ?_, ?_, rendered_extend hs h.rendered⟩
  · intro t ht
    cases List.mem_cons.mp ht with
    | inl heq =>
      subst heq
      exact ⟨emittedDecls_ok hs htag, emittedDecls_nodup _⟩
    | inr hmem => exact h.canonScope t hmem
  · intro p
    rw [inScope_cons, childNs, OrdMap.get_extend _ (nsEmitted_sorted _ _), h.bindings]
    rfl

/-- In the canonical form a name resolves through the rendered context. -/
private theorem resolve_of_bindings {canonChain : List Tree} {rendered : NsMap}
    (h : ∀ p, inScope canonChain p = rendered.get p) (p : Str) :
    resolve canonChain p = resolveIn rendered p := by
  rw [resolve, resolveIn, h p]

/-- The element's name means the same in the canonical form. -/
theorem CanonContext.resolve_tag (h : CanonContext profile parentNs up canonUp)
    (override : Option (List Str)) (htag : StartTagOk (.element q ds as cs :: up) q ds as)
    (hkeep : profile.kind = .inclusive → elementSourcePrefix q = q.pre) :
    resolve (canonElement profile override parentNs up q ds as cs :: canonUp)
      (elementSourcePrefix q) = resolve (.element q ds as cs :: up) q.pre := by
  rw [resolve_of_bindings (h.child override htag).bindings,
    resolveIn_tag (scopeOk_cons htag h.scope) htag h.rendered hkeep]

/-- The names of its attributes mean the same in the canonical form. -/
theorem CanonContext.resolve_attr (h : CanonContext profile parentNs up canonUp)
    (override : Option (List Str)) (htag : StartTagOk (.element q ds as cs :: up) q ds as)
    {a : Attr} (ha : a ∈ as) :
    resolveAttr (canonElement profile override parentNs up q ds as cs :: canonUp) a.name.pre =
      resolveAttr (.element q ds as cs :: up) a.name.pre := by
  by_cases hpre : a.name.pre = []
  · simp [resolveAttr, hpre]
  · simp only [resolveAttr, if_neg hpre]
    rw [resolve_of_bindings (h.child override htag).bindings,
      resolveIn_attr (scopeOk_cons htag h.scope) htag h.rendered ha hpre]

/-! ## The canonical form can be read back -/

/-- Sorting keeps the attributes. -/
private theorem mem_canonAttrs {chain : List Tree} {a : Attr} :
    a ∈ canonAttrs chain as ↔ a ∈ as := (List.perm_insertionSort _ as).mem_iff

/-- The start tag of the canonical element is well-formed. -/
private theorem canonTag_ok (h : CanonContext profile parentNs up canonUp)
    (htag : StartTagOk (.element q ds as cs :: up) q ds as)
    (hkeep : profile.kind = .inclusive → elementSourcePrefix q = q.pre) :
    StartTagOk (canonElement profile override parentNs up q ds as cs :: canonUp)
      ⟨elementSourcePrefix q, q.loc⟩
      (emittedDecls profile override parentNs (.element q ds as cs :: up) q as)
      (canonAttrs (.element q ds as cs :: up) as) := by
  have hesp := elementSourcePrefix_cases htag.name.1
  have hattr := fun {a} (ha : a ∈ as) => h.resolve_attr override htag ha
  refine ⟨⟨⟨?_, htag.name.1.2⟩, ?_⟩, ?_, emittedDecls_ok (scopeOk_cons htag h.scope) htag,
    emittedDecls_nodup _, ?_, ?_⟩
  · -- its name
    exact hesp.elim (fun heq => heq ▸ htag.name.1.1) .inl
  · cases hesp with
    | inl heq => exact heq ▸ htag.name.2
    | inr heq =>
      rw [heq]
      exact (by decide : ([] : Str) ≠ xmlnsPre)
  · -- the written prefix is bound when the original one is
    cases hesp with
    | inl heq =>
      refine htag.bound.imp (fun hnil => heq.trans hnil) fun hsome => ?_
      rw [h.resolve_tag override htag hkeep]
      exact hsome
    | inr heq => exact .inl heq
  · intro a ha
    have hmem := mem_canonAttrs.mp ha
    obtain ⟨hname, hxmlns, hbound, hchars⟩ := htag.attrs a hmem
    refine ⟨hname, hxmlns, ?_, hchars⟩
    by_cases hpre : a.name.pre = []
    · exact .inl hpre
    · have hres := hattr hmem
      simp only [resolveAttr, if_neg hpre] at hres
      exact .inr (hres ▸ hbound.resolve_left hpre)
  · -- expanded names are the same, in another order
    have hmap : ∀ a ∈ canonAttrs (.element q ds as cs :: up) as,
        expandedName (canonElement profile override parentNs up q ds as cs :: canonUp) a =
          expandedName (.element q ds as cs :: up) a := by
      intro a ha
      simp only [expandedName, hattr (mem_canonAttrs.mp ha)]
    rw [List.map_congr_left hmap]
    exact ((List.perm_insertionSort _ as).map _).nodup_iff.mpr htag.attrsNodup

/-- Merging keeps content well-formed. -/
theorem wellFormedList_consNode {t : Tree} {ts : List Tree} (ht : WellFormed up t)
    (hts : WellFormedList up ts) : WellFormedList up (consNode t ts) := by
  unfold consNode
  split
  · rw [WellFormedList, WellFormed] at hts
    rw [WellFormed] at ht
    rw [WellFormedList, WellFormed]
    refine ⟨?_, hts.2⟩
    intro c hc
    exact (List.mem_append.mp hc).elim (ht c) (hts.1 c)
  · exact hts
  · rw [WellFormedList]
    exact ⟨ht, hts⟩

/-- Text in normal content is not followed by text. -/
private theorem consNode_text_of_coalesced {s s' : Str} {ts : List Tree}
    (h : consNode (.text s') ts = .text s' :: ts) (hne : s ++ s' ≠ []) :
    consNode (.text (s ++ s')) ts = .text (s ++ s') :: ts := by
  cases ts with
  | nil =>
    cases hs : s ++ s' with
    | nil => exact absurd hs hne
    | cons c r => rfl
  | cons t ts =>
    cases t with
    | text s'' => exact absurd (congrArg List.length h) (by simp [consNode])
    | _ =>
      cases hs : s ++ s' with
      | nil => exact absurd hs hne
      | cons c r => rfl

/-- Merging leaves content in normal form; text in front may be empty. -/
private theorem coalescedList_consNode {t : Tree} {ts : List Tree}
    (ht : t.isText = true ∨ Coalesced t) (hts : CoalescedList ts) : CoalescedList (consNode t ts) := by
  unfold consNode
  split
  · rename_i s s' ts
    rw [CoalescedList, Coalesced] at hts
    have hne : s ++ s' ≠ [] := by simp [hts.2.1]
    rw [CoalescedList, Coalesced]
    exact ⟨consNode_text_of_coalesced hts.1 hne, hne, hts.2.2⟩
  · exact hts
  · rename_i hnil hmerge
    rw [CoalescedList]
    have hcons : consNode t ts = t :: ts := by
      unfold consNode
      split
      · rename_i s s' ts
        exact (hmerge s s' ts rfl rfl).elim
      · rename_i ts hts
        exact (hnil rfl).elim
      · rfl
    refine ⟨hcons, ht.elim (fun htext => ?_) id, hts⟩
    cases t with
    | text s =>
      rw [Coalesced]
      rintro rfl
      exact hnil rfl
    | _ => cases htext

/-- Joining texts keeps well-formed lists so. -/
private theorem foldr_consNode_ok {l ts : List Tree}
    (hl : ∀ n ∈ l, WellFormed up n ∧ (n.isText = true ∨ Coalesced n))
    (hts : WellFormedList up ts ∧ CoalescedList ts) :
    WellFormedList up (l.foldr consNode ts) ∧ CoalescedList (l.foldr consNode ts) := by
  induction l with
  | nil => exact hts
  | cons n l ih =>
    have hn := hl n List.mem_cons_self
    have hrec := ih fun m hm => hl m (List.mem_cons_of_mem _ hm)
    exact ⟨wellFormedList_consNode hn.1 hrec.1, coalescedList_consNode hn.2 hrec.2⟩

private theorem piOk_filter {target : Str} {data : Option Str} (h : PiOk target data) :
    PiOk target (data.filter (· ≠ [])) := by
  refine ⟨h.1, h.2.1, fun d hd => h.2.2 d ?_⟩
  exact (Option.filter_eq_some_iff.mp hd).1

/-- The canonical form is well-formed, and in the form a parser produces. -/
theorem canonNodes_ok (profile : WsSecCanonicalizationProfile)
    (override : Option (List Str)) :
    (∀ t : Tree, ∀ parentNs up canonUp, CanonContext profile parentNs up canonUp →
      WellFormed up t → KeepsPrefixes profile (elementNames t) →
      ∀ n ∈ canonNodes profile override parentNs up t,
        WellFormed canonUp n ∧ (n.isText = true ∨ Coalesced n)) ∧
    (∀ ts : List Tree, ∀ parentNs up canonUp, CanonContext profile parentNs up canonUp →
      WellFormedList up ts → KeepsPrefixes profile (elementNamesList ts) →
      WellFormedList canonUp (canonNodesList profile override parentNs up ts) ∧
        CoalescedList (canonNodesList profile override parentNs up ts)) := by
  refine Tree.induction ?_ ?_ ?_ ?_ ?_ ?_ ?_
  · -- root
    intro cs _ parentNs up canonUp _ hwf
    exact absurd hwf (by simp [WellFormed])
  · -- element
    intro q ds as cs ih parentNs up canonUp hctx hwf hkeep n hn
    rw [WellFormed] at hwf
    rw [elementNames] at hkeep
    have hkeepTag : profile.kind = .inclusive → elementSourcePrefix q = q.pre :=
      fun hk => hkeep hk q List.mem_cons_self
    rw [canonNodes_element, List.mem_singleton] at hn
    subst hn
    have hcontent := ih _ _ _ (hctx.child override hwf.1) hwf.2
      fun hk r hr => hkeep hk r (List.mem_cons_of_mem _ hr)
    rw [canonElement, WellFormed, Coalesced]
    exact ⟨⟨canonTag_ok hctx hwf.1 hkeepTag, hcontent.1⟩, .inr hcontent.2⟩
  · -- text
    intro s parentNs up canonUp _ hwf _ n hn
    rw [canonNodes, List.mem_singleton] at hn
    subst hn
    rw [WellFormed] at hwf ⊢
    exact ⟨hwf, .inl rfl⟩
  · -- comment
    intro s parentNs up canonUp _ hwf _ n hn
    rw [canonNodes] at hn
    split at hn
    · rw [List.mem_singleton] at hn
      subst hn
      rw [WellFormed] at hwf ⊢
      exact ⟨hwf, .inr (by simp [Coalesced])⟩
    · cases hn
  · -- processing instruction
    intro target data parentNs up canonUp _ hwf _ n hn
    rw [canonNodes, List.mem_singleton] at hn
    subst hn
    rw [WellFormed] at hwf ⊢
    refine ⟨piOk_filter hwf, .inr ?_⟩
    rw [Coalesced]
    intro hnil
    have := (Option.filter_eq_some_iff.mp hnil).2
    cases this
  · -- no child left
    intro parentNs up canonUp _ _ _
    simp [canonNodesList, WellFormedList, CoalescedList]
  · -- the first child and the rest
    intro t ts iht ihts parentNs up canonUp hctx hwf hkeep
    rw [WellFormedList] at hwf
    rw [elementNamesList] at hkeep
    rw [canonNodesList]
    exact foldr_consNode_ok
      (iht parentNs up canonUp hctx hwf.1 fun hk r hr => hkeep hk r (List.mem_append_left _ hr))
      (ihts parentNs up canonUp hctx hwf.2 fun hk r hr => hkeep hk r (List.mem_append_right _ hr))

/-! ## The infoset -/

/-- The canonical form carries the infoset, with the prefixes that were written. -/
theorem infoset_canonNodes (profile : WsSecCanonicalizationProfile)
    (override : Option (List Str)) :
    (∀ t : Tree, ∀ parentNs up canonUp, CanonContext profile parentNs up canonUp →
      WellFormed up t → KeepsPrefixes profile (elementNames t) →
      (canonNodes profile override parentNs up t).flatMap (infosetWith QName.pre canonUp) =
        infosetWith elementSourcePrefix up t) ∧
    (∀ ts : List Tree, ∀ parentNs up canonUp, CanonContext profile parentNs up canonUp →
      WellFormedList up ts → KeepsPrefixes profile (elementNamesList ts) →
      infosetWithList QName.pre canonUp (canonNodesList profile override parentNs up ts) =
        infosetWithList elementSourcePrefix up ts) := by
  refine Tree.induction ?_ ?_ ?_ ?_ ?_ ?_ ?_
  · -- root
    intro cs _ parentNs up canonUp _ hwf
    exact absurd hwf (by simp [WellFormed])
  · -- element
    intro q ds as cs ih parentNs up canonUp hctx hwf hkeep
    rw [WellFormed] at hwf
    rw [elementNames] at hkeep
    have hkeepTag : profile.kind = .inclusive → elementSourcePrefix q = q.pre :=
      fun hk => hkeep hk q List.mem_cons_self
    have hcontent := ih _ _ _ (hctx.child override hwf.1) hwf.2
      fun hk r hr => hkeep hk r (List.mem_cons_of_mem _ hr)
    have htag := hctx.resolve_tag override hwf.1 hkeepTag
    have hattrs : ∀ a ∈ canonAttrs (.element q ds as cs :: up) as,
        attrInfo (canonElement profile override parentNs up q ds as cs :: canonUp) a =
          attrInfo (.element q ds as cs :: up) a := by
      intro a ha
      simp only [attrInfo, hctx.resolve_attr override hwf.1 (mem_canonAttrs.mp ha)]
    have hperm : ((canonAttrs (.element q ds as cs :: up) as).map
        (attrInfo (.element q ds as cs :: up)) : Multiset AttrInfo) =
        (as.map (attrInfo (.element q ds as cs :: up)) : Multiset AttrInfo) :=
      Multiset.coe_eq_coe.mpr ((List.perm_insertionSort _ as).map _)
    rw [canonNodes_element, List.flatMap_singleton]
    rw [canonElement] at htag hattrs hcontent ⊢
    simp only [infosetWith, htag, List.map_congr_left hattrs, hperm, hcontent]
  · -- text
    intro s parentNs up canonUp _ _ _
    simp [canonNodes, infosetWith]
  · -- comment
    intro s parentNs up canonUp _ _ _
    simp only [canonNodes]
    split <;> simp [infosetWith]
  · -- processing instruction
    intro target data parentNs up canonUp _ _ _
    simp only [canonNodes, List.flatMap_cons, List.flatMap_nil, List.append_nil, infosetWith]
    cases data with
    | none => rfl
    | some d => by_cases hd : d = [] <;> simp [hd, Option.filter_some]
  · -- no child left
    intro parentNs up canonUp _ _ _
    simp [canonNodesList, infosetWithList]
  · -- the first child and the rest
    intro t ts iht ihts parentNs up canonUp hctx hwf hkeep
    rw [WellFormedList] at hwf
    rw [elementNamesList] at hkeep
    have ht := iht parentNs up canonUp hctx hwf.1
      fun hk r hr => hkeep hk r (List.mem_append_left _ hr)
    have hts := ihts parentNs up canonUp hctx hwf.2
      fun hk r hr => hkeep hk r (List.mem_append_right _ hr)
    rw [canonNodesList, infosetWithList_foldr, ht, hts, infosetWithList]

/-! ## Canonicalizing again -/

private theorem elementSourcePrefix_idem (hq : q.IsName) :
    elementSourcePrefix ⟨elementSourcePrefix q, q.loc⟩ = elementSourcePrefix q := by
  have hname : QName.IsName ⟨elementSourcePrefix q, q.loc⟩ :=
    ⟨(elementSourcePrefix_cases hq).elim (fun heq => heq ▸ hq.1) .inl, hq.2⟩
  refine (elementSourcePrefix_eq_pre_iff hname).mpr fun c hc => ?_
  cases elementSourcePrefix_cases hq with
  | inl heq => exact (elementSourcePrefix_eq_pre_iff hq).mp heq c (heq ▸ hc)
  | inr heq =>
    rw [heq] at hc
    cases hc

/-- The order of the attributes is total. -/
theorem attrRow_le_total (a b : AttrRow) : a.le b ∨ b.le a := by
  simp only [AttrRow.le]
  rcases lt_trichotomy (a.ns.getD []) (b.ns.getD []) with h | h | h
  · exact .inl (.inl h)
  · exact (le_total a.loc b.loc).imp (fun hl => .inr ⟨h, hl⟩) fun hl => .inr ⟨h.symm, hl⟩
  · exact .inr (.inl h)

/-- The order of the attributes is transitive. -/
theorem attrRow_le_trans {a b c : AttrRow} (hab : a.le b) (hbc : b.le c) : a.le c := by
  simp only [AttrRow.le] at *
  rcases hab with hab | ⟨hab, hl⟩
  · rcases hbc with hbc | ⟨hbc, -⟩
    · exact .inl (hab.trans hbc)
    · exact .inl (hbc ▸ hab)
  · rcases hbc with hbc | ⟨hbc, hl'⟩
    · exact .inl (hab ▸ hbc)
    · exact .inr ⟨hab.trans hbc, hl.trans hl'⟩

/-- Sorted attributes stay where they are, since their expanded names do. -/
private theorem canonAttrs_idem (override : Option (List Str))
    (hctx : CanonContext profile parentNs up canonUp)
    (htag : StartTagOk (.element q ds as cs :: up) q ds as) :
    canonAttrs (canonElement profile override parentNs up q ds as cs :: canonUp)
      (canonAttrs (.element q ds as cs :: up) as) = canonAttrs (.element q ds as cs :: up) as := by
  have htotal : Std.Total fun a b : Attr => (attrRow (.element q ds as cs :: up) a).le
      (attrRow (.element q ds as cs :: up) b) := ⟨fun a b => attrRow_le_total _ _⟩
  have htrans : IsTrans Attr fun a b => (attrRow (.element q ds as cs :: up) a).le
      (attrRow (.element q ds as cs :: up) b) := ⟨fun a b c => attrRow_le_trans⟩
  have hsorted := List.pairwise_insertionSort (fun a b => (attrRow (.element q ds as cs :: up) a).le
    (attrRow (.element q ds as cs :: up) b)) as
  refine List.Pairwise.insertionSort_eq (hsorted.imp_of_mem fun {a b} ha hb hab => ?_)
  have hrow : ∀ c ∈ canonAttrs (.element q ds as cs :: up) as,
      attrRow (canonElement profile override parentNs up q ds as cs :: canonUp) c =
        attrRow (.element q ds as cs :: up) c := by
    intro c hc
    simp only [attrRow, hctx.resolve_attr override htag (mem_canonAttrs.mp hc)]
  rwa [hrow a ha, hrow b hb]

/-- A binding that is rendered already is not emitted again. -/
theorem shouldEmit_rendered {p u : Str} (h : parentNs.get p = some u) :
    shouldEmit parentNs (p, u) = false := by
  simp only [shouldEmit]
  split
  · rename_i hnil
    obtain ⟨rfl, rfl⟩ := hnil
    simp [h]
  · simp [h]

/-- What an element declares is what differs from above, and it is all that does: of the
    bindings in scope below it, selected by `ok`, it would declare the same again. -/
private theorem emit_rendered (ok : Str → Bool) {o : Option Str} (hok : ∀ u ∈ o, ok u = true)
    (p : Str) :
    ((((o.filter fun u => shouldEmit parentNs (p, u)).or (parentNs.get p)).filter ok).filter
        fun u => shouldEmit parentNs (p, u)) =
      o.filter fun u => shouldEmit parentNs (p, u) := by
  cases ho : o.filter fun u => shouldEmit parentNs (p, u) with
  | some u =>
    obtain ⟨hmem, hu⟩ := Option.filter_eq_some_iff.mp ho
    rw [Option.some_or, Option.filter_some, if_pos (hok u hmem), Option.filter_some, if_pos hu]
  | none =>
    rw [Option.none_or]
    cases hg : parentNs.get p with
    | none => rfl
    | some u => by_cases h : ok u = true <;> simp [Option.filter_some, h, shouldEmit_rendered hg]

/-- The canonical element, in its own context, utilizes what it declares: the names it
    utilizes are those of the original, and for any other prefix only what is rendered
    is in scope. -/
private theorem emittedDecls_idem (override : Option (List Str))
    (hctx : CanonContext profile parentNs up canonUp)
    (htag : StartTagOk (.element q ds as cs :: up) q ds as)
    (hkeep : profile.kind = .inclusive → elementSourcePrefix q = q.pre) :
    emittedDecls profile override parentNs
        (canonElement profile override parentNs up q ds as cs :: canonUp)
        ⟨elementSourcePrefix q, q.loc⟩ (canonAttrs (.element q ds as cs :: up) as) =
      emittedDecls profile override parentNs (.element q ds as cs :: up) q as := by
  have hchild := hctx.child override htag
  have hscope : ∀ p, inScope (canonElement profile override parentNs up q ds as cs :: canonUp) p =
      (((utilizedNamespaces profile override (.element q ds as cs :: up) q as).get p).filter
        fun u => shouldEmit parentNs (p, u)).or (parentNs.get p) := by
    intro p
    rw [hchild.bindings, childNs, get_extend_nsEmitted]
  refine OrdMap.entries_filter_ext fun p => ?_
  cases hkind : profile.kind with
  | inclusive =>
    have hu : (utilizedNamespaces profile override
        (canonElement profile override parentNs up q ds as cs :: canonUp)
        ⟨elementSourcePrefix q, q.loc⟩ (canonAttrs (.element q ds as cs :: up) as)).get p =
        inScope (canonElement profile override parentNs up q ds as cs :: canonUp) p := by
      simp only [utilizedNamespaces, hkind]
      exact get_utilizedInclusive hchild.canonScope p
    rw [hu, hscope]
    simpa using emit_rendered (fun _ => true) (fun _ _ => rfl) p
  | exclusive =>
    have hcolon' : ∀ a ∈ canonAttrs (.element q ds as cs :: up) as, ':' ∉ a.name.loc :=
      fun a ha => colon_notMem_attrs htag a (mem_canonAttrs.mp ha)
    have hget := get_utilizedExclusive hkind override q (colon_notMem_attrs htag)
      (.element q ds as cs :: up) p
    have hget' := get_utilizedExclusive hkind override ⟨elementSourcePrefix q, q.loc⟩ hcolon'
      (canonElement profile override parentNs up q ds as cs :: canonUp) p
    -- the names utilize the same bindings as before
    have htagEq : utilizedTag (canonElement profile override parentNs up q ds as cs :: canonUp)
        ⟨elementSourcePrefix q, q.loc⟩ = utilizedTag (.element q ds as cs :: up) q := by
      simp only [utilizedTag, hctx.resolve_tag override htag hkeep,
        elementSourcePrefix_idem htag.name.1]
    have hmem : p ∈ (canonAttrs (.element q ds as cs :: up) as).map (fun a => a.name.pre) ↔
        p ∈ as.map (fun a => a.name.pre) :=
      ((List.perm_insertionSort _ as).map _).mem_iff
    have hattrEq : (if p ≠ [] ∧ p ∈ (canonAttrs (.element q ds as cs :: up) as).map
          (fun a => a.name.pre) then
          (resolve (canonElement profile override parentNs up q ds as cs :: canonUp) p).filter
            (· ≠ xmlNs) else none) =
        (if p ≠ [] ∧ p ∈ as.map (fun a => a.name.pre) then
          (resolve (.element q ds as cs :: up) p).filter (· ≠ xmlNs) else none) := by
      simp only [hmem]
      split
      · rename_i hp
        obtain ⟨a, ha, rfl⟩ := List.mem_map.mp hp.2
        have hres := hctx.resolve_attr override htag ha
        simp only [resolveAttr, if_neg hp.1] at hres
        rw [hres]
      · rfl
    rw [hget', htagEq, hattrEq, hget]
    cases hv : (if p ≠ [] ∧ p ∈ as.map (fun a => a.name.pre) then
        (resolve (.element q ds as cs :: up) p).filter (· ≠ xmlNs) else none).or
        ((utilizedTag (.element q ds as cs :: up) q).get p) with
    | some u => rfl
    | none =>
      rw [hv, Option.none_or] at hget
      simp only [Option.none_or]
      -- a token of the `PrefixList` only
      simp only [tokenBinding] at hget ⊢
      split
      · rename_i hp
        rw [if_pos hp] at hget
        rw [hscope, hget]
        exact emit_rendered (· ≠ xmlNs) (fun u hu => (Option.filter_eq_some_iff.mp hu).2) p
      · rfl

private theorem mem_consNode {t n : Tree} {ts : List Tree} (h : n ∈ consNode t ts) :
    n = t ∨ n ∈ ts ∨ n.isText = true := by
  unfold consNode at h
  split at h
  · cases List.mem_cons.mp h with
    | inl heq => exact .inr (.inr (heq ▸ rfl))
    | inr hmem => exact .inr (.inl (List.mem_cons_of_mem _ hmem))
  · exact .inr (.inl h)
  · exact (List.mem_cons.mp h).imp_right .inl

private theorem canonNodes_text {n : Tree} (h : n.isText = true) :
    canonNodes profile override parentNs canonUp n = [n] := by
  cases n with
  | text s => rw [canonNodes]
  | _ => cases h

/-- Coalesced content whose nodes are canonical is canonical. -/
private theorem canonNodesList_of_fixed {l : List Tree}
    (h : ∀ n ∈ l, canonNodes profile override parentNs canonUp n = [n]) (hn : CoalescedList l) :
    canonNodesList profile override parentNs canonUp l = l := by
  induction l with
  | nil => rw [canonNodesList]
  | cons n l ih =>
    rw [CoalescedList] at hn
    rw [canonNodesList, h n List.mem_cons_self, ih (fun m hm => h m (List.mem_cons_of_mem _ hm))
      hn.2.2]
    exact hn.1

/-- Every node of the canonical form is its own canonical form. -/
theorem canonNodes_idem (profile : WsSecCanonicalizationProfile)
    (override : Option (List Str)) :
    (∀ t : Tree, ∀ parentNs up canonUp, CanonContext profile parentNs up canonUp →
      WellFormed up t → KeepsPrefixes profile (elementNames t) →
      ∀ n ∈ canonNodes profile override parentNs up t,
        canonNodes profile override parentNs canonUp n = [n]) ∧
    (∀ ts : List Tree, ∀ parentNs up canonUp, CanonContext profile parentNs up canonUp →
      WellFormedList up ts → KeepsPrefixes profile (elementNamesList ts) →
      ∀ n ∈ canonNodesList profile override parentNs up ts,
        canonNodes profile override parentNs canonUp n = [n]) := by
  refine Tree.induction ?_ ?_ ?_ ?_ ?_ ?_ ?_
  · -- root
    intro cs _ parentNs up canonUp _ hwf
    exact absurd hwf (by simp [WellFormed])
  · -- element
    intro q ds as cs ih parentNs up canonUp hctx hwf hkeep n hn
    rw [WellFormed] at hwf
    rw [elementNames] at hkeep
    have hkeepTag : profile.kind = .inclusive → elementSourcePrefix q = q.pre :=
      fun hk => hkeep hk q List.mem_cons_self
    have hkeepList : KeepsPrefixes profile (elementNamesList cs) :=
      fun hk r hr => hkeep hk r (List.mem_cons_of_mem _ hr)
    rw [canonNodes_element, List.mem_singleton] at hn
    subst hn
    have hchild := hctx.child override hwf.1
    have hemit := emittedDecls_idem override hctx hwf.1 hkeepTag
    have hfixed := canonNodesList_of_fixed (ih _ _ _ hchild hwf.2 hkeepList)
      ((canonNodes_ok profile override).2 cs _ _ _ hchild hwf.2 hkeepList).2
    have hchildNs : childNs profile override parentNs
        (canonElement profile override parentNs up q ds as cs :: canonUp)
        ⟨elementSourcePrefix q, q.loc⟩ (canonAttrs (.element q ds as cs :: up) as) =
        childNs profile override parentNs (.element q ds as cs :: up) q as :=
      congrArg parentNs.extend hemit
    have hattrs := canonAttrs_idem override hctx hwf.1
    rw [canonElement] at hemit hchildNs hattrs hfixed
    rw [canonElement, canonNodes_element, canonElement]
    simp only [hemit, hchildNs, hattrs, hfixed, elementSourcePrefix_idem hwf.1.name.1]
  · -- text
    intro s parentNs up canonUp _ _ _ n hn
    rw [canonNodes, List.mem_singleton] at hn
    exact canonNodes_text (hn ▸ rfl)
  · -- comment
    intro s parentNs up canonUp _ _ _ n hn
    rw [canonNodes] at hn
    split at hn
    · rename_i hc
      rw [List.mem_singleton] at hn
      subst hn
      rw [canonNodes, if_pos hc]
    · cases hn
  · -- processing instruction
    intro target data parentNs up canonUp _ _ _ n hn
    rw [canonNodes, List.mem_singleton] at hn
    subst hn
    simp [canonNodes]
  · -- no child left
    intro parentNs up canonUp _ _ _ n hn
    rw [canonNodesList] at hn
    cases hn
  · -- the first child and the rest
    intro t ts iht ihts parentNs up canonUp hctx hwf hkeep
    rw [WellFormedList] at hwf
    rw [elementNamesList] at hkeep
    have ht := iht parentNs up canonUp hctx hwf.1
      fun hk r hr => hkeep hk r (List.mem_append_left _ hr)
    have hts := ihts parentNs up canonUp hctx hwf.2
      fun hk r hr => hkeep hk r (List.mem_append_right _ hr)
    rw [canonNodesList]
    -- nodes come from the child, from the rest, or are merged text
    generalize canonNodes profile override parentNs up t = l at ht
    induction l with
    | nil => exact hts
    | cons m l ih =>
      intro n hn
      obtain rfl | hmem | htext := mem_consNode hn
      · exact ht n List.mem_cons_self
      · exact ih (fun k hk => ht k (List.mem_cons_of_mem _ hk)) n hmem
      · exact canonNodes_text htext

/-! ## Depth -/

/-- Joining texts does not change the height. -/
private theorem elementHeightList_consNode (t : Tree) (ts : List Tree) :
    elementHeightList (consNode t ts) = max (elementHeight t) (elementHeightList ts) := by
  unfold consNode
  split <;> simp [elementHeightList, elementHeight]

/-- The canonical form nests as deep as the original. -/
theorem elementHeight_canonNodes (profile : WsSecCanonicalizationProfile)
    (override : Option (List Str)) :
    (∀ t : Tree, ∀ parentNs up,
      elementHeightList (canonNodes profile override parentNs up t) = elementHeight t) ∧
    (∀ ts : List Tree, ∀ parentNs up,
      elementHeightList (canonNodesList profile override parentNs up ts) =
        elementHeightList ts) := by
  refine Tree.induction ?_ ?_ ?_ ?_ ?_ ?_ ?_
  · intro cs ih parentNs up
    simpa [canonNodes, elementHeight] using ih parentNs _
  · intro q ds as cs ih parentNs up
    simp [canonNodes, elementHeightList, elementHeight, ih]
  · intro s parentNs up
    simp [canonNodes, elementHeightList, elementHeight]
  · intro s parentNs up
    simp only [canonNodes]
    split <;> simp [elementHeightList, elementHeight]
  · intro target data parentNs up
    simp [canonNodes, elementHeightList, elementHeight]
  · intro parentNs up
    simp [canonNodesList]
  · intro t ts iht ihts parentNs up
    have hfoldr : ∀ l r : List Tree, elementHeightList (l.foldr consNode r) =
        max (elementHeightList l) (elementHeightList r) := by
      intro l r
      induction l with
      | nil => simp [elementHeightList]
      | cons n l ih =>
        rw [List.foldr_cons, elementHeightList_consNode, ih, elementHeightList, Nat.max_assoc]
    rw [canonNodesList, hfoldr, iht, ihts, elementHeightList]

end

/-! ## Prefixes -/

/-- The names in a well-formed tree are names. -/
theorem isName_elementNames :
    (∀ t : Tree, ∀ up, WellFormed up t → ∀ q ∈ elementNames t, q.IsName) ∧
    (∀ ts : List Tree, ∀ up, WellFormedList up ts → ∀ q ∈ elementNamesList ts, q.IsName) := by
  refine Tree.induction ?_ ?_ ?_ ?_ ?_ ?_ ?_
  · intro cs _ up hwf
    exact absurd hwf (by simp [WellFormed])
  · intro q ds as cs ih up hwf r hr
    rw [WellFormed] at hwf
    rw [elementNames] at hr
    cases List.mem_cons.mp hr with
    | inl heq => exact heq ▸ hwf.1.name.1
    | inr hmem => exact ih _ hwf.2 r hmem
  · intro s up _ q hq
    cases hq
  · intro s up _ q hq
    cases hq
  · intro target data up _ q hq
    cases hq
  · intro up _ q hq
    cases hq
  · intro t ts iht ihts up hwf q hq
    rw [WellFormedList] at hwf
    rw [elementNamesList] at hq
    exact (List.mem_append.mp hq).elim (iht up hwf.1 q) (ihts up hwf.2 q)

mutual

/-- The prefixes of the elements of an information item, in document order. -/
def infoPrefixes : Info → List Str
  | .element pre _ _ _ cs => pre :: infoPrefixesList cs
  | _ => []

/-- The prefixes of the elements of a list of information items. -/
def infoPrefixesList : List Info → List Str
  | [] => []
  | i :: is => infoPrefixes i ++ infoPrefixesList is

end

private theorem infoPrefixesList_consInfo (i : Info) (is : List Info) :
    infoPrefixesList (consInfo i is) = infoPrefixes i ++ infoPrefixesList is := by
  unfold consInfo
  split <;> simp [infoPrefixesList, infoPrefixes]

private theorem infoPrefixesList_foldr (l is : List Info) :
    infoPrefixesList (l.foldr consInfo is) = infoPrefixesList l ++ infoPrefixesList is := by
  induction l with
  | nil => simp [infoPrefixesList]
  | cons i l ih =>
    rw [List.foldr_cons, infoPrefixesList_consInfo, ih, infoPrefixesList, List.append_assoc]

/-- The infoset shows the prefix of every element. -/
theorem infoPrefixes_infosetWith (pre : QName → Str) :
    (∀ t : Tree, ∀ up, infoPrefixesList (infosetWith pre up t) = (elementNames t).map pre) ∧
    (∀ ts : List Tree, ∀ up,
      infoPrefixesList (infosetWithList pre up ts) = (elementNamesList ts).map pre) := by
  refine Tree.induction ?_ ?_ ?_ ?_ ?_ ?_ ?_
  · intro cs ih up
    simpa [infosetWith, elementNames] using ih _
  · intro q ds as cs ih up
    simp [infosetWith, infoPrefixesList, infoPrefixes, elementNames, ih]
  · intro s up
    simp [infosetWith, infoPrefixesList, infoPrefixes, elementNames]
  · intro s up
    simp [infosetWith, infoPrefixesList, elementNames]
  · intro target data up
    simp [infosetWith, infoPrefixesList, infoPrefixes, elementNames]
  · intro up
    simp [infosetWithList, infoPrefixesList, elementNamesList]
  · intro t ts iht ihts up
    simp [infosetWithList, infoPrefixesList_foldr, elementNamesList, iht, ihts]

/-- Reading prefixes in two ways gives the same infoset when they agree on the names. -/
theorem infosetWith_congr {f g : QName → Str} :
    (∀ t : Tree, ∀ up, (∀ q ∈ elementNames t, f q = g q) →
      infosetWith f up t = infosetWith g up t) ∧
    (∀ ts : List Tree, ∀ up, (∀ q ∈ elementNamesList ts, f q = g q) →
      infosetWithList f up ts = infosetWithList g up ts) := by
  refine Tree.induction ?_ ?_ ?_ ?_ ?_ ?_ ?_
  · intro cs ih up h
    simpa [infosetWith] using ih _ h
  · intro q ds as cs ih up h
    rw [elementNames] at h
    simp only [infosetWith, h q List.mem_cons_self,
      ih _ fun r hr => h r (List.mem_cons_of_mem _ hr)]
  · intro s up _
    simp [infosetWith]
  · intro s up _
    simp [infosetWith]
  · intro target data up _
    simp [infosetWith]
  · intro up _
    simp [infosetWithList]
  · intro t ts iht ihts up h
    rw [elementNamesList] at h
    simp only [infosetWithList, iht up fun q hq => h q (List.mem_append_left _ hq),
      ihts up fun q hq => h q (List.mem_append_right _ hq)]

/-- White space is all that can end a name inside of it. -/
theorem nameContinues_iff {n : Str} (hn : isNCName n = true) :
    (∀ c ∈ n, nameContinues c = true) ↔ ∀ c ∈ n, Str.isWhitespace c = false := by
  have hname := isNameChar_of_isNCName hn
  refine forall₂_congr fun c hc => ?_
  have hgt : c ≠ '>' := by
    rintro rfl
    exact absurd (hname _ hc) (by decide)
  have hslash : c ≠ '/' := by
    rintro rfl
    exact absurd (hname _ hc) (by decide)
  simp [nameContinues, hgt, hslash]

end Asx
