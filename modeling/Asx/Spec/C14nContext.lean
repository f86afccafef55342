import Asx.ForStd.List
import Asx.Spec.C14nRender
import Asx.Xml.RoundTrip

/-!
# Exclusive C14N and the enveloping context

An element signed in one envelope may be verified in another. Under Exclusive C14N the
ancestors enter the canonical form only through the bindings of the prefixes that the
subtree visibly uses and of those in the `PrefixList`; this module proves it, by
induction over the subtree with the rendered context generalised.

Two contexts may differ in how they say that there is no default namespace: one
declares `xmlns=""`, the other declares nothing. `Node::namespaces` lists the first as
a binding to the empty URI. The difference shows in one case: `#default` is in the
`PrefixList`, an element has lost its prefix (`elementSourcePrefix`), so that its namespace
was rendered as the default, and an element below it keeps its prefix.

## Key results
- `nsEmitted_congr`: the declarations an element emits are the same in both contexts
- `serializeSubtree_oneBlank`: the contexts that differ in `xmlns=""`
- `exclusive_c14n_context_independent_iff`: when the canonical form is the same
- `exclusive_c14n_context_dependent`: an element that keeps its prefix below one that lost it
-/

namespace Asx

open Xml

/-! ## What a subtree uses -/

mutual

/-- The prefixes visibly used in a subtree: those of its elements, and those of its
    prefixed attributes. -/
def visiblePrefixes : Tree → List Str
  | .element q _ as cs =>
    q.pre :: (as.map fun a => a.name.pre).filter (· ≠ []) ++ visiblePrefixesList cs
  | .root cs => visiblePrefixesList cs
  | _ => []

/-- The prefixes visibly used in a list of subtrees. -/
def visiblePrefixesList : List Tree → List Str
  | [] => []
  | t :: ts => visiblePrefixes t ++ visiblePrefixesList ts

end

mutual

/-- The names of the elements of a subtree. -/
def elementNames : Tree → List QName
  | .element q _ _ cs => q :: elementNamesList cs
  | .root cs => elementNamesList cs
  | _ => []

/-- The names of the elements of a list of subtrees. -/
def elementNamesList : List Tree → List QName
  | [] => []
  | t :: ts => elementNames t ++ elementNamesList ts

end

/-- A prefix has the same binding in two contexts: the same URI, or none in both.
    `xmlns=""` binds the default prefix to none. -/
def SameBinding (up₁ up₂ : List Tree) (pre : Str) : Prop :=
  inScope up₁ pre = inScope up₂ pre ∨
    (pre = [] ∧ nsOfUri (inScope up₁ []) = none ∧ nsOfUri (inScope up₂ []) = none)

/-- `#default` is in the `PrefixList`, and only one of the contexts says `xmlns=""`. -/
def DefaultsDiffer (tokens : List Str) (up₁ up₂ : List Tree) : Prop :=
  [] ∈ tokens.map tokenPrefix ∧ inScope up₁ [] ≠ inScope up₂ []

mutual

/-- Below an element that lost its prefix, and that no default namespace was declared or
    written away since, stands one that keeps its prefix. `lost` says whether such an element
    is above. -/
def KeptBelowLost (lost : Bool) (up : List Tree) : Tree → Prop
  | .element q ds as cs =>
    ds.lookup [] = none ∧
      match resolve (.element q ds as cs :: up) q.pre with
      | none => KeptBelowLostList false (.element q ds as cs :: up) cs
      | some uri =>
        if uri ≠ xmlNs ∧ elementSourcePrefix q = [] then
          KeptBelowLostList true (.element q ds as cs :: up) cs
        else lost = true ∨ KeptBelowLostList false (.element q ds as cs :: up) cs
  | .root cs => KeptBelowLostList lost (.root cs :: up) cs
  | _ => False

/-- `KeptBelowLost` for one of the trees of a list. -/
def KeptBelowLostList (lost : Bool) (up : List Tree) : List Tree → Prop
  | [] => False
  | t :: ts => KeptBelowLost lost up t ∨ KeptBelowLostList lost up ts

end

/-! ## Contexts that agree -/

/-- A prefix that is bound alike for all that is rendered: where the contexts only agree that
    there is no default namespace, no `PrefixList` asks for it. -/
def BindingAgrees (tokens : List Str) (chain₁ chain₂ : List Tree) (pre : Str) : Prop :=
  inScope chain₁ pre = inScope chain₂ pre ∨
    (pre = [] ∧ [] ∉ tokens.map tokenPrefix ∧ nsOfUri (inScope chain₁ []) = none ∧
      nsOfUri (inScope chain₂ []) = none)

section

variable {tokens : List Str} {chain₁ chain₂ : List Tree} {pre : Str}

/-- A node's own declarations keep the agreement. -/
theorem BindingAgrees.cons (h : BindingAgrees tokens chain₁ chain₂ pre) (t : Tree) :
    BindingAgrees tokens (t :: chain₁) (t :: chain₂) pre := by
  cases h with
  | inl heq => exact .inl (by rw [inScope_cons, inScope_cons, heq])
  | inr h =>
    obtain ⟨rfl, hlist, h₁, h₂⟩ := h
    cases hd : t.decls.lookup [] with
    | some uri => exact .inl (by simp [inScope_cons, hd])
    | none =>
      refine .inr ⟨rfl, hlist, ?_, ?_⟩
      · simpa [inScope_cons, hd] using h₁
      · simpa [inScope_cons, hd] using h₂

/-- Agreeing prefixes name the same namespace. -/
theorem BindingAgrees.resolve_eq (h : BindingAgrees tokens chain₁ chain₂ pre) :
    resolve chain₁ pre = resolve chain₂ pre := by
  cases h with
  | inl heq => simp only [resolve, heq]
  | inr h =>
    obtain ⟨rfl, -, h₁, h₂⟩ := h
    simp only [resolve, h₁, h₂]

/-- The tokens of the `PrefixList` that agree are in scope alike. -/
theorem BindingAgrees.inScope_eq (h : BindingAgrees tokens chain₁ chain₂ pre)
    (hpre : pre ∈ tokens.map tokenPrefix) : inScope chain₁ pre = inScope chain₂ pre := by
  cases h with
  | inl heq => exact heq
  | inr h => exact absurd (h.1 ▸ hpre) h.2.1

end

section

variable {parentNs : NsMap} {chain₁ chain₂ : List Tree} {tokens : List Str} {q : QName}
  {attrs : List Attr}

/-- Attribute prefixes that agree name the same namespaces. -/
private theorem resolveAttr_congr {a : Attr} (ha : a ∈ attrs)
    (hattrs : ∀ p ∈ (attrs.map fun a => a.name.pre).filter (· ≠ []),
      inScope chain₁ p = inScope chain₂ p) :
    resolveAttr chain₁ a.name.pre = resolveAttr chain₂ a.name.pre := by
  by_cases hp : a.name.pre = []
  · simp [resolveAttr, hp]
  · have hmem : a.name.pre ∈ (attrs.map fun a => a.name.pre).filter (· ≠ []) :=
      List.mem_filter.mpr ⟨List.mem_map_of_mem ha, by simpa using hp⟩
    simp only [resolveAttr, if_neg hp, resolve, hattrs _ hmem]

/-- The utilized namespaces of the names are the same in both contexts. -/
private theorem utilizedAttrs_congr (utilized : NsMap)
    (hattrs : ∀ p ∈ (attrs.map fun a => a.name.pre).filter (· ≠ []),
      inScope chain₁ p = inScope chain₂ p) :
    utilizedAttrs chain₁ attrs utilized = utilizedAttrs chain₂ attrs utilized := by
  refine List.foldl_ext _ _ _ ?_
  intro m a ha
  rw [resolveAttr_congr ha hattrs]

private theorem utilizedTag_congr (hq : resolve chain₁ q.pre = resolve chain₂ q.pre) :
    utilizedTag chain₁ q = utilizedTag chain₂ q := by
  simp only [utilizedTag, hq]

/-- The declarations an element emits are the same in both contexts. -/
theorem nsEmitted_congr (hq : resolve chain₁ q.pre = resolve chain₂ q.pre)
    (hattrs : ∀ p ∈ (attrs.map fun a => a.name.pre).filter (· ≠ []),
      inScope chain₁ p = inScope chain₂ p)
    (htokens : ∀ p ∈ tokens.map tokenPrefix, inScope chain₁ p = inScope chain₂ p) :
    nsEmitted parentNs (mergeInclusivePrefixes chain₁ tokens
        (utilizedAttrs chain₁ attrs (utilizedTag chain₁ q))) =
      nsEmitted parentNs (mergeInclusivePrefixes chain₂ tokens
        (utilizedAttrs chain₂ attrs (utilizedTag chain₂ q))) := by
  refine OrdMap.entries_filter_ext ?_
  intro p
  rw [get_mergeInclusivePrefixes, get_mergeInclusivePrefixes, utilizedTag_congr hq,
    utilizedAttrs_congr _ hattrs]
  by_cases hp : p ∈ tokens.map tokenPrefix
  · simp only [tokenBinding, htokens p hp]
  · simp only [tokenBinding, if_neg hp]

end

section

variable {profile : WsSecCanonicalizationProfile} {override : Option (List Str)}

/-- The tokens of the `PrefixList` that applies. -/
abbrev listedTokens (profile : WsSecCanonicalizationProfile) (override : Option (List Str)) :
    List Str :=
  override.getD profile.inclusiveNsPrefixes

/-- The prefixes a subtree's canonical form may depend on. -/
private def relevant (profile : WsSecCanonicalizationProfile) (override : Option (List Str))
    (visible : List Str) : List Str :=
  visible ++ (listedTokens profile override).map tokenPrefix

/-- One start tag, in two contexts that emit the same declarations. -/
private theorem writeStartTag_congr (hkind : profile.kind = .exclusive) {parentNs : NsMap}
    (depth : Nat) {chain₁ chain₂ : List Tree} {q : QName} {as : List Attr}
    (hattrs : ∀ p ∈ (as.map fun a => a.name.pre).filter (· ≠ []),
      inScope chain₁ p = inScope chain₂ p)
    (hemit : nsEmitted parentNs (utilizedNamespaces profile override chain₁ q as) =
      nsEmitted parentNs (utilizedNamespaces profile override chain₂ q as)) :
    writeStartTag profile override parentNs (depth == 0) chain₁ q as =
      writeStartTag profile override parentNs (depth == 0) chain₂ q as := by
  have hrows : as.map (attrRow chain₁) = as.map (attrRow chain₂) := by
    refine List.map_congr_left fun a ha => ?_
    simp only [attrRow, resolveAttr_congr ha hattrs]
  simp only [writeStartTag, attrRows, hkind, hemit, hrows, reduceCtorEq, and_false, if_false]

/-- What the contexts of a start tag have in common, as far as the element and the
    `PrefixList` use it. -/
private theorem agrees_startTag {up₁ up₂ : List Tree} {q : QName} {ds : List (Str × Str)}
    {as : List Attr} {cs : List Tree}
    (h : ∀ p ∈ relevant profile override (visiblePrefixes (.element q ds as cs)),
      BindingAgrees (listedTokens profile override) (.element q ds as cs :: up₁)
        (.element q ds as cs :: up₂) p) (hkind : profile.kind = .exclusive) (parentNs : NsMap)
    (depth : Nat) :
    writeStartTag profile override parentNs (depth == 0) (.element q ds as cs :: up₁) q as =
      writeStartTag profile override parentNs (depth == 0) (.element q ds as cs :: up₂) q as := by
  have hin : ∀ p, p ∈ q.pre :: (as.map fun a => a.name.pre).filter (· ≠ []) ∨
      p ∈ (listedTokens profile override).map tokenPrefix →
      BindingAgrees (listedTokens profile override) (.element q ds as cs :: up₁)
        (.element q ds as cs :: up₂) p := by
    intro p hp
    apply h p
    simp only [relevant, visiblePrefixes, List.mem_append]
    cases hp with
    | inl hp => exact .inl (.inl hp)
    | inr hp => exact .inr hp
  have hattrs : ∀ p ∈ (as.map fun a => a.name.pre).filter (· ≠ []),
      inScope (.element q ds as cs :: up₁) p = inScope (.element q ds as cs :: up₂) p := by
    intro p hp
    cases hin p (.inl (List.mem_cons_of_mem _ hp)) with
    | inl heq => exact heq
    | inr hnil =>
      have hne : p ≠ [] := by simpa using (List.mem_filter.mp hp).2
      exact absurd hnil.1 hne
  have hemit : nsEmitted parentNs _ = nsEmitted parentNs _ :=
    nsEmitted_congr (hin q.pre (.inl List.mem_cons_self)).resolve_eq hattrs fun p hp =>
      (hin p (.inr hp)).inScope_eq hp
  refine writeStartTag_congr hkind depth hattrs ?_
  simpa only [utilizedNamespaces, hkind] using hemit

/-- The canonical form of a subtree in two contexts that agree on the prefixes it uses. -/
private theorem serializeSubtree_congr (hkind : profile.kind = .exclusive) :
    (∀ t : Tree, ∀ parentNs depth up₁ up₂ path₁ path₂,
      (∀ p ∈ relevant profile override (visiblePrefixes t),
        BindingAgrees (listedTokens profile override) (t :: up₁) (t :: up₂) p) →
      serializeSubtree profile override none parentNs depth up₁ path₁ t =
        serializeSubtree profile override none parentNs depth up₂ path₂ t) ∧
    (∀ ts : List Tree, ∀ parentNs depth up₁ up₂ path₁ path₂ i,
      (∀ p ∈ relevant profile override (visiblePrefixesList ts),
        BindingAgrees (listedTokens profile override) up₁ up₂ p) →
      serializeChildren profile override none parentNs depth up₁ path₁ i ts =
        serializeChildren profile override none parentNs depth up₂ path₂ i ts) := by
  refine Tree.induction ?_ ?_ ?_ ?_ ?_ ?_ ?_
  · -- root
    intro cs ih parentNs depth up₁ up₂ path₁ path₂ h
    simp only [serializeSubtree, reduceCtorEq, if_false]
    exact ih parentNs depth _ _ path₁ path₂ 0 h
  · -- element
    intro q ds as cs ih parentNs depth up₁ up₂ path₁ path₂ h
    have htag := agrees_startTag h hkind parentNs depth
    have hchildren : ∀ p ∈ relevant profile override (visiblePrefixesList cs),
        BindingAgrees (listedTokens profile override) (.element q ds as cs :: up₁)
          (.element q ds as cs :: up₂) p := by
      intro p hp
      apply h p
      simp only [relevant, visiblePrefixes, List.mem_append] at hp ⊢
      exact hp.imp_left .inr
    simp only [serializeSubtree, reduceCtorEq, if_false]
    rw [ih _ (depth + 1) _ _ path₁ path₂ 0 hchildren, htag]
  · -- text
    intro s parentNs depth up₁ up₂ path₁ path₂ _
    simp only [serializeSubtree, reduceCtorEq, if_false]
  · -- comment
    intro s parentNs depth up₁ up₂ path₁ path₂ _
    simp only [serializeSubtree, reduceCtorEq, if_false]
  · -- processing instruction
    intro target data parentNs depth up₁ up₂ path₁ path₂ _
    simp only [serializeSubtree, reduceCtorEq, if_false]
  · -- no child left
    intro parentNs depth up₁ up₂ path₁ path₂ i _
    simp only [serializeChildren]
  · -- the first child and the rest
    intro t ts iht ihts parentNs depth up₁ up₂ path₁ path₂ i h
    simp only [relevant, visiblePrefixesList, List.mem_append] at h
    have ht := iht parentNs depth up₁ up₂ (i :: path₁) (i :: path₂)
      fun p hp => (h p ((List.mem_append.mp hp).imp_left .inl)).cons t
    have hts := ihts parentNs depth up₁ up₂ path₁ path₂ (i + 1)
      fun p hp => h p ((List.mem_append.mp hp).imp_left .inr)
    simp only [serializeChildren, ht, hts]

/-- Whether serializing succeeds does not depend on the context: only the depth counts. -/
private theorem isSome_serializeSubtree :
    (∀ t : Tree, ∀ parentNs₁ parentNs₂ depth up₁ up₂ path₁ path₂,
      (serializeSubtree profile override none parentNs₁ depth up₁ path₁ t).isSome =
        (serializeSubtree profile override none parentNs₂ depth up₂ path₂ t).isSome) ∧
    (∀ ts : List Tree, ∀ parentNs₁ parentNs₂ depth up₁ up₂ path₁ path₂ i,
      (serializeChildren profile override none parentNs₁ depth up₁ path₁ i ts).isSome =
        (serializeChildren profile override none parentNs₂ depth up₂ path₂ i ts).isSome) := by
  refine Tree.induction ?_ ?_ ?_ ?_ ?_ ?_ ?_
  · intro cs ih parentNs₁ parentNs₂ depth up₁ up₂ path₁ path₂
    simp only [serializeSubtree, reduceCtorEq, if_false]
    exact ih _ _ _ _ _ _ _ _
  · intro q ds as cs ih parentNs₁ parentNs₂ depth up₁ up₂ path₁ path₂
    simp only [serializeSubtree, reduceCtorEq, if_false]
    split
    · rfl
    · rw [Option.isSome_map, Option.isSome_map]
      exact ih _ _ _ _ _ _ _ _
  · intro s parentNs₁ parentNs₂ depth up₁ up₂ path₁ path₂
    simp only [serializeSubtree, reduceCtorEq, if_false]
  · intro s parentNs₁ parentNs₂ depth up₁ up₂ path₁ path₂
    simp only [serializeSubtree, reduceCtorEq, if_false]
  · intro target data parentNs₁ parentNs₂ depth up₁ up₂ path₁ path₂
    simp only [serializeSubtree, reduceCtorEq, if_false]
  · intro parentNs₁ parentNs₂ depth up₁ up₂ path₁ path₂ i
    simp only [serializeChildren]
  · intro t ts iht ihts parentNs₁ parentNs₂ depth up₁ up₂ path₁ path₂ i
    have ht := iht parentNs₁ parentNs₂ depth up₁ up₂ (i :: path₁) (i :: path₂)
    have hts := ihts parentNs₁ parentNs₂ depth up₁ up₂ path₁ path₂ (i + 1)
    simp only [serializeChildren]
    cases h₁ : serializeSubtree profile override none parentNs₁ depth up₁ (i :: path₁) t with
    | none =>
      rw [h₁, Option.isSome_none] at ht
      rw [Option.isSome_eq_false_iff.mp ht.symm |> Option.isNone_iff_eq_none.mp]
    | some s₁ =>
      rw [h₁, Option.isSome_some] at ht
      obtain ⟨s₂, h₂⟩ := Option.isSome_iff_exists.mp ht.symm
      rw [h₂]
      simp only [Option.isSome_map]
      exact hts

/-! ## Contexts that differ in `xmlns=""` -/

/-- A binding of the default prefix to no namespace is not emitted while none is rendered. -/
private theorem filter_shouldEmit_nil {parentNs : NsMap} {o : Option Str}
    (ho : nsOfUri o = none) (hns : nsOfUri (parentNs.get []) = none) :
    o.filter (fun uri => shouldEmit parentNs ([], uri)) = none := by
  cases o with
  | none => rfl
  | some uri =>
    cases uri with
    | nil => simp [Option.filter_some, shouldEmit_empty_default hns]
    | cons c cs => simp [nsOfUri] at ho

/-- `#default` is listed, one context has no default declaration and the other `xmlns=""`. -/
structure OneBlank (tokens : List Str) (chain₁ chain₂ : List Tree) : Prop where
  listed : [] ∈ tokens.map tokenPrefix
  blank : (inScope chain₁ [] = none ∧ inScope chain₂ [] = some []) ∨
    (inScope chain₁ [] = some [] ∧ inScope chain₂ [] = none)
  named : ∀ p, p ≠ [] → p ∈ tokens.map tokenPrefix → inScope chain₁ p = inScope chain₂ p

section

variable {tokens : List Str} {chain₁ chain₂ : List Tree}

theorem OneBlank.noDefault (h : OneBlank tokens chain₁ chain₂) :
    nsOfUri (inScope chain₁ []) = none ∧ nsOfUri (inScope chain₂ []) = none := by
  cases h.blank with
  | inl hb => rw [hb.1, hb.2]; exact ⟨rfl, rfl⟩
  | inr hb => rw [hb.1, hb.2]; exact ⟨rfl, rfl⟩

theorem OneBlank.symm (h : OneBlank tokens chain₁ chain₂) : OneBlank tokens chain₂ chain₁ where
  listed := h.listed
  blank := h.blank.symm.imp And.symm And.symm
  named := fun p hp hmem => (h.named p hp hmem).symm

/-- An element without a default declaration leaves them so. -/
theorem OneBlank.cons (h : OneBlank tokens chain₁ chain₂) {t : Tree}
    (ht : t.decls.lookup [] = none) : OneBlank tokens (t :: chain₁) (t :: chain₂) where
  listed := h.listed
  blank := by simpa [inScope_cons, ht] using h.blank
  named := fun p hp hmem => by rw [inScope_cons, inScope_cons, h.named p hp hmem]

/-- Names with the same prefix are in the same namespace. -/
theorem OneBlank.resolve_eq (h : OneBlank tokens chain₁ chain₂) {pre : Str}
    (hpre : pre ≠ [] → inScope chain₁ pre = inScope chain₂ pre) :
    resolve chain₁ pre = resolve chain₂ pre := by
  by_cases hp : pre = []
  · simp only [resolve, hp, h.noDefault.1, h.noDefault.2]
  · simp only [resolve, hpre hp]

/-- What the name of an element says about the default prefix. -/
theorem get_nil_utilizedTag (chain : List Tree) (q : QName) :
    (utilizedTag chain q).get [] =
      match resolve chain q.pre with
      | none => some []
      | some uri => if uri ≠ xmlNs ∧ elementSourcePrefix q = [] then some uri else none := by
  rw [utilizedTag]
  cases resolve chain q.pre with
  | none => simp
  | some uri =>
    by_cases hx : uri = xmlNs
    · simp [hx]
    · by_cases hp : elementSourcePrefix q = []
      · simp [hx, hp]
      · simp [hx, hp, Ne.symm hp]

/-- What a `PrefixList` with `#default` says about it where there is no default namespace. -/
private theorem get_nil_merged (as : List Attr) (q : QName) (chain : List Tree)
    (hlisted : [] ∈ tokens.map tokenPrefix) (hnone : nsOfUri (inScope chain []) = none) :
    (mergeInclusivePrefixes chain tokens
        (utilizedAttrs chain as (utilizedTag chain q))).get [] =
      ((utilizedTag chain q).get []).or (inScope chain []) := by
  rw [get_mergeInclusivePrefixes, get_nil_utilizedAttrs, tokenBinding, if_pos hlisted]
  cases hscope : inScope chain [] with
  | none => rfl
  | some uri =>
    rw [hscope] at hnone
    cases uri with
    | nil => rfl
    | cons c cs => cases hnone

/-- The declarations of the other prefixes are the same. -/
private theorem get_merged_of_ne (h : OneBlank tokens chain₁ chain₂) {q : QName} {as : List Attr}
    (hq : resolve chain₁ q.pre = resolve chain₂ q.pre)
    (hattrs : ∀ p ∈ (as.map fun a => a.name.pre).filter (· ≠ []),
      inScope chain₁ p = inScope chain₂ p) {p : Str} (hp : p ≠ []) :
    (mergeInclusivePrefixes chain₁ tokens
        (utilizedAttrs chain₁ as (utilizedTag chain₁ q))).get p =
      (mergeInclusivePrefixes chain₂ tokens
        (utilizedAttrs chain₂ as (utilizedTag chain₂ q))).get p := by
  rw [get_mergeInclusivePrefixes, get_mergeInclusivePrefixes, utilizedTag_congr hq,
    utilizedAttrs_congr _ hattrs]
  by_cases hmem : p ∈ tokens.map tokenPrefix
  · simp only [tokenBinding, h.named p hp hmem]
  · simp only [tokenBinding, if_neg hmem]

variable {parentNs : NsMap} {q : QName} {as : List Attr}
  (h : OneBlank tokens chain₁ chain₂) (hq : resolve chain₁ q.pre = resolve chain₂ q.pre)
  (hattrs : ∀ p ∈ (as.map fun a => a.name.pre).filter (· ≠ []),
    inScope chain₁ p = inScope chain₂ p)

include h hq hattrs

/-- The declarations that are emitted are the same when the element's name binds the default
    prefix, or no default namespace is rendered. -/
private theorem nsEmitted_oneBlank
    (hsame : ((utilizedTag chain₁ q).get []).isSome ∨ nsOfUri (parentNs.get []) = none) :
    nsEmitted parentNs (mergeInclusivePrefixes chain₁ tokens
        (utilizedAttrs chain₁ as (utilizedTag chain₁ q))) =
      nsEmitted parentNs (mergeInclusivePrefixes chain₂ tokens
        (utilizedAttrs chain₂ as (utilizedTag chain₂ q))) := by
  refine OrdMap.entries_filter_ext ?_
  intro p
  by_cases hp : p = []
  · subst hp
    rw [get_nil_merged as q chain₁ h.listed h.noDefault.1,
      get_nil_merged as q chain₂ h.listed h.noDefault.2, ← utilizedTag_congr hq]
    cases hname : (utilizedTag chain₁ q).get [] with
    | some uri => rfl
    | none =>
      have hns : nsOfUri (parentNs.get []) = none := by
        rw [hname] at hsame
        exact hsame.resolve_left (by simp)
      rw [Option.none_or, Option.none_or, filter_shouldEmit_nil h.noDefault.1 hns,
        filter_shouldEmit_nil h.noDefault.2 hns]
  · rw [get_merged_of_ne h hq hattrs hp]

/-- Otherwise the context that says `xmlns=""` writes it, before the other declarations. -/
private theorem nsEmitted_oneBlank_lost (hname : (utilizedTag chain₁ q).get [] = none)
    (hlost : nsOfUri (parentNs.get []) ≠ none) (hblank : inScope chain₁ [] = none) :
    nsEmitted parentNs (mergeInclusivePrefixes chain₂ tokens
        (utilizedAttrs chain₂ as (utilizedTag chain₂ q))) =
      ([], []) :: nsEmitted parentNs (mergeInclusivePrefixes chain₁ tokens
        (utilizedAttrs chain₁ as (utilizedTag chain₁ q))) ∧
    ∀ b ∈ nsEmitted parentNs (mergeInclusivePrefixes chain₁ tokens
        (utilizedAttrs chain₁ as (utilizedTag chain₁ q))), b.1 ≠ [] := by
  have hblank₂ : inScope chain₂ [] = some [] := by
    cases h.blank with
    | inl hb => exact hb.2
    | inr hb =>
      rw [hblank] at hb
      cases hb.1
  have hget₁ := get_nil_merged as q chain₁ h.listed h.noDefault.1
  have hget₂ := get_nil_merged as q chain₂ h.listed h.noDefault.2
  have hname₂ : (utilizedTag chain₂ q).get [] = none := by rw [← utilizedTag_congr hq, hname]
  rw [hname, hblank] at hget₁
  rw [hname₂, hblank₂] at hget₂
  have hne : ∀ b ∈ nsEmitted parentNs (mergeInclusivePrefixes chain₁ tokens
      (utilizedAttrs chain₁ as (utilizedTag chain₁ q))), b.1 ≠ [] := by
    intro b hb hnil
    have hlookup := OrdMap.lookup_of_mem (nsEmitted_sorted _ _) hb
    rw [hnil, lookup_nsEmitted, hget₁] at hlookup
    cases hlookup
  refine ⟨?_, hne⟩
  have hsorted : (([], []) :: nsEmitted parentNs (mergeInclusivePrefixes chain₁ tokens
      (utilizedAttrs chain₁ as (utilizedTag chain₁ q)))).Pairwise fun a b => a.1 < b.1 := by
    refine List.pairwise_cons.mpr ⟨fun b hb => ?_, nsEmitted_sorted _ _⟩
    obtain ⟨p, uri⟩ := b
    cases p with
    | nil => exact absurd rfl (hne _ hb)
    | cons c cs => exact List.nil_lt_cons _ _
  refine OrdMap.eq_of_lookup_eq (nsEmitted_sorted _ _) hsorted fun p => ?_
  rw [lookup_nsEmitted, List.lookup_cons]
  by_cases hp : p = []
  · subst hp
    rw [hget₂, beq_self_eq_true]
    have hemit : shouldEmit parentNs ([], []) = true := by
      cases hparent : parentNs.get [] with
      | none => exact absurd (by rw [hparent]; rfl) hlost
      | some uri =>
        cases uri with
        | nil => exact absurd (by rw [hparent]; rfl) hlost
        | cons c cs => simp [shouldEmit, hparent]
    simp [hemit]
  · rw [beq_false_of_ne hp, lookup_nsEmitted, get_merged_of_ne h hq hattrs hp]

omit hq hattrs in
/-- Then the default namespace that is rendered below the element is that of its name. -/
private theorem rendered_oneBlank
    (hsame : ((utilizedTag chain₁ q).get []).isSome ∨ nsOfUri (parentNs.get []) = none) :
    nsOfUri ((parentNs.extend (nsEmitted parentNs (mergeInclusivePrefixes chain₁ tokens
        (utilizedAttrs chain₁ as (utilizedTag chain₁ q))))).get []) =
      nsOfUri ((utilizedTag chain₁ q).get []) := by
  rw [get_extend_nsEmitted, get_nil_merged as q chain₁ h.listed h.noDefault.1]
  cases hname : (utilizedTag chain₁ q).get [] with
  | none =>
    have hns : nsOfUri (parentNs.get []) = none := by
      rw [hname] at hsame
      exact hsame.resolve_left (by simp)
    rw [Option.none_or, filter_shouldEmit_nil h.noDefault.1 hns, Option.none_or, hns]
    rfl
  | some uri =>
    have hfilter : (some uri).filter (fun uri => shouldEmit parentNs ([], uri)) =
        if shouldEmit parentNs ([], uri) = true then some uri else none := Option.filter_some
    rw [Option.some_or, hfilter]
    cases hemit : shouldEmit parentNs ([], uri) with
    | true => rfl
    | false =>
      -- a declaration is left out only where it says what is rendered
      rw [if_neg (by decide), Option.none_or]
      cases uri with
      | nil =>
        cases hparent : parentNs.get [] with
        | none => rfl
        | some uri' =>
          cases uri' with
          | nil => rfl
          | cons c cs => simp [shouldEmit, hparent] at hemit
      | cons c cs =>
        have hparent : parentNs.get [] = some (c :: cs) := by simpa [shouldEmit] using hemit
        rw [hparent]

end

/-- A name that an attribute can have is not `xmlns`, and does not hold the `=` after it. -/
private theorem attrRow_qname {chain : List Tree} {a : Attr} (h : AttrOk chain a) :
    (attrRow chain a).qname ≠ xmlnsPre ∧ '=' ∉ (attrRow chain a).qname := by
  have hequals : ∀ n, isNCName n = true → '=' ∉ n := by
    intro n hn hmem
    exact absurd (isNameChar_of_isNCName hn _ hmem) (by decide)
  obtain ⟨⟨⟨hpre, hloc⟩, -⟩, hxmlns, -⟩ := h
  rw [attrRow, attributeSourcePrefix_eq_pre (colon_notMem_of_isNCName hloc), qnameText]
  by_cases hp : a.name.pre = []
  · rw [if_pos hp]
    exact ⟨fun heq => hxmlns ⟨hp, heq⟩, hequals _ hloc⟩
  · rw [if_neg hp]
    refine ⟨fun heq => ?_, ?_⟩
    · have hcolon : ':' ∈ xmlnsPre := by
        rw [← heq]
        exact List.mem_append_right _ List.mem_cons_self
      exact absurd hcolon (by decide)
    · rw [List.mem_append, List.mem_cons, not_or, not_or]
      exact ⟨hequals _ (hpre.resolve_left hp), by decide, hequals _ hloc⟩

/-- No other declaration and no attribute is written as `xmlns=""` starts. -/
private theorem blankDecl_apart {emitted : List (Str × Str)} (hne : ∀ b ∈ emitted, b.1 ≠ [])
    {rows : List AttrRow} (hrows : ∀ r ∈ rows, r.qname ≠ xmlnsPre ∧ '=' ∉ r.qname) :
    List.Apart (emitted.flatMap writeDecl ++ (rows.flatMap writeAttr ++ ['>']))
      (writeDecl ([], []) ++ (emitted.flatMap writeDecl ++ (rows.flatMap writeAttr ++ ['>']))) := by
  have hblank : writeDecl ([], []) = ' ' :: (xmlnsPre ++ ['=', '"', '"']) := by decide
  rw [hblank]
  cases emitted with
  | nil =>
    cases rows with
    | nil => exact .of_ne (by decide) _ _
    | cons row rows =>
      obtain ⟨hname, hequals⟩ := hrows row List.mem_cons_self
      have happart := (List.Apart.of_separator hname hequals (show '=' ∉ xmlnsPre by decide)
        ('"' :: (escapeAttrValue row.value ++ '"' :: (rows.flatMap writeAttr ++ ['>'])))
        ('"' :: '"' :: ((row :: rows).flatMap writeAttr ++ ['>']))).cons ' '
      simpa [writeAttr] using happart
  | cons b emitted =>
    have hb : b.1 ≠ [] := hne b List.mem_cons_self
    have happart := (List.Apart.of_ne (show ':' ≠ '=' by decide)
      (b.1 ++ '=' :: '"' :: (escapeAttrValue b.2 ++ '"' :: (emitted.flatMap writeDecl ++
        (rows.flatMap writeAttr ++ ['>']))))
      ('"' :: '"' :: ((b :: emitted).flatMap writeDecl ++ (rows.flatMap writeAttr ++
        ['>'])))).prepend (' ' :: xmlnsPre)
    simpa [writeDecl, hb, xmlnsPre] using happart

/-- The start tags are apart where one context writes `xmlns=""` and the other does not. -/
private theorem writeStartTag_apart (hkind : profile.kind = .exclusive) {parentNs : NsMap}
    (depth : Nat) {chain₁ chain₂ : List Tree} {q : QName} {as : List Attr}
    (hq : resolve chain₁ q.pre = resolve chain₂ q.pre)
    (hattrs : ∀ p ∈ (as.map fun a => a.name.pre).filter (· ≠ []),
      inScope chain₁ p = inScope chain₂ p)
    (has : ∀ a ∈ as, AttrOk chain₁ a)
    (h : OneBlank (listedTokens profile override) chain₁ chain₂)
    (hname : (utilizedTag chain₁ q).get [] = none) (hlost : nsOfUri (parentNs.get []) ≠ none)
    (hblank : inScope chain₁ [] = none) :
    List.Apart (writeStartTag profile override parentNs (depth == 0) chain₁ q as).2.2
      (writeStartTag profile override parentNs (depth == 0) chain₂ q as).2.2 := by
  obtain ⟨hemit, hne⟩ := nsEmitted_oneBlank_lost h hq hattrs hname hlost hblank
  have hrows : as.map (attrRow chain₁) = as.map (attrRow chain₂) := by
    refine List.map_congr_left fun a ha => ?_
    simp only [attrRow, resolveAttr_congr ha hattrs]
  have hsorted : ∀ r ∈ (as.map (attrRow chain₁)).insertionSort AttrRow.le,
      r.qname ≠ xmlnsPre ∧ '=' ∉ r.qname := by
    intro r hr
    obtain ⟨a, ha, rfl⟩ := List.mem_map.mp ((List.mem_insertionSort _).mp hr)
    exact attrRow_qname (has a ha)
  simp only [writeStartTag, utilizedNamespaces, hkind, attrRows, reduceCtorEq, and_false, if_false]
  rw [hemit, ← hrows, List.flatMap_cons, List.append_assoc, List.append_assoc, List.append_assoc,
    List.append_assoc, List.append_assoc]
  exact (blankDecl_apart hne hsorted).prepend _

/-- What two contexts make of a node or of content: the same where nothing keeps its prefix
    below a name that lost it, and texts that are apart otherwise. -/
private def SameUnless (kept : Prop) (out₁ out₂ : Option Str) : Prop :=
  (¬ kept → out₁ = out₂) ∧
    (kept → ∀ s₁ s₂, out₁ = some s₁ → out₂ = some s₂ → List.Apart s₁ s₂)

/-- Text, a comment and a processing instruction do not depend on the context. -/
private theorem SameUnless.refl (out : Option Str) : SameUnless False out out :=
  ⟨fun _ => rfl, fun h => h.elim⟩

/-- The same start tag and the same end tag around content. -/
private theorem SameUnless.map {kept : Prop} {out₁ out₂ : Option Str}
    (h : SameUnless kept out₁ out₂) (before after : Str) :
    SameUnless kept (out₁.map fun s => before ++ s ++ after)
      (out₂.map fun s => before ++ s ++ after) := by
  constructor
  · intro hk
    rw [h.1 hk]
  · intro hk s₁ s₂ h₁ h₂
    obtain ⟨t₁, ht₁, rfl⟩ := Option.map_eq_some_iff.mp h₁
    obtain ⟨t₂, ht₂, rfl⟩ := Option.map_eq_some_iff.mp h₂
    exact ((h.2 hk t₁ t₂ ht₁ ht₂).prepend before).append after after

/-- Only the default namespace is bound to nothing, and that gives no namespace. -/
private theorem resolve_ne_nil {chain : List Tree} {pre uri : Str}
    (h : resolve chain pre = some uri) : uri ≠ [] := by
  rintro rfl
  unfold resolve at h
  split at h
  · exact absurd (Option.some.inj h) (by decide)
  · revert h
    cases inScope chain pre with
    | none => intro h; cases h
    | some uri =>
      cases uri with
      | nil => intro h; cases h
      | cons c cs => intro h; cases h

private theorem isSome_nsOfUri_of_ne {uri : Str} (h : uri ≠ []) :
    (nsOfUri (some uri)).isSome = true := by
  cases uri with
  | nil => exact absurd rfl h
  | cons c cs => rfl

/-- The two contexts, for every rendered context; `lost` says whether a default namespace is
    rendered, which is then that of a name that lost its prefix. -/
private theorem serializeSubtree_oneBlank (hkind : profile.kind = .exclusive) :
    (∀ t : Tree, ∀ parentNs lost depth up₁ up₂ path₁ path₂, WellFormed up₁ t →
      OneBlank (listedTokens profile override) up₁ up₂ →
      (∀ p ∈ visiblePrefixes t, p ≠ [] → inScope up₁ p = inScope up₂ p) →
      (nsOfUri (parentNs.get [])).isSome = lost →
      SameUnless (KeptBelowLost lost up₁ t)
        (serializeSubtree profile override none parentNs depth up₁ path₁ t)
        (serializeSubtree profile override none parentNs depth up₂ path₂ t)) ∧
    (∀ ts : List Tree, ∀ parentNs lost depth up₁ up₂ path₁ path₂ i, WellFormedList up₁ ts →
      OneBlank (listedTokens profile override) up₁ up₂ →
      (∀ p ∈ visiblePrefixesList ts, p ≠ [] → inScope up₁ p = inScope up₂ p) →
      (nsOfUri (parentNs.get [])).isSome = lost →
      SameUnless (KeptBelowLostList lost up₁ ts)
        (serializeChildren profile override none parentNs depth up₁ path₁ i ts)
        (serializeChildren profile override none parentNs depth up₂ path₂ i ts)) := by
  refine Tree.induction ?_ ?_ ?_ ?_ ?_ ?_ ?_
  · -- root
    intro cs _ parentNs lost depth up₁ up₂ path₁ path₂ hwf
    rw [WellFormed] at hwf
    exact hwf.elim
  · -- element
    intro q ds as cs ih parentNs lost depth up₁ up₂ path₁ path₂ hwf h hvisible hlost
    rw [WellFormed] at hwf
    cases hds : ds.lookup [] with
    | some uri =>
      -- its own default declaration is what counts in and below the element
      have hkept : ¬ KeptBelowLost lost up₁ (.element q ds as cs) := by
        rw [KeptBelowLost, hds]
        exact fun hk => by cases hk.1
      refine ⟨fun _ => ?_, fun hk => absurd hk hkept⟩
      apply (serializeSubtree_congr hkind).1
      intro p hp
      refine .inl ?_
      rw [inScope_cons, inScope_cons]
      by_cases hnil : p = []
      · have hdecls : (Tree.element q ds as cs).decls.lookup [] = some uri := hds
        rw [hnil, hdecls]
        rfl
      · cases List.mem_append.mp hp with
        | inl hp => rw [hvisible p hp hnil]
        | inr hp => rw [h.named p hnil hp]
    | none =>
      have h' : OneBlank (listedTokens profile override) (.element q ds as cs :: up₁)
          (.element q ds as cs :: up₂) := h.cons hds
      have hnamed : ∀ p ∈ visiblePrefixes (.element q ds as cs), p ≠ [] →
          inScope (.element q ds as cs :: up₁) p = inScope (.element q ds as cs :: up₂) p := by
        intro p hp hne
        rw [inScope_cons, inScope_cons, hvisible p hp hne]
      have hq := h'.resolve_eq fun hne => hnamed q.pre (by simp [visiblePrefixes]) hne
      have hattrs : ∀ p ∈ (as.map fun a => a.name.pre).filter (· ≠ []),
          inScope (.element q ds as cs :: up₁) p = inScope (.element q ds as cs :: up₂) p := by
        intro p hp
        have hne : p ≠ [] := by simpa using (List.mem_filter.mp hp).2
        refine hnamed p ?_ hne
        rw [visiblePrefixes, List.mem_append]
        exact .inl (List.mem_cons_of_mem _ hp)
      have hchildren : ∀ p ∈ visiblePrefixesList cs, p ≠ [] →
          inScope (.element q ds as cs :: up₁) p = inScope (.element q ds as cs :: up₂) p := by
        intro p hp hne
        refine hnamed p ?_ hne
        rw [visiblePrefixes, List.mem_append]
        exact .inr hp
      -- the same start tag: the contexts go on below it
      have hsame : ∀ lost', (((utilizedTag (.element q ds as cs :: up₁) q).get []).isSome ∨
            nsOfUri (parentNs.get []) = none) →
          (nsOfUri ((utilizedTag (.element q ds as cs :: up₁) q).get [])).isSome = lost' →
          SameUnless (KeptBelowLostList lost' (.element q ds as cs :: up₁) cs)
            (serializeSubtree profile override none parentNs depth up₁ path₁
              (.element q ds as cs))
            (serializeSubtree profile override none parentNs depth up₂ path₂
              (.element q ds as cs)) := by
        intro lost' hcase hrendered
        have hemit : nsEmitted parentNs _ = nsEmitted parentNs _ :=
          nsEmitted_oneBlank h' hq hattrs hcase
        have htag : writeStartTag profile override parentNs (depth == 0)
            (.element q ds as cs :: up₁) q as =
            writeStartTag profile override parentNs (depth == 0)
              (.element q ds as cs :: up₂) q as := by
          refine writeStartTag_congr hkind depth hattrs ?_
          simpa only [utilizedNamespaces, hkind] using hemit
        have hbelow : (nsOfUri ((parentNs.extend (writeStartTag profile override parentNs
            (depth == 0) (.element q ds as cs :: up₁) q as).2.1).get [])).isSome = lost' := by
          have hafter : nsOfUri ((parentNs.extend (nsEmitted parentNs (mergeInclusivePrefixes _ _
              (utilizedAttrs _ as _)))).get []) = _ := rendered_oneBlank h' hcase
          rw [← hrendered, ← hafter]
          simp only [writeStartTag, utilizedNamespaces, hkind]
        have hcontent := ih _ lost' (depth + 1) _ _ path₁ path₂ 0 hwf.2 h' hchildren hbelow
        simp only [serializeSubtree, reduceCtorEq, if_false]
        rw [← htag]
        by_cases hdepth : depth ≥ maxC14nDepth
        · rw [if_pos hdepth, if_pos hdepth]
          exact ⟨fun _ => rfl, fun _ s₁ s₂ hs₁ => by cases hs₁⟩
        · rw [if_neg hdepth, if_neg hdepth]
          exact hcontent.map _ _
      have hname := get_nil_utilizedTag (.element q ds as cs :: up₁) q
      cases hres : resolve (.element q ds as cs :: up₁) q.pre with
      | none =>
        rw [hres] at hname
        have hcase := hsame false (.inl (by rw [hname]; rfl)) (by rw [hname]; rfl)
        rw [KeptBelowLost, hds, hres]
        simpa only [true_and] using hcase
      | some uri =>
        rw [hres] at hname
        simp only at hname
        by_cases hgone : uri ≠ xmlNs ∧ elementSourcePrefix q = []
        · rw [if_pos hgone] at hname
          have hcase := hsame true (.inl (by rw [hname]; rfl))
            (by rw [hname]; exact isSome_nsOfUri_of_ne (resolve_ne_nil hres))
          rw [KeptBelowLost, hds, hres]
          simpa only [true_and, if_pos hgone] using hcase
        · rw [if_neg hgone] at hname
          cases lost with
          | false =>
            have hns : nsOfUri (parentNs.get []) = none := by
              simpa using hlost
            have hcase := hsame false (.inr hns) (by rw [hname]; rfl)
            rw [KeptBelowLost, hds, hres]
            simpa only [true_and, if_neg hgone, Bool.false_eq_true, false_or] using hcase
          | true =>
            -- here one of the contexts writes `xmlns=""`
            have hkept : KeptBelowLost true up₁ (.element q ds as cs) := by
              rw [KeptBelowLost, hds, hres]
              simp only [if_neg hgone, true_or, and_self]
            have hns : nsOfUri (parentNs.get []) ≠ none := by
              intro hnone
              rw [hnone] at hlost
              cases hlost
            refine ⟨fun hk => absurd hkept hk, fun _ s₁ s₂ h₁ h₂ => ?_⟩
            have hapart : List.Apart
                (writeStartTag profile override parentNs (depth == 0)
                  (.element q ds as cs :: up₁) q as).2.2
                (writeStartTag profile override parentNs (depth == 0)
                  (.element q ds as cs :: up₂) q as).2.2 := by
              cases h'.blank with
              | inl hb =>
                exact writeStartTag_apart hkind depth hq hattrs hwf.1.attrs h' hname hns hb.1
              | inr hb =>
                have hattrs' : ∀ a ∈ as, AttrOk (.element q ds as cs :: up₂) a := by
                  intro a ha
                  obtain ⟨hok, hxmlns, hbound, hchars⟩ := hwf.1.attrs a ha
                  refine ⟨hok, hxmlns, ?_, hchars⟩
                  by_cases hp : a.name.pre = []
                  · exact .inl hp
                  · have hin : a.name.pre ∈ (as.map fun a => a.name.pre).filter (· ≠ []) :=
                      List.mem_filter.mpr ⟨List.mem_map_of_mem ha, by simpa using hp⟩
                    rw [Bound, resolve, ← hattrs _ hin, ← resolve]
                    exact hbound
                exact (writeStartTag_apart hkind depth hq.symm (fun p hp => (hattrs p hp).symm)
                  hattrs' h'.symm (by rw [← utilizedTag_congr hq]; exact hname) hns hb.2).symm
            simp only [serializeSubtree, reduceCtorEq, if_false] at h₁ h₂
            by_cases hdepth : depth ≥ maxC14nDepth
            · rw [if_pos hdepth] at h₁
              cases h₁
            · rw [if_neg hdepth] at h₁ h₂
              obtain ⟨t₁, -, rfl⟩ := Option.map_eq_some_iff.mp h₁
              obtain ⟨t₂, -, rfl⟩ := Option.map_eq_some_iff.mp h₂
              rw [List.append_assoc, List.append_assoc]
              exact hapart.append _ _
  · -- text
    intro s parentNs lost depth up₁ up₂ path₁ path₂ _ _ _ _
    simp only [serializeSubtree, reduceCtorEq, if_false, KeptBelowLost]
    exact .refl _
  · -- comment
    intro s parentNs lost depth up₁ up₂ path₁ path₂ _ _ _ _
    simp only [serializeSubtree, reduceCtorEq, if_false, KeptBelowLost]
    exact .refl _
  · -- processing instruction
    intro target data parentNs lost depth up₁ up₂ path₁ path₂ _ _ _ _
    simp only [serializeSubtree, reduceCtorEq, if_false, KeptBelowLost]
    exact .refl _
  · -- no child left
    intro parentNs lost depth up₁ up₂ path₁ path₂ i _ _ _ _
    simp only [serializeChildren, KeptBelowLostList]
    exact .refl _
  · -- the first child and the rest
    intro t ts iht ihts parentNs lost depth up₁ up₂ path₁ path₂ i hwf h hvisible hlost
    rw [WellFormedList] at hwf
    have ht := iht parentNs lost depth up₁ up₂ (i :: path₁) (i :: path₂) hwf.1 h
      (fun p hp => hvisible p (List.mem_append_left _ hp)) hlost
    have hts := ihts parentNs lost depth up₁ up₂ path₁ path₂ (i + 1) hwf.2 h
      (fun p hp => hvisible p (List.mem_append_right _ hp)) hlost
    simp only [serializeChildren, KeptBelowLostList]
    by_cases hkept : KeptBelowLost lost up₁ t
    · refine ⟨fun hk => absurd (.inl hkept) hk, fun _ s₁ s₂ h₁ h₂ => ?_⟩
      split at h₁
      · cases h₁
      · rename_i t₁ ht₁
        split at h₂
        · cases h₂
        · rename_i t₂ ht₂
          obtain ⟨r₁, -, rfl⟩ := Option.map_eq_some_iff.mp h₁
          obtain ⟨r₂, -, rfl⟩ := Option.map_eq_some_iff.mp h₂
          exact (ht.2 hkept t₁ t₂ ht₁ ht₂).append _ _
    · rw [← ht.1 hkept]
      simp only [hkept, false_or]
      cases serializeSubtree profile override none parentNs depth up₁ (i :: path₁) t with
      | none => exact ⟨fun _ => rfl, fun _ s₁ s₂ h₁ => by cases h₁⟩
      | some s => simpa using hts.map s []

/-! ## Independence -/

/-- Exclusive C14N of an element of a namespace-well-formed document, in any two contexts that
    bind the prefixes visibly used in its subtree, and those of the `PrefixList`, alike:
    whatever else the ancestors declare, and whatever `xml:*` attributes they carry, it succeeds
    in both or in none, and the texts are the same unless `#default` is listed, only one of the
    contexts says `xmlns=""`, and an element keeps its prefix below one that lost its own. -/
theorem exclusive_c14n_context_independent_iff (profile : WsSecCanonicalizationProfile)
    (hkind : profile.kind = .exclusive) (override : Option (List Str)) (q : QName)
    (ds : List (Str × Str)) (as : List Attr) (cs : List Tree) (up₁ up₂ : List Tree)
    (path₁ path₂ : List Nat) (hwf : WellFormed up₁ (.element q ds as cs))
    (hvisible : ∀ p ∈ visiblePrefixes (.element q ds as cs), SameBinding up₁ up₂ p)
    (hlist : ∀ token ∈ override.getD profile.inclusiveNsPrefixes,
      SameBinding up₁ up₂ (tokenPrefix token)) :
    (serializeSubtree profile override none .empty 0 up₁ path₁ (.element q ds as cs)).isSome =
      (serializeSubtree profile override none .empty 0 up₂ path₂ (.element q ds as cs)).isSome ∧
    ∀ text, serializeSubtree profile override none .empty 0 up₁ path₁ (.element q ds as cs) =
        some text →
      (serializeSubtree profile override none .empty 0 up₂ path₂ (.element q ds as cs) =
          some text ↔
        ¬ (DefaultsDiffer (override.getD profile.inclusiveNsPrefixes) up₁ up₂ ∧
          KeptBelowLost false up₁ (.element q ds as cs))) := by
  have hsome : (serializeSubtree profile override none .empty 0 up₁ path₁
      (.element q ds as cs)).isSome = (serializeSubtree profile override none .empty 0 up₂ path₂
        (.element q ds as cs)).isSome := isSome_serializeSubtree.1 _ _ _ _ _ _ _ _
  refine ⟨hsome, fun text htext => ?_⟩
  have hnamed : ∀ p, p ≠ [] → SameBinding up₁ up₂ p → inScope up₁ p = inScope up₂ p := by
    intro p hp hsame
    exact hsame.resolve_right fun h => hp h.1
  -- a token stands for a prefix, and several tokens may stand for one
  have hlisted : ∀ p ∈ (override.getD profile.inclusiveNsPrefixes).map tokenPrefix,
      SameBinding up₁ up₂ p := by
    intro p hp
    obtain ⟨token, htoken, rfl⟩ := List.mem_map.mp hp
    exact hlist token htoken
  by_cases hdiffer : DefaultsDiffer (override.getD profile.inclusiveNsPrefixes) up₁ up₂
  · -- then one context has no default declaration and the other `xmlns=""`
    have hboth := (hlisted [] hdiffer.1).resolve_left hdiffer.2
    have hblank : OneBlank (listedTokens profile override) up₁ up₂ := by
      refine ⟨hdiffer.1, ?_, fun p hp hmem => hnamed p hp (hlisted p hmem)⟩
      have hne := hdiffer.2
      obtain ⟨-, hnone₁, hnone₂⟩ := hboth
      cases h₁ : inScope up₁ [] with
      | none =>
        cases h₂ : inScope up₂ [] with
        | none => exact absurd (h₁.trans h₂.symm) hne
        | some uri₂ =>
          rw [h₂] at hnone₂
          cases uri₂ with
          | nil => exact .inl ⟨rfl, rfl⟩
          | cons c cs => cases hnone₂
      | some uri₁ =>
        rw [h₁] at hnone₁
        cases uri₁ with
        | cons c cs => cases hnone₁
        | nil =>
          cases h₂ : inScope up₂ [] with
          | none => exact .inr ⟨rfl, rfl⟩
          | some uri₂ =>
            rw [h₂] at hnone₂
            cases uri₂ with
            | nil => exact absurd (h₁.trans h₂.symm) hne
            | cons c cs => cases hnone₂
    -- `xmlns=""` is written in one context only, where a kept element stands below a lost default
    have hcase := (serializeSubtree_oneBlank hkind).1 _ .empty false 0 up₁ up₂ path₁ path₂ hwf
      hblank (fun p hp hne => hnamed p hne (hvisible p hp)) rfl
    constructor
    · intro htext' hboth'
      exact (hcase.2 hboth'.2 text text htext htext').ne rfl
    · intro hno
      rw [← hcase.1 fun hkept => hno ⟨hdiffer, hkept⟩]
      exact htext
  · -- the default is bound alike or not listed, so all rendered prefixes are bound alike
    refine ⟨fun _ hboth => hdiffer hboth.1, fun _ => ?_⟩
    rw [← htext]
    refine ((serializeSubtree_congr hkind).1 _ _ _ _ _ _ _ fun p hp => ?_).symm
    refine BindingAgrees.cons ?_ _
    have hsame : SameBinding up₁ up₂ p := by
      cases List.mem_append.mp hp with
      | inl hp => exact hvisible p hp
      | inr hp => exact hlisted p hp
    cases hsame with
    | inl heq => exact .inl heq
    | inr hnone =>
      by_cases hmem : [] ∈ (listedTokens profile override).map tokenPrefix
      · refine .inl ?_
        rw [hnone.1]
        by_contra hne
        exact hdiffer ⟨hmem, hne⟩
      · exact .inr ⟨hnone.1, hmem, hnone.2⟩

/-- An element `p:a` that binds `q` itself, once under an ancestor with an unused binding
    and an `xml:lang`, and once under one that only binds `p` and says `xmlns=""`. -/
theorem exclusive_c14n_context_independent_unused_binding :
    let a : Tree := .element ⟨['p'], ['a']⟩ [(['q'], ['v'])] [⟨⟨['q'], ['x']⟩, ['1']⟩]
      [.element ⟨[], ['b']⟩ [] [] [.text ['t']]]
    let up₁ : List Tree := [.element ⟨[], ['e']⟩ [(['p'], ['u']), (['r'], ['w'])]
      [⟨⟨xmlPre, ['l', 'a', 'n', 'g']⟩, ['e', 'n']⟩] [a]]
    let up₂ : List Tree := [.element ⟨[], ['f']⟩ [(['p'], ['u']), ([], [])] [] [a]]
    ∃ text, serializeSubtree .exclusive (some [['p'], defaultToken]) none .empty 0 up₁ [0] a =
        some text ∧
      serializeSubtree .exclusive (some [['p'], defaultToken]) none .empty 0 up₂ [0] a =
        some text := by
  intro a up₁ up₂
  have hdefault : SameBinding up₁ up₂ [] := .inr ⟨rfl, by decide +kernel, by decide +kernel⟩
  have hp : SameBinding up₁ up₂ ['p'] := .inl (by decide +kernel)
  have hq : SameBinding up₁ up₂ ['q'] := .inl (by decide +kernel)
  have hiff := exclusive_c14n_context_independent_iff .exclusive rfl
    (some [['p'], defaultToken]) _ _ _ _ up₁ up₂ [0] [0] (show WellFormed up₁ a by decide +kernel)
    (by
      intro p hmem
      have hmem' : p ∈ [['p'], ['q'], []] := hmem
      simp only [List.mem_cons, List.not_mem_nil, or_false] at hmem'
      obtain rfl | rfl | rfl := hmem'
      · exact hp
      · exact hq
      · exact hdefault)
    (by
      intro token hmem
      simp only [Option.getD_some, List.mem_cons, List.not_mem_nil, or_false] at hmem
      obtain rfl | rfl := hmem
      · exact hp
      · exact hdefault)
  obtain ⟨text, htext⟩ : ∃ text, serializeSubtree .exclusive (some [['p'], defaultToken]) none
      .empty 0 up₁ [0] a = some text := Option.isSome_iff_exists.mp (by decide +kernel)
  refine ⟨text, htext, (hiff.2 text htext).mpr fun hboth => ?_⟩
  -- both names keep what they have: `a` its prefix, and `b` has none
  have hres : resolve (a :: up₁) ['p'] = some ['u'] := by decide +kernel
  have hres' : resolve (.element ⟨[], ['b']⟩ [] [] [.text ['t']] :: a :: up₁) [] = none := by
    decide +kernel
  have hpre : elementSourcePrefix ⟨['p'], ['a']⟩ ≠ [] := by decide
  have hkept := hboth.2
  simp [KeptBelowLost, KeptBelowLostList, hres, hres', hpre, a] at hkept

/-- `<a\u1680:c xmlns:a\u1680="u"><x:b xmlns:x="v"/></a\u1680:c>` in an envelope without a
    default declaration and in one that says `xmlns=""`, with `#default` in the `PrefixList`.
    The outer name loses its prefix and is written into the default namespace, which the second
    context then undeclares at the inner element. -/
theorem exclusive_c14n_context_dependent :
    let c : Tree := .element ⟨['a', '\u1680'], ['c']⟩ [(['a', '\u1680'], ['u'])] []
      [.element ⟨['x'], ['b']⟩ [(['x'], ['v'])] [] []]
    let up₁ : List Tree := [.element ⟨['e'], ['e']⟩ [(['e'], ['w'])] [] [c]]
    let up₂ : List Tree := [.element ⟨['e'], ['e']⟩ [(['e'], ['w']), ([], [])] [] [c]]
    WellFormed up₁ c ∧ WellFormed up₂ c ∧
    (∀ p ∈ visiblePrefixes c, SameBinding up₁ up₂ p) ∧ SameBinding up₁ up₂ [] ∧
    serializeSubtree .exclusive (some [defaultToken]) none .empty 0 up₁ [0] c =
      some "<c xmlns=\"u\"><x:b xmlns:x=\"v\"></x:b></c>".toList ∧
    serializeSubtree .exclusive (some [defaultToken]) none .empty 0 up₂ [0] c =
      some "<c xmlns=\"u\"><x:b xmlns=\"\" xmlns:x=\"v\"></x:b></c>".toList := by
  intro c up₁ up₂
  refine ⟨by decide +kernel, by decide +kernel, ?_, .inr ⟨rfl, by decide +kernel, by decide +kernel⟩,
    by decide +kernel, by decide +kernel⟩
  intro p hmem
  have hmem' : p ∈ [['a', '\u1680'], ['x']] := hmem
  simp only [List.mem_cons, List.not_mem_nil, or_false] at hmem'
  obtain rfl | rfl := hmem'
  · exact .inl (by decide +kernel)
  · exact .inl (by decide +kernel)

end

end Asx
