import Asx.Spec.C14nTree

/-!
# Names keep their meaning in the canonical form

The canonical form of an element declares only what is rendered at it or above it. This
module shows that its name and the names of its attributes still resolve to the same
namespaces there. For Exclusive C14N this holds of every well-formed element; Inclusive
C14N needs in addition that the rendered context stands for the bindings in scope
(`Rendered`), which its own recursion maintains.

## Key results
- `elementSourcePrefix_eq_pre_iff`: which prefixes survive
- `rendered_extend`: the invariant of Inclusive C14N
- `resolveIn_tag`, `resolveIn_attr`: names resolve alike before and after
- `declOk_of_utilized`: what is emitted is a legal declaration
-/

namespace Asx

open Xml

/-! ## Prefixes that are cut short -/

private theorem takeWhile_append_of_stop {p : Char → Bool} {s : Str} (t : Str)
    (h : ∃ c ∈ s, p c = false) : (s ++ t).takeWhile p = s.takeWhile p := by
  induction s with
  | nil =>
    obtain ⟨c, hc, -⟩ := h
    cases hc
  | cons d s ih =>
    cases hd : p d with
    | false => simp [hd]
    | true =>
      have hs : ∃ c ∈ s, p c = false := by
        obtain ⟨c, hc, hpc⟩ := h
        cases List.mem_cons.mp hc with
        | inl heq => simp [heq, hd] at hpc
        | inr hmem => exact ⟨c, hmem, hpc⟩
      simp [hd, ih hs]

/-- A prefix with a delimiter inside is lost altogether. -/
theorem elementSourcePrefix_cut {q : QName} (hq : q.IsName)
    (h : ∃ c ∈ q.pre, nameContinues c = false) : elementSourcePrefix q = [] := by
  have hne : q.pre ≠ [] := by
    rintro hnil
    obtain ⟨c, hc, -⟩ := h
    rw [hnil] at hc
    cases hc
  have hcolon : ':' ∉ q.pre := colon_notMem_of_isNCName (hq.1.resolve_left hne)
  have htake : (q.pre ++ ':' :: q.loc).takeWhile nameContinues = q.pre.takeWhile nameContinues :=
    takeWhile_append_of_stop _ h
  have hnone : Str.beforeLast ':' (q.pre.takeWhile nameContinues) = none :=
    Str.beforeLast_eq_none fun hmem => hcolon ((List.takeWhile_prefix _).subset hmem)
  simp only [elementSourcePrefix, qnameText, if_neg hne]
  exact (congrArg (fun s => (Str.beforeLast ':' s).getD []) htake).trans
    (congrArg (Option.getD · []) hnone)

/-- An element keeps its prefix exactly when no character of it ends the name early. -/
theorem elementSourcePrefix_eq_pre_iff {q : QName} (hq : q.IsName) :
    elementSourcePrefix q = q.pre ↔ ∀ c ∈ q.pre, nameContinues c = true := by
  constructor
  · intro heq c hc
    by_contra hcon
    have hcut := elementSourcePrefix_cut hq ⟨c, hc, by simpa using hcon⟩
    rw [← heq, hcut] at hc
    cases hc
  · exact elementSourcePrefix_eq_pre (colon_notMem_of_isNCName hq.2)

/-- What is written is the prefix or nothing. -/
theorem elementSourcePrefix_cases {q : QName} (hq : q.IsName) :
    elementSourcePrefix q = q.pre ∨ elementSourcePrefix q = [] := by
  by_cases h : ∀ c ∈ q.pre, nameContinues c = true
  · exact .inl ((elementSourcePrefix_eq_pre_iff hq).mpr h)
  · refine .inr (elementSourcePrefix_cut hq ?_)
    simpa using h

/-! ## Bindings in scope -/

theorem exists_decl_of_inScope {chain : List Tree} {p u : Str} (h : inScope chain p = some u) :
    ∃ t ∈ chain, (p, u) ∈ t.decls := by
  induction chain with
  | nil => cases h
  | cons t up ih =>
    rw [inScope_cons] at h
    cases hl : t.decls.lookup p with
    | some v =>
      rw [hl, Option.some_or] at h
      obtain rfl := Option.some.inj h
      exact ⟨t, List.mem_cons_self, OrdMap.mem_of_lookup hl⟩
    | none =>
      rw [hl, Option.none_or] at h
      obtain ⟨t', ht', hd⟩ := ih h
      exact ⟨t', List.mem_cons_of_mem _ ht', hd⟩

/-- A binding in scope is a legal declaration. -/
theorem declOk_of_inScope {chain : List Tree} (hs : ScopeOk chain) {p u : Str}
    (h : inScope chain p = some u) : DeclOk (p, u) := by
  obtain ⟨t, ht, hd⟩ := exists_decl_of_inScope h
  exact (hs t ht).1 _ hd

theorem resolve_ne_xmlNs {chain : List Tree} (hs : ScopeOk chain) {p u : Str} (hp : p ≠ xmlPre)
    (h : resolve chain p = some u) : inScope chain p = some u ∧ u ≠ xmlNs ∧ u ≠ [] := by
  rw [resolve, if_neg hp] at h
  cases hi : inScope chain p with
  | none => simp [hi, nsOfUri] at h
  | some v =>
    cases v with
    | nil => simp [hi, nsOfUri] at h
    | cons c cs =>
      rw [hi] at h
      obtain rfl : c :: cs = u := by simpa [nsOfUri] using h
      exact ⟨rfl, (declOk_of_inScope hs hi).2.1, by simp⟩

/-- No prefix is listed twice among the namespaces in scope. -/
theorem namespaces_nodup {chain : List Tree} (hs : ScopeOk chain) :
    ((namespaces chain).map Prod.fst).Nodup := by
  induction chain with
  | nil => simp [namespaces]
  | cons t up ih =>
    have hup := ih fun u hu => hs u (List.mem_cons_of_mem _ hu)
    rw [namespaces, List.map_append, List.nodup_append]
    refine ⟨(hs t List.mem_cons_self).2, ?_, ?_⟩
    · exact hup.sublist (List.filter_sublist.map _)
    · intro a ha b hb heq
      obtain ⟨d, hd, rfl⟩ := List.mem_map.mp hb
      have hnot := (List.mem_filter.mp hd).2
      simp only [Bool.not_eq_true', List.contains_eq_mem, decide_eq_false_iff_not] at hnot
      exact hnot (heq ▸ ha)

/-! ## The utilized namespaces by prefix -/

/-- The attributes utilize the bindings of their prefixes. -/
theorem get_utilizedAttrs (chain : List Tree) {as : List Attr} (utilized : NsMap)
    (has : ∀ a ∈ as, ':' ∉ a.name.loc) (p : Str) :
    (utilizedAttrs chain as utilized).get p =
      (if p ≠ [] ∧ p ∈ as.map (fun a => a.name.pre) then (resolve chain p).filter (· ≠ xmlNs)
        else none).or (utilized.get p) := by
  induction as generalizing utilized with
  | nil => simp [utilizedAttrs]
  | cons a as ih =>
    have hloc := has a List.mem_cons_self
    have hfold : utilizedAttrs chain (a :: as) utilized =
        utilizedAttrs chain as (utilizedAttrs chain [a] utilized) := rfl
    have hone : (utilizedAttrs chain [a] utilized).get p =
        (if p ≠ [] ∧ p = a.name.pre then (resolve chain p).filter (· ≠ xmlNs)
          else none).or (utilized.get p) := by
      simp only [utilizedAttrs, List.foldl_cons, List.foldl_nil, resolveAttr,
        attributeSourcePrefix_eq_pre hloc]
      by_cases hnil : a.name.pre = []
      · simp [hnil]
      · cases hr : resolve chain a.name.pre with
        | none =>
          by_cases hp : p = a.name.pre
          · simp [hp, hnil, hr]
          · simp [hp, hnil]
        | some uri =>
          by_cases hx : uri = xmlNs
          · by_cases hp : p = a.name.pre
            · simp [hp, hnil, hr, hx, Option.filter_some]
            · simp [hp, hnil, hx]
          · by_cases hp : p = a.name.pre
            · simp [hp, hnil, hr, hx, Option.filter_some]
            · simp [hp, hnil, hx]
    rw [hfold, ih _ (fun b hb => has b (List.mem_cons_of_mem _ hb)), hone]
    simp only [List.map_cons, List.mem_cons]
    by_cases hp : p = a.name.pre
    · by_cases hnil : p = []
      · simp [hnil]
      · by_cases hm : p ∈ as.map (fun a => a.name.pre)
        · rw [if_pos ⟨hnil, hm⟩, if_pos ⟨hnil, hp⟩, if_pos ⟨hnil, .inl hp⟩]
          cases (resolve chain p).filter (· ≠ xmlNs) <;> rfl
        · rw [if_neg fun h => hm h.2, if_pos ⟨hnil, hp⟩, if_pos ⟨hnil, .inl hp⟩]
          rfl
    · simp only [hp, false_or, and_false, if_false, Option.none_or]

private theorem foldl_insert_get (ok : Str × Str → Prop) [DecidablePred ok] (l : List (Str × Str))
    (hnd : (l.map Prod.fst).Nodup) (m : NsMap) (p : Str) :
    (l.foldl (fun m b => if ok b then m else m.insert b.1 b.2) m).get p =
      ((l.lookup p).filter fun u => ¬ ok (p, u)).or (m.get p) := by
  induction l generalizing m with
  | nil => simp
  | cons b l ih =>
    obtain ⟨k, v⟩ := b
    rw [List.map_cons, List.nodup_cons] at hnd
    rw [List.foldl_cons, ih hnd.2, List.lookup_cons]
    by_cases hk : p = k
    · have hnone : l.lookup p = none := OrdMap.lookup_eq_none fun e he heq =>
        hnd.1 (List.mem_map.mpr ⟨e, he, heq.trans hk⟩)
      subst hk
      by_cases hok : ok (p, v)
      · simp [hnone, hok, Option.filter_some]
      · simp [hnone, hok, Option.filter_some]
    · have hne : (p == k) = false := by simpa using hk
      by_cases hok : ok (k, v)
      · simp [hne, hok]
      · simp [hne, hok, hk]

/-- Inclusive C14N utilizes every binding in scope. -/
theorem get_utilizedInclusive {chain : List Tree} (hs : ScopeOk chain) (p : Str) :
    (utilizedInclusive chain).get p = inScope chain p := by
  have hfold : utilizedInclusive chain = (namespaces chain).foldl (fun m b =>
      if b.2 = xmlNs ∨ (b.2 = [] ∧ b.1 ≠ []) then m else m.insert b.1 b.2) .empty := by
    simp only [utilizedInclusive]
    congr 1
    funext m b
    by_cases h₁ : b.2 = xmlNs
    · simp [h₁]
    · simp [h₁]
  rw [hfold, foldl_insert_get (fun b => b.2 = xmlNs ∨ (b.2 = [] ∧ b.1 ≠ [])) _
    (namespaces_nodup hs)]
  cases hi : inScope chain p with
  | none =>
    have hl : (namespaces chain).lookup p = none := hi
    simp [hl]
  | some u =>
    have hl : (namespaces chain).lookup p = some u := hi
    obtain ⟨hpre, hxml, -, -⟩ := declOk_of_inScope hs hi
    have hnot : ¬ (u = xmlNs ∨ (u = [] ∧ p ≠ [])) := by
      rintro (h | ⟨hu, hp⟩)
      · exact hxml h
      · exact hpre.elim (fun h => hp h) fun h => h.2.2.2 hu
    rw [hl, Option.filter_some, if_pos (decide_eq_true hnot)]
    rfl

/-! ## Names in the rendered context -/

/-- The namespace of a prefix in a rendered context. -/
def resolveIn (rendered : NsMap) (pre : Str) : Option Str :=
  if pre = xmlPre then some xmlNs else nsOfUri (rendered.get pre)

/-- A utilized binding holds below the element, whether it was emitted or inherited. -/
theorem nsOfUri_get_extend {parentNs utilized : NsMap} {p u : Str} (h : utilized.get p = some u) :
    nsOfUri ((parentNs.extend (nsEmitted parentNs utilized)).get p) = nsOfUri (some u) := by
  rw [get_extend_nsEmitted, h, Option.filter_some]
  cases he : shouldEmit parentNs (p, u) with
  | true => simp
  | false =>
    simp only [Bool.false_eq_true, if_false, Option.none_or]
    simp only [shouldEmit] at he
    split at he
    · -- `xmlns=""` is left out because no default namespace is rendered
      rename_i hnil
      obtain ⟨rfl, rfl⟩ := hnil
      split at he
      · rename_i v hv
        have hv' : v = [] := by simpa using he
        rw [hv, hv']
      · rename_i hv
        rw [hv]
        rfl
    · rw [(by simpa using he : parentNs.get p = some u)]

/-- The rendered context of Inclusive C14N stands for the bindings in scope. -/
def Rendered (profile : WsSecCanonicalizationProfile) (parentNs : NsMap) (up : List Tree) : Prop :=
  profile.kind = .inclusive → ∀ p, nsOfUri (parentNs.get p) = nsOfUri (inScope up p)

section

variable {profile : WsSecCanonicalizationProfile} {override : Option (List Str)}
  {parentNs : NsMap} {q : QName} {ds : List (Str × Str)} {as : List Attr} {cs up : List Tree}

/-- The rendered context below an element. -/
def childNs (profile : WsSecCanonicalizationProfile) (override : Option (List Str))
    (parentNs : NsMap) (chain : List Tree) (q : QName) (as : List Attr) : NsMap :=
  parentNs.extend (nsEmitted parentNs (utilizedNamespaces profile override chain q as))

/-- Inclusive C14N maintains its invariant. -/
theorem rendered_extend (hs : ScopeOk (.element q ds as cs :: up))
    (h : Rendered profile parentNs up) :
    Rendered profile (childNs profile override parentNs (.element q ds as cs :: up) q as)
      (.element q ds as cs :: up) := by
  intro hkind p
  have hget := get_utilizedInclusive hs p
  simp only [childNs, utilizedNamespaces, hkind]
  cases hi : inScope (.element q ds as cs :: up) p with
  | some u => exact nsOfUri_get_extend (hget.trans hi)
  | none =>
    -- a prefix that nothing binds was not rendered above either
    have hup : inScope up p = none := by
      rw [inScope_cons, Option.or_eq_none_iff] at hi
      exact hi.2
    rw [get_extend_nsEmitted, hget, hi, Option.filter_none, Option.none_or, h hkind p, hup]

/-- What Exclusive C14N utilizes for a prefix. -/
theorem get_utilizedExclusive (hkind : profile.kind = .exclusive)
    (override : Option (List Str)) (q : QName) (has : ∀ a ∈ as, ':' ∉ a.name.loc)
    (chain : List Tree) (p : Str) :
    (utilizedNamespaces profile override chain q as).get p =
      ((if p ≠ [] ∧ p ∈ as.map (fun a => a.name.pre) then (resolve chain p).filter (· ≠ xmlNs)
        else none).or ((utilizedTag chain q).get p)).or
        (tokenBinding chain (override.getD profile.inclusiveNsPrefixes) p) := by
  simp only [utilizedNamespaces, hkind, get_mergeInclusivePrefixes, get_utilizedAttrs chain _ has]

theorem colon_notMem_attrs {chain : List Tree} (h : StartTagOk chain q ds as) :
    ∀ a ∈ as, ':' ∉ a.name.loc :=
  fun a ha => colon_notMem_of_isNCName (h.attrs a ha).1.1.2

private theorem xmlPre_continues : ∀ c ∈ xmlPre, nameContinues c = true :=
  List.all_eq_true.mp (by decide)

/-- The name of an element resolves alike in the rendered context. -/
theorem resolveIn_tag (hs : ScopeOk (.element q ds as cs :: up))
    (htag : StartTagOk (.element q ds as cs :: up) q ds as)
    (hr : Rendered profile parentNs up)
    (hplain : profile.kind = .inclusive → elementSourcePrefix q = q.pre) :
    resolveIn (childNs profile override parentNs (.element q ds as cs :: up) q as)
      (elementSourcePrefix q) = resolve (.element q ds as cs :: up) q.pre := by
  by_cases hx : q.pre = xmlPre
  · have hesp : elementSourcePrefix q = xmlPre := by
      rw [(elementSourcePrefix_eq_pre_iff htag.name.1).mpr (hx ▸ xmlPre_continues), hx]
    simp [resolveIn, resolve, hesp, hx]
  have hesp : elementSourcePrefix q ≠ xmlPre := by
    cases elementSourcePrefix_cases htag.name.1 with
    | inl h => exact h ▸ hx
    | inr h => exact h ▸ by decide
  rw [resolveIn, if_neg hesp]
  cases hkind : profile.kind with
  | inclusive =>
    rw [hplain hkind, rendered_extend hs hr hkind q.pre, resolve, if_neg hx]
  | exclusive =>
    have hget := get_utilizedExclusive hkind override q
      (colon_notMem_attrs htag) (.element q ds as cs :: up) (elementSourcePrefix q)
    cases hres : resolve (.element q ds as cs :: up) q.pre with
    | none =>
      -- only an unprefixed element can be in no namespace
      have hpre : q.pre = [] := by
        cases htag.bound with
        | inl h => exact h
        | inr h => simp [hres] at h
      have hnil : elementSourcePrefix q = [] :=
        (elementSourcePrefix_cases htag.name.1).elim (fun h => h.trans hpre) id
      have hu : (utilizedNamespaces profile override (.element q ds as cs :: up) q as).get
          (elementSourcePrefix q) = some [] := by
        rw [hget]
        simp [hnil, utilizedTag, hres]
      exact nsOfUri_get_extend hu
    | some uri =>
      obtain ⟨-, hxml, hne⟩ := resolve_ne_xmlNs hs hx hres
      have htagGet : (utilizedTag (.element q ds as cs :: up) q).get (elementSourcePrefix q) =
          some uri := by
        simp [utilizedTag, hres, hxml]
      have hu : (utilizedNamespaces profile override (.element q ds as cs :: up) q as).get
          (elementSourcePrefix q) = some uri := by
        rw [hget, htagGet]
        split
        · -- an attribute with the same prefix is in the same namespace
          rename_i hmem
          have hpre : elementSourcePrefix q = q.pre :=
            (elementSourcePrefix_cases htag.name.1).resolve_right hmem.1
          simp [hpre, hres, hxml, Option.filter_some]
        · rfl
      have hns : nsOfUri (some uri) = some uri := by
        cases uri with
        | nil => exact absurd rfl hne
        | cons c cs => rfl
      exact (nsOfUri_get_extend hu).trans hns

/-- The name of an attribute resolves alike in the rendered context. -/
theorem resolveIn_attr (hs : ScopeOk (.element q ds as cs :: up))
    (htag : StartTagOk (.element q ds as cs :: up) q ds as)
    (hr : Rendered profile parentNs up) {a : Attr} (ha : a ∈ as) (hpre : a.name.pre ≠ []) :
    resolveIn (childNs profile override parentNs (.element q ds as cs :: up) q as) a.name.pre =
      resolve (.element q ds as cs :: up) a.name.pre := by
  by_cases hx : a.name.pre = xmlPre
  · simp [resolveIn, resolve, hx]
  rw [resolveIn, if_neg hx]
  cases hkind : profile.kind with
  | inclusive => rw [rendered_extend hs hr hkind a.name.pre, resolve, if_neg hx]
  | exclusive =>
    obtain ⟨uri, hres⟩ := Option.isSome_iff_exists.mp
      ((htag.attrs a ha).2.2.1.resolve_left hpre)
    obtain ⟨-, hxml, hne⟩ := resolve_ne_xmlNs hs hx hres
    have hu : (utilizedNamespaces profile override (.element q ds as cs :: up) q as).get
        a.name.pre = some uri := by
      rw [get_utilizedExclusive hkind override q (colon_notMem_attrs htag)]
      have hmem : a.name.pre ∈ as.map fun a => a.name.pre := List.mem_map_of_mem ha
      simp [hpre, hmem, hres, hxml, Option.filter_some]
    have hns : nsOfUri (some uri) = some uri := by
      cases uri with
      | nil => exact absurd rfl hne
      | cons c cs => rfl
    rw [hres]
    exact (nsOfUri_get_extend hu).trans hns

/-- What is emitted is a legal declaration. -/
theorem declOk_of_utilized (hs : ScopeOk (.element q ds as cs :: up))
    (htag : StartTagOk (.element q ds as cs :: up) q ds as) {p u : Str}
    (h : (utilizedNamespaces profile override (.element q ds as cs :: up) q as).get p = some u) :
    DeclOk (p, u) := by
  cases hkind : profile.kind with
  | inclusive =>
    simp only [utilizedNamespaces, hkind, get_utilizedInclusive hs] at h
    exact declOk_of_inScope hs h
  | exclusive =>
    rw [get_utilizedExclusive hkind override q (colon_notMem_attrs htag), Option.or_eq_some_iff,
      Option.or_eq_some_iff] at h
    have hof : ∀ p', resolve (.element q ds as cs :: up) p' = some u → u ≠ xmlNs →
        DeclOk (p', u) := by
      intro p' hres hxml
      have hp' : p' ≠ xmlPre := by
        rintro rfl
        exact hxml (by simpa [resolve] using hres.symm)
      exact declOk_of_inScope hs (resolve_ne_xmlNs hs hp' hres).1
    obtain (hattr | ⟨-, htagGet⟩) | ⟨-, htoken⟩ := h
    · -- an attribute's prefix
      split at hattr
      · obtain ⟨hres, hxml⟩ := Option.filter_eq_some_iff.mp hattr
        exact hof p hres (by simpa using hxml)
      · cases hattr
    · -- the element's prefix, which may have been lost
      simp only [utilizedTag] at htagGet
      split at htagGet
      · rename_i uri hres
        split at htagGet
        · cases htagGet
        · rename_i hxml
          rw [OrdMap.get_insert] at htagGet
          split at htagGet
          · rename_i hp
            obtain rfl := Option.some.inj htagGet
            have hdecl := hof q.pre hres hxml
            cases elementSourcePrefix_cases htag.name.1 with
            | inl hesp => rwa [hp, hesp]
            | inr hesp =>
              rw [hp, hesp]
              exact ⟨.inl rfl, hdecl.2⟩
          · cases htagGet
      · rw [OrdMap.get_insert] at htagGet
        split at htagGet
        · rename_i hp
          obtain rfl := Option.some.inj htagGet
          rw [hp]
          decide
        · cases htagGet
    · -- a token of the `PrefixList`
      simp only [tokenBinding] at htoken
      split at htoken
      · exact declOk_of_inScope hs (Option.filter_eq_some_iff.mp htoken).1
      · cases htoken

end

end Asx
