import Asx.Spec.C14nFaithful
import Asx.Xml.Nodes

/-!
# What an apex inherits

Inclusive C14N of an element takes over the `xml:*` attributes of its ancestors that the
element does not carry, each from the nearest ancestor that does, and renders all namespaces
in scope. That is the C14N of the element with these attributes and declarations written on
it, wherever among its ancestors it then stands; nothing below the apex depends on an
attribute above it.

## Main results
- `inheritedXmlAttributes_eq`: what the walk over the ancestors takes
- `serializeSubtree_sameScope`: below the apex only the namespaces in scope matter
- `inclusive_c14n_inherits`: the element that carries what the apex inherits
-/

namespace Asx

open Xml

/-! ## What is inherited -/

/-- The value of the `xml:*` attribute of this local name. -/
def xmlAttr? (attrs : List Attr) (loc : Str) : Option Str :=
  (attrs.find? fun a => a.name = ⟨xmlPre, loc⟩).map Attr.value

/-- Its value at the nearest of the nodes that carries it. -/
def nearestXmlAttr? (up : List Tree) (loc : Str) : Option Str :=
  up.findSome? fun t => xmlAttr? t.attrs loc

/-- The attributes `added` are the `xml:*` attributes that `inherited` has and `own` has not,
    with the values they have there. -/
structure Inherits (own inherited : Str → Option Str) (added : List Attr) : Prop where
  nodup : (added.map Attr.name).Nodup
  mem : ∀ a, a ∈ added ↔
    a.name.pre = xmlPre ∧ own a.name.loc = none ∧ inherited a.name.loc = some a.value

/-- The declarations `ds` are the namespaces in scope. -/
structure DeclaresScope (chain : List Tree) (ds : List (Str × Str)) : Prop where
  nodup : (ds.map Prod.fst).Nodup
  mem : ∀ p u, (p, u) ∈ ds ↔ inScope chain p = some u

theorem qname_eq {q r : QName} (hpre : q.pre = r.pre) (hloc : q.loc = r.loc) : q = r := by
  cases q
  cases r
  cases hpre
  cases hloc
  rfl

theorem xmlAttr?_cons (a : Attr) (attrs : List Attr) (loc : Str) :
    xmlAttr? (a :: attrs) loc =
      (if a.name = ⟨xmlPre, loc⟩ then some a.value else none).or (xmlAttr? attrs loc) := by
  rw [xmlAttr?, List.find?_cons]
  by_cases h : a.name = ⟨xmlPre, loc⟩
  · simp [h]
  · simp [h, xmlAttr?]

theorem xmlAttr?_append (as bs : List Attr) (loc : Str) :
    xmlAttr? (as ++ bs) loc = (xmlAttr? as loc).or (xmlAttr? bs loc) := by
  simp only [xmlAttr?, List.find?_append, Option.map_or]

/-- An element has an `xml:` attribute iff one of its attributes is that. -/
theorem isSome_xmlAttr?_iff {attrs : List Attr} {loc : Str} :
    (xmlAttr? attrs loc).isSome = true ↔ ∃ a ∈ attrs, a.name = ⟨xmlPre, loc⟩ := by
  simp [xmlAttr?]

/-- An `xml:` attribute is that of the element or the nearest one above it. -/
theorem nearestXmlAttr?_cons (t : Tree) (up : List Tree) (loc : Str) :
    nearestXmlAttr? (t :: up) loc = (xmlAttr? t.attrs loc).or (nearestXmlAttr? up loc) := by
  rw [nearestXmlAttr?, List.findSome?_cons]
  cases xmlAttr? t.attrs loc <;> rfl

/-- What is found below an ancestor is found at the ancestor or nearer. -/
theorem nearestXmlAttr?_of_suffix {up' up : List Tree} (h : up' <:+ up) {loc : Str}
    (hsome : (nearestXmlAttr? up' loc).isSome = true) : (nearestXmlAttr? up loc).isSome = true := by
  obtain ⟨pre, rfl⟩ := h
  induction pre with
  | nil => exact hsome
  | cons t pre ih =>
    rw [List.cons_append, nearestXmlAttr?_cons, Option.isSome_or, ih, Bool.or_true]

namespace Inherits

variable {own inherited : Str → Option Str} {added : List Attr}

theorem nil (own : Str → Option Str) : Inherits own (fun _ => none) [] :=
  ⟨List.nodup_nil, fun _ => by simp⟩

theorem congr {inherited' : Str → Option Str} (h : Inherits own inherited added)
    (heq : ∀ loc, inherited loc = inherited' loc) : Inherits own inherited' added :=
  ⟨h.nodup, fun a => by rw [h.mem, heq]⟩

/-- What is inherited is determined, but for its order. -/
theorem perm {added' : List Attr} (h : Inherits own inherited added)
    (h' : Inherits own inherited added') : added.Perm added' :=
  (List.perm_ext_iff_of_nodup h.nodup.of_map h'.nodup.of_map).mpr fun a => by
    rw [h.mem, h'.mem]

/-- An attribute that is carried, or that a nearer ancestor has, is passed over. -/
theorem skip (h : Inherits own inherited added) {a : Attr}
    (hskip : (own a.name.loc).isSome = true ∨ (inherited a.name.loc).isSome = true) :
    Inherits own (fun loc => (inherited loc).or
      (if a.name = ⟨xmlPre, loc⟩ then some a.value else none)) added := by
  refine ⟨h.nodup, fun b => (h.mem b).trans ?_⟩
  refine and_congr_right fun _ => and_congr_right fun hown => ?_
  -- only the attribute itself could make a difference, and it is hidden
  by_cases hname : a.name = ⟨xmlPre, b.name.loc⟩
  · have hloc : a.name.loc = b.name.loc := by rw [hname]
    rw [hloc, hown] at hskip
    obtain ⟨v, hv⟩ := Option.isSome_iff_exists.mp (hskip.resolve_left Bool.false_ne_true)
    simp [hv]
  · simp [hname]

/-- Any other `xml:*` attribute is taken. -/
theorem take (h : Inherits own inherited added) {a : Attr} (hpre : a.name.pre = xmlPre)
    (hown : own a.name.loc = none) (hnew : inherited a.name.loc = none) :
    Inherits own (fun loc => (inherited loc).or
      (if a.name = ⟨xmlPre, loc⟩ then some a.value else none)) (added ++ [a]) := by
  -- its name is new, since no nearer ancestor has it
  have hnotMem : ∀ b ∈ added, b.name ≠ a.name := by
    intro b hb heq
    have hvalue := ((h.mem b).mp hb).2.2
    rw [heq, hnew] at hvalue
    cases hvalue
  refine ⟨?_, fun b => ?_⟩
  · rw [List.map_append, List.nodup_append]
    refine ⟨h.nodup, by simp, fun x hx y hy => ?_⟩
    obtain ⟨b, hb, rfl⟩ := List.mem_map.mp hx
    obtain rfl : y = a.name := by simpa using hy
    exact hnotMem b hb
  · rw [List.mem_append, List.mem_singleton, h.mem]
    by_cases hname : a.name = ⟨xmlPre, b.name.loc⟩
    · have hloc : a.name.loc = b.name.loc := by rw [hname]
      rw [hloc] at hown hnew
      simp only [hnew, hname, if_pos, Option.none_or, Option.some.injEq, reduceCtorEq, and_false,
        false_or, hown, true_and]
      constructor
      · rintro rfl
        exact ⟨hpre, rfl⟩
      · rintro ⟨hbpre, hvalue⟩
        have hab : b.name = a.name := qname_eq (hbpre.trans hpre.symm) hloc.symm
        cases a
        cases b
        cases hab
        cases hvalue
        rfl
    · have hne : b ≠ a := by
        rintro rfl
        exact hname (by rw [← hpre])
      simp [hname, hne]

end Inherits

/-! ## The walk over the ancestors -/

/-- The row of an `xml:*` attribute. -/
def xmlRow (a : Attr) : AttrRow :=
  { ns := some xmlNs
    loc := a.name.loc
    qname := qnameText xmlPre a.name.loc
    value := a.value }

@[simp] theorem xmlRow_ns (a : Attr) : (xmlRow a).ns = some xmlNs := rfl

@[simp] theorem xmlRow_loc (a : Attr) : (xmlRow a).loc = a.name.loc := rfl

/-- The rows of these attributes do not depend on the namespaces in scope. -/
theorem attrRow_eq_xmlRow (chain : List Tree) {a : Attr} (hpre : a.name.pre = xmlPre)
    (hloc : ':' ∉ a.name.loc) : attrRow chain a = xmlRow a := by
  have hne : xmlPre ≠ [] := by decide
  simp only [attrRow, xmlRow, attributeSourcePrefix_eq_pre hloc, hpre, resolveAttr, if_neg hne,
    resolve, if_pos]

/-- Only the prefix `xml` stands for the XML namespace. -/
theorem resolveAttr_eq_xmlNs_iff {chain : List Tree} (hs : ScopeOk chain) {p : Str} :
    resolveAttr chain p = some xmlNs ↔ p = xmlPre := by
  constructor
  · intro h
    -- no declaration of a well-formed document binds another prefix to it
    by_contra hp
    rw [resolveAttr] at h
    split at h
    · cases h
    · exact (resolve_ne_xmlNs hs hp h).2.1 rfl
  · rintro rfl
    have hne : xmlPre ≠ [] := by decide
    simp [resolveAttr, hne, resolve]

/-- What the walk asks of the element itself. -/
def OwnRows (own : Str → Option Str) (rows : List AttrRow) : Prop :=
  ∀ loc, (∃ o ∈ rows, o.ns = some xmlNs ∧ o.loc = loc) ↔ (own loc).isSome = true

/-- The rows of an element's attributes hold its own `xml:` attributes. -/
theorem ownRows_attrRow {chain : List Tree} (hs : ScopeOk chain) (as : List Attr) :
    OwnRows (xmlAttr? as) (as.map (attrRow chain)) := by
  intro loc
  rw [isSome_xmlAttr?_iff]
  simp only [List.mem_map, exists_exists_and_eq_and]
  refine exists_congr fun a => and_congr_right fun _ => ?_
  rw [attrRow, resolveAttr_eq_xmlNs_iff hs]
  obtain ⟨⟨pre, l⟩, value⟩ := a
  simp

section

variable {own inherited : Str → Option Str} {rows : List AttrRow} {added : List Attr}

/-- The two tests of the walk: carried by the element, or taken from a nearer ancestor. -/
theorem Inherits.seen_iff (h : Inherits own inherited added) (hown : OwnRows own rows) (a : Attr) :
    (rows.any (fun o => o.ns = some xmlNs ∧ o.loc = (xmlRow a).loc) = true ∨
        (added.map xmlRow).any (fun seen => seen.loc = (xmlRow a).loc) = true) ↔
      (own a.name.loc).isSome = true ∨ (inherited a.name.loc).isSome = true := by
  have hfirst : rows.any (fun o => o.ns = some xmlNs ∧ o.loc = (xmlRow a).loc) = true ↔
      (own a.name.loc).isSome = true := by
    rw [← hown, List.any_eq_true]
    simp only [decide_eq_true_eq]
    rfl
  rw [hfirst]
  -- what the walk has taken so far are the attributes of nearer ancestors
  refine or_congr_right' fun hnone => ?_
  rw [Option.not_isSome_iff_eq_none] at hnone
  simp only [List.any_map, List.any_eq_true, Function.comp_apply, decide_eq_true_eq]
  simp only [xmlRow_loc]
  constructor
  · rintro ⟨b, hb, hloc⟩
    rw [← hloc, ((h.mem b).mp hb).2.2]
    rfl
  · intro hsome
    obtain ⟨v, hv⟩ := Option.isSome_iff_exists.mp hsome
    exact ⟨⟨⟨xmlPre, a.name.loc⟩, v⟩, (h.mem _).mpr ⟨rfl, hnone, hv⟩, rfl⟩

/-- What one ancestor adds. -/
theorem inheritFrom_eq {chain : List Tree} (hs : ScopeOk chain) (hown : OwnRows own rows)
    {attrs : List Attr} (hattrs : ∀ a ∈ attrs, ':' ∉ a.name.loc)
    (h : Inherits own inherited added) :
    ∃ added', inheritFrom rows chain attrs (added.map xmlRow) = added'.map xmlRow ∧
      Inherits own (fun loc => (inherited loc).or (xmlAttr? attrs loc)) added' := by
  -- on the attributes of the ancestor; `inherited` grows by the one that was looked at
  induction attrs generalizing inherited added with
  | nil => exact ⟨added, rfl, h.congr fun _ => by simp [xmlAttr?]⟩
  | cons a attrs ih =>
    have hrest := fun b hb => hattrs b (List.mem_cons_of_mem _ hb)
    have hfirst : ∀ {inherited'' : Str → Option Str} {added'' : List Attr},
        (∀ loc, inherited'' loc = (inherited loc).or
          (if a.name = ⟨xmlPre, loc⟩ then some a.value else none)) →
        Inherits own inherited'' added'' →
        ∃ added', inheritFrom rows chain attrs (added''.map xmlRow) = added'.map xmlRow ∧
          Inherits own (fun loc => (inherited loc).or (xmlAttr? (a :: attrs) loc)) added' := by
      intro inherited'' added'' heq h''
      obtain ⟨added', hadded, hinherits⟩ := ih hrest h''
      exact ⟨added', hadded, hinherits.congr fun loc => by
        rw [heq, xmlAttr?_cons, Option.or_assoc]⟩
    rw [inheritFrom, List.foldl_cons, ← inheritFrom]
    by_cases hpre : a.name.pre = xmlPre
    · rw [attrRow_eq_xmlRow chain hpre (hattrs a List.mem_cons_self)]
      by_cases hskip : (own a.name.loc).isSome = true ∨ (inherited a.name.loc).isSome = true
      · -- a nearer one hides it
        simp only [xmlRow_ns, ne_eq, not_true_eq_false, if_false, if_pos (h.seen_iff hown a |>.mpr hskip)]
        exact hfirst (fun _ => rfl) (h.skip hskip)
      · simp only [xmlRow_ns, ne_eq, not_true_eq_false, if_false,
          if_neg fun hseen => hskip (h.seen_iff hown a |>.mp hseen)]
        rw [not_or, Option.not_isSome_iff_eq_none, Option.not_isSome_iff_eq_none] at hskip
        have htake := h.take hpre hskip.1 hskip.2
        rw [← List.map_singleton (f := xmlRow), ← List.map_append]
        -- the new row is the last one
        exact hfirst (fun _ => rfl) htake
    · -- not an `xml:*` attribute
      have hns : (attrRow chain a).ns ≠ some xmlNs :=
        fun hns => hpre ((resolveAttr_eq_xmlNs_iff hs).mp hns)
      simp only [hns, ne_eq, not_false_eq_true, if_pos]
      refine hfirst (fun loc => ?_) h
      have hname : a.name ≠ ⟨xmlPre, loc⟩ := fun heq => hpre (by rw [heq])
      rw [if_neg hname, Option.or_none]

/-- What the walk takes. -/
theorem inheritedXmlAttributes_eq {up : List Tree} (hs : ScopeOk up) (hown : OwnRows own rows)
    (hattrs : ∀ t ∈ up, ∀ a ∈ t.attrs, ':' ∉ a.name.loc) (h : Inherits own inherited added) :
    ∃ added', inheritedXmlAttributes rows up (added.map xmlRow) = added'.map xmlRow ∧
      Inherits own (fun loc => (inherited loc).or (nearestXmlAttr? up loc)) added' := by
  -- from the parent up to the root, so that the nearest ancestor comes first
  induction up generalizing inherited added with
  | nil => exact ⟨added, rfl, h.congr fun _ => by simp [nearestXmlAttr?]⟩
  | cons t up ih =>
    obtain ⟨added₁, hadded₁, h₁⟩ := inheritFrom_eq hs hown (hattrs t List.mem_cons_self) h
    obtain ⟨added₂, hadded₂, h₂⟩ := ih (fun u hu => hs u (List.mem_cons_of_mem _ hu))
      (fun u hu => hattrs u (List.mem_cons_of_mem _ hu)) h₁
    refine ⟨added₂, ?_, h₂.congr fun loc => ?_⟩
    · rw [inheritedXmlAttributes, hadded₁, hadded₂]
    · rw [nearestXmlAttr?_cons, Option.or_assoc]

end

/-! ## Below the apex -/

/-- Two chains of nodes with the same namespaces in scope. -/
structure SameScope (up₁ up₂ : List Tree) : Prop where
  left : ScopeOk up₁
  right : ScopeOk up₂
  binding : ∀ p, inScope up₁ p = inScope up₂ p

section

variable {profile : WsSecCanonicalizationProfile} {override : Option (List Str)}
  {omitted : Option (List Nat)} {up₁ up₂ : List Tree} {q : QName} {ds : List (Str × Str)}
  {as : List Attr} {cs : List Tree}

/-- The same element below two chains leaves them with one scope. -/
theorem SameScope.cons (h : SameScope up₁ up₂) {t : Tree} (hdecls : ∀ d ∈ t.decls, DeclOk d)
    (hnodup : (t.decls.map Prod.fst).Nodup) : SameScope (t :: up₁) (t :: up₂) := by
  have hcons : ∀ {up : List Tree}, ScopeOk up → ScopeOk (t :: up) := by
    intro up hs u hu
    rcases List.mem_cons.mp hu with rfl | hu
    · exact ⟨hdecls, hnodup⟩
    · exact hs u hu
  exact ⟨hcons h.left, hcons h.right, fun p => by rw [inScope_cons, inScope_cons, h.binding]⟩

theorem SameScope.resolveAttr_eq (h : SameScope up₁ up₂) (p : Str) :
    resolveAttr up₁ p = resolveAttr up₂ p := by
  simp only [resolveAttr, resolve, h.binding]

/-- The namespaces rendered depend on what is in scope. -/
theorem SameScope.utilized_eq (h : SameScope up₁ up₂) (hkind : profile.kind = .inclusive)
    (as as' : List Attr) : utilizedNamespaces profile override up₁ q as =
      utilizedNamespaces profile override up₂ q as' := by
  simp only [utilizedNamespaces, hkind]
  refine OrdMap.ext_get fun p => ?_
  rw [get_utilizedInclusive h.left, get_utilizedInclusive h.right, h.binding]

/-- Attributes are rendered alike in one scope. -/
theorem SameScope.attrRow_eq (h : SameScope up₁ up₂) (a : Attr) :
    attrRow up₁ a = attrRow up₂ a := by
  simp only [attrRow, h.resolveAttr_eq]

/-- Below the apex an element is written by its own attributes and what is in scope. -/
theorem SameScope.writeStartTag_eq (h : SameScope up₁ up₂) (hkind : profile.kind = .inclusive)
    (parentNs : NsMap) (q : QName) (as : List Attr) :
    writeStartTag profile override parentNs false up₁ q as =
      writeStartTag profile override parentNs false up₂ q as := by
  -- `apex` is false: nothing is inherited
  have hrows : as.map (attrRow up₁) = as.map (attrRow up₂) :=
    List.map_congr_left fun a _ => h.attrRow_eq a
  simp only [writeStartTag, attrRows, h.utilized_eq hkind as as, hrows, Bool.false_eq_true,
    false_and, if_false]

/-- Below the apex only the namespaces in scope matter. -/
theorem serializeSubtree_sameScope (hkind : profile.kind = .inclusive) :
    (∀ t : Tree, ∀ parentNs depth up₁ up₂ path, depth ≠ 0 → SameScope up₁ up₂ → WellFormed up₁ t →
      serializeSubtree profile override omitted parentNs depth up₁ path t =
        serializeSubtree profile override omitted parentNs depth up₂ path t) ∧
    (∀ ts : List Tree, ∀ parentNs depth up₁ up₂ path i, depth ≠ 0 → SameScope up₁ up₂ →
      WellFormedList up₁ ts →
      serializeChildren profile override omitted parentNs depth up₁ path i ts =
        serializeChildren profile override omitted parentNs depth up₂ path i ts) := by
  refine Tree.induction ?_ ?_ ?_ ?_ ?_ ?_ ?_
  · -- root
    intro cs _ parentNs depth up₁ up₂ path _ _ hwf
    exact absurd hwf (by simp [WellFormed])
  · -- element
    intro q ds as cs ih parentNs depth up₁ up₂ path hdepth h hwf
    rw [WellFormed] at hwf
    have hchild : SameScope (.element q ds as cs :: up₁) (.element q ds as cs :: up₂) :=
      h.cons hwf.1.decls hwf.1.declsNodup
    have hapex : (depth == 0) = false := by simpa using hdepth
    simp only [serializeSubtree, hapex, hchild.writeStartTag_eq hkind]
    rw [ih _ (depth + 1) _ _ path 0 (Nat.succ_ne_zero _) hchild hwf.2]
  · -- text
    intro s parentNs depth up₁ up₂ path _ _ _
    simp only [serializeSubtree]
  · -- comment
    intro s parentNs depth up₁ up₂ path _ _ _
    simp only [serializeSubtree]
  · -- processing instruction
    intro target data parentNs depth up₁ up₂ path _ _ _
    simp only [serializeSubtree]
  · -- no child left
    intro parentNs depth up₁ up₂ path i _ _ _
    simp only [serializeChildren]
  · -- the first child and the rest
    intro t ts iht ihts parentNs depth up₁ up₂ path i hdepth h hwf
    rw [WellFormedList] at hwf
    simp only [serializeChildren, iht parentNs depth up₁ up₂ (i :: path) hdepth h hwf.1,
      ihts parentNs depth up₁ up₂ path (i + 1) hdepth h hwf.2]

end

/-! ## The apex -/

/-- What the rows are sorted by. -/
def AttrRow.key (row : AttrRow) : Str × Str := (row.ns.getD [], row.loc)

/-- The order of the rows is antisymmetric on their keys. -/
theorem AttrRow.key_eq_of_le {a b : AttrRow} (hab : a.le b) (hba : b.le a) : a.key = b.key := by
  rw [AttrRow.key, AttrRow.key, Prod.mk.injEq]
  rcases hab with hlt | ⟨heq, hle⟩
  · rcases hba with hlt' | ⟨heq', -⟩
    · exact absurd hlt' (lt_asymm hlt)
    · exact absurd hlt (heq' ▸ lt_irrefl _)
  · rcases hba with hlt' | ⟨-, hle'⟩
    · exact absurd hlt' (heq ▸ lt_irrefl _)
    · exact ⟨heq, le_antisymm hle hle'⟩

/-- Rows with different keys are sorted into one order. -/
theorem insertionSort_eq_of_perm {l₁ l₂ : List AttrRow} (hperm : l₁.Perm l₂)
    (hnodup : (l₁.map AttrRow.key).Nodup) :
    l₁.insertionSort AttrRow.le = l₂.insertionSort AttrRow.le := by
  have htotal : Std.Total AttrRow.le := ⟨attrRow_le_total⟩
  have htrans : IsTrans AttrRow AttrRow.le := ⟨fun _ _ _ => attrRow_le_trans⟩
  have hsorted : (l₁.insertionSort AttrRow.le).Perm (l₂.insertionSort AttrRow.le) :=
    ((List.perm_insertionSort _ l₁).trans hperm).trans (List.perm_insertionSort _ l₂).symm
  refine List.Perm.eq_of_pairwise (fun a b ha hb hab hba => ?_)
    (List.pairwise_insertionSort _ l₁) (List.pairwise_insertionSort _ l₂) hsorted
  have ha₁ := (List.mem_insertionSort _).mp ha
  have hb₁ := (List.mem_insertionSort _).mp (hsorted.mem_iff.mpr hb)
  exact List.inj_on_of_nodup_map hnodup ha₁ hb₁ (AttrRow.key_eq_of_le hab hba)

/-- The attributes of well-formed nodes have no colon in their local names. -/
theorem colon_notMem_of_chainOk {chain : List Tree} (h : ChainOk chain) :
    ∀ t ∈ chain, ∀ a ∈ t.attrs, ':' ∉ a.name.loc := by
  intro t ht
  obtain ⟨below, up, rfl⟩ := List.append_of_mem ht
  rcases h t up (List.suffix_append _ _) with ⟨cs, rfl⟩ | hwf
  · simp [Tree.attrs]
  · cases t with
    | element q ds as cs =>
      rw [WellFormed] at hwf
      exact colon_notMem_attrs hwf.1
    | root | text | comment | pi => simp [Tree.attrs]

/-- What is inherited has no colon in its local name. -/
theorem Inherits.colon_notMem {own : Str → Option Str} {up : List Tree} {added : List Attr}
    (h : Inherits own (nearestXmlAttr? up) added) (hup : ChainOk up) :
    ∀ a ∈ added, ':' ∉ a.name.loc := by
  intro a ha
  obtain ⟨t, ht, hvalue⟩ := List.exists_of_findSome?_eq_some ((h.mem a).mp ha).2.2
  have hsome : (xmlAttr? t.attrs a.name.loc).isSome = true := by
    rw [hvalue]
    rfl
  obtain ⟨b, hb, hname⟩ := isSome_xmlAttr?_iff.mp hsome
  have hcolon := colon_notMem_of_chainOk hup t ht b hb
  rwa [hname] at hcolon

section

variable {q : QName} {ds : List (Str × Str)} {as added : List Attr} {cs up up' : List Tree}

theorem resolveAttr_ne_nil (chain : List Tree) (p : Str) : resolveAttr chain p ≠ some [] := by
  have hxml : xmlNs ≠ [] := by decide
  rw [resolveAttr]
  split
  · simp
  · rw [resolve]
    split
    · simpa using hxml
    · rcases inScope chain p with _ | _ | ⟨c, u⟩ <;> simp [nsOfUri]

/-- No namespace sorts as the empty URI, which is not a namespace. -/
theorem getD_nil_inj {o o' : Option Str} (ho : o ≠ some []) (ho' : o' ≠ some [])
    (h : o.getD [] = o'.getD []) : o = o' := by
  cases o with
  | none =>
    cases o' with
    | none => rfl
    | some v =>
      obtain rfl : [] = v := h
      exact absurd rfl ho'
  | some u =>
    cases o' with
    | none =>
      obtain rfl : u = [] := h
      exact absurd rfl ho
    | some v => exact congrArg some h

/-- Attributes with one key have one expanded name. -/
theorem expandedName_eq_of_key {chain : List Tree} {a b : Attr}
    (h : (attrRow chain a).key = (attrRow chain b).key) :
    expandedName chain a = expandedName chain b := by
  obtain ⟨hns, hloc⟩ := Prod.mk.inj h
  exact Prod.ext (getD_nil_inj (resolveAttr_ne_nil _ _) (resolveAttr_ne_nil _ _) hns) hloc

/-- The expanded names of the attributes of an apex, inherited ones included, differ. -/
theorem nodup_keys {chain : List Tree} (hs : ScopeOk chain) {inherited : Str → Option Str}
    (hnodup : (as.map (expandedName chain)).Nodup) (h : Inherits (xmlAttr? as) inherited added) :
    ((as.map (attrRow chain) ++ added.map xmlRow).map AttrRow.key).Nodup := by
  rw [List.map_append, List.map_map, List.map_map, List.nodup_append]
  refine ⟨?_, ?_, fun x hx y hy heq => ?_⟩
  · -- two attributes of the element
    refine hnodup.of_map.map_on fun a ha b hb hkey => ?_
    exact List.inj_on_of_nodup_map hnodup ha hb (expandedName_eq_of_key hkey)
  · -- two inherited ones
    refine h.nodup.of_map.map_on fun a ha b hb hkey => ?_
    have hloc : a.name.loc = b.name.loc := (Prod.mk.inj hkey).2
    refine List.inj_on_of_nodup_map h.nodup ha hb ?_
    exact qname_eq (((h.mem a).mp ha).1.trans ((h.mem b).mp hb).1.symm) hloc
  · -- an attribute of the element and an inherited one
    obtain ⟨a, ha, rfl⟩ := List.mem_map.mp hx
    obtain ⟨b, hb, rfl⟩ := List.mem_map.mp hy
    obtain ⟨hns, hloc⟩ := Prod.mk.inj heq
    obtain ⟨hpre, hown, -⟩ := (h.mem b).mp hb
    have hsome : resolveAttr chain a.name.pre = some xmlNs :=
      getD_nil_inj (resolveAttr_ne_nil _ _) (by decide) hns
    have hname : a.name = ⟨xmlPre, b.name.loc⟩ :=
      qname_eq ((resolveAttr_eq_xmlNs_iff hs).mp hsome) hloc
    have hcarried := isSome_xmlAttr?_iff.mpr ⟨a, ha, hname⟩
    rw [hown] at hcarried
    cases hcarried

/-- The rows of an apex and of the element that carries what the apex inherits. -/
theorem attrRows_inherits {profile : WsSecCanonicalizationProfile}
    (hkind : profile.kind = .inclusive) {chain chain' : List Tree} (hscope : SameScope chain chain')
    (htail : chain.tail = up) (htail' : chain'.tail = up') (hup : ChainOk up)
    (hsuffix : up' <:+ up) (hnodup : (as.map (expandedName chain)).Nodup)
    (h : Inherits (xmlAttr? as) (nearestXmlAttr? up) added) :
    attrRows profile chain as true = attrRows profile chain' (as ++ added) true := by
  have hup' := hup.of_suffix hsuffix
  have hcolon := h.colon_notMem hup
  have hadded : added.map (attrRow chain') = added.map xmlRow := List.map_congr_left fun a ha =>
    attrRow_eq_xmlRow chain' ((h.mem a).mp ha).1 (hcolon a ha)
  have has : as.map (attrRow chain) = as.map (attrRow chain') :=
    List.map_congr_left fun a _ => hscope.attrRow_eq a
  -- the walk from the apex
  obtain ⟨taken, htaken, hinherits⟩ := inheritedXmlAttributes_eq hup.scopeOk
    (ownRows_attrRow hscope.left as) (colon_notMem_of_chainOk hup) (.nil (xmlAttr? as))
  have hperm : taken.Perm added := (hinherits.congr fun _ => Option.none_or).perm h
  -- the walk from the element that carries it all
  obtain ⟨taken', htaken', hinherits'⟩ := inheritedXmlAttributes_eq hup'.scopeOk
    (ownRows_attrRow hscope.right (as ++ added)) (colon_notMem_of_chainOk hup')
    (.nil (xmlAttr? (as ++ added)))
  -- which has nothing left to take: an ancestor of `up'` is one of `up`
  have hnil : taken' = [] := by
    refine List.eq_nil_iff_forall_not_mem.mpr fun a ha => ?_
    obtain ⟨hpre, hown, hnear⟩ := (hinherits'.mem a).mp ha
    rw [xmlAttr?_append, Option.or_eq_none_iff] at hown
    rw [Option.none_or] at hnear
    have hsome : (nearestXmlAttr? up' a.name.loc).isSome = true := by
      rw [hnear]
      rfl
    obtain ⟨v, hv⟩ := Option.isSome_iff_exists.mp (nearestXmlAttr?_of_suffix hsuffix hsome)
    have hmem : (⟨⟨xmlPre, a.name.loc⟩, v⟩ : Attr) ∈ added := (h.mem _).mpr ⟨rfl, hown.1, hv⟩
    have hcarried := isSome_xmlAttr?_iff.mpr ⟨_, hmem, rfl⟩
    rw [hown.2] at hcarried
    cases hcarried
  rw [hnil, List.map_append, hadded, ← has] at htaken'
  rw [List.map_nil] at htaken htaken'
  simp only [attrRows, hkind, and_self, if_true, htail, htail', htaken, htaken', List.append_nil,
    List.map_append, hadded, ← has]
  -- the two walks agree but for the order of what they take, and the rows are sorted
  exact insertionSort_eq_of_perm ((hperm.map xmlRow).append_left _)
    (nodup_keys hscope.left hnodup hinherits)

theorem lookup_of_mem_of_nodup {l : List (Str × Str)} (hnodup : (l.map Prod.fst).Nodup) {p u : Str}
    (h : (p, u) ∈ l) : l.lookup p = some u := by
  induction l with
  | nil => cases h
  | cons b l ih =>
    rw [List.map_cons, List.nodup_cons] at hnodup
    rw [List.lookup_cons]
    rcases List.mem_cons.mp h with rfl | h
    · simp
    · have hne : (p == b.1) = false := by
        rw [beq_eq_false_iff_ne]
        rintro rfl
        exact hnodup.1 (List.mem_map.mpr ⟨_, h, rfl⟩)
      rw [hne]
      exact ih hnodup.2 h

/-- What is unbound below is unbound above. -/
theorem inScope_eq_none_of_suffix (h : up' <:+ up) {p : Str} (hnone : inScope up p = none) :
    inScope up' p = none := by
  obtain ⟨below, rfl⟩ := h
  induction below with
  | nil => exact hnone
  | cons t below ih =>
    rw [List.cons_append, inScope_cons, Option.or_eq_none_iff] at hnone
    exact ih hnone.2

/-- The element that declares what is in scope has the scope of the apex. -/
theorem DeclaresScope.sameScope {ds' : List (Str × Str)}
    (h : DeclaresScope (.element q ds as cs :: up) ds')
    (hup : ChainOk (.element q ds as cs :: up)) (hsuffix : up' <:+ up) (as' : List Attr) :
    SameScope (.element q ds as cs :: up) (.element q ds' as' cs :: up') := by
  refine ⟨hup.scopeOk, ?_, fun p => ?_⟩
  · intro t ht
    rcases List.mem_cons.mp ht with rfl | ht
    · exact ⟨fun d hd => declOk_of_inScope hup.scopeOk ((h.mem d.1 d.2).mp hd), h.nodup⟩
    · exact (hup.tail.of_suffix hsuffix).scopeOk t ht
  · rw [inScope_cons (.element q ds' as' cs)]
    cases hin : inScope (.element q ds as cs :: up) p with
    | some u =>
      -- declared by the new element, so what its ancestors say does not count
      have hlookup : ds'.lookup p = some u :=
        lookup_of_mem_of_nodup h.nodup ((h.mem p u).mpr hin)
      rw [Tree.decls, hlookup, Option.some_or]
    | none =>
      -- nothing is lost with the ancestors that were cut off
      have hlookup : ds'.lookup p = none := by
        refine OrdMap.lookup_eq_none fun d hd hp => ?_
        have hsome := (h.mem d.1 d.2).mp hd
        rw [hp, hin] at hsome
        cases hsome
      rw [inScope_cons, Option.or_eq_none_iff] at hin
      rw [Tree.decls, hlookup, Option.none_or, inScope_eq_none_of_suffix hsuffix hin.2]

end

/-- What an apex inherits can be written on it. -/
theorem exists_inherits {up : List Tree} (hup : ChainOk up) {chain : List Tree}
    (hs : ScopeOk chain) (as : List Attr) :
    ∃ added, Inherits (xmlAttr? as) (nearestXmlAttr? up) added := by
  obtain ⟨added, -, h⟩ := inheritedXmlAttributes_eq hup.scopeOk (ownRows_attrRow hs as)
    (colon_notMem_of_chainOk hup) (.nil (xmlAttr? as))
  exact ⟨added, h.congr fun _ => Option.none_or⟩

/-- So can the namespaces in scope. -/
theorem declaresScope_namespaces {chain : List Tree} (hs : ScopeOk chain) :
    DeclaresScope chain (namespaces chain) :=
  ⟨namespaces_nodup hs, fun _ _ =>
    ⟨fun h => lookup_of_mem_of_nodup (namespaces_nodup hs) h, OrdMap.mem_of_lookup⟩⟩

/-- Inclusive C14N of an element is that of the element which carries the `xml:*` attributes
    that it inherits and declares the namespaces in scope, in its place or cut off from any
    number of its ancestors; and its content is written as under any other ancestors with the
    same namespaces in scope. -/
theorem inclusive_c14n_inherits (doc : Document) (n : Node) (hn : n ∈ doc.descendants) (q : QName)
    (ds : List (Str × Str)) (as : List Attr) (cs : List Tree) (htree : n.tree = .element q ds as cs)
    (profile : WsSecCanonicalizationProfile) (hkind : profile.kind = .inclusive)
    (override : Option (List Str)) (omitted : Option Node) :
    (∃ added, Inherits (xmlAttr? as) (nearestXmlAttr? n.up) added) ∧
    (∃ ds', DeclaresScope n.chain ds') ∧
    (∀ added ds' up', Inherits (xmlAttr? as) (nearestXmlAttr? n.up) added →
      DeclaresScope n.chain ds' → up' <:+ n.up →
      trySerializeNodeOmitting profile override omitted n =
        trySerializeNodeOmitting profile override omitted
          ⟨.element q ds' (as ++ added) cs, up', n.path⟩) ∧
    (omitted.map Node.path ≠ some n.path → ∀ chain', SameScope n.chain chain' →
      let tag := writeStartTag profile override .empty true n.chain q as
      trySerializeNodeOmitting profile override omitted n =
        (serializeChildren profile override (omitted.map Node.path) (OrdMap.empty.extend tag.2.1) 1
          chain' n.path 0 cs).map fun content =>
            tag.2.2 ++ content ++ ('<' :: '/' :: tag.1 ++ ['>'])) := by
  obtain ⟨tree, up, path⟩ := n
  obtain rfl : tree = .element q ds as cs := htree
  have hchain := Document.chainOk_of_mem hn
  have hwf : StartTagOk (.element q ds as cs :: up) q ds as ∧
      WellFormedList (.element q ds as cs :: up) cs := by
    rcases hchain.head with ⟨_, hroot⟩ | hwf
    · cases hroot
    · rwa [WellFormed] at hwf
  refine ⟨exists_inherits hchain.tail hchain.scopeOk as,
    ⟨_, declaresScope_namespaces hchain.scopeOk⟩, fun added ds' up' hadded hds hsuffix => ?_,
    fun homitted chain' hscope => ?_⟩
  · -- one start tag, and below it only the namespaces in scope matter
    have hscope := hds.sameScope hchain hsuffix (as ++ added)
    have hrows := attrRows_inherits hkind hscope rfl rfl hchain.tail hsuffix hwf.1.attrsNodup hadded
    have htag : writeStartTag profile override .empty true (.element q ds as cs :: up) q as =
        writeStartTag profile override .empty true (.element q ds' (as ++ added) cs :: up') q
          (as ++ added) := by
      simp only [writeStartTag, hrows, hscope.utilized_eq hkind as (as ++ added)]
    simp only [trySerializeNodeOmitting, serializeSubtree, beq_self_eq_true, htag]
    rw [(serializeSubtree_sameScope hkind).2 cs _ 1 _ _ path 0 Nat.one_ne_zero hscope hwf.2]
  · have hdepth : ¬ 0 ≥ maxC14nDepth := by decide
    intro tag
    dsimp only at homitted ⊢
    rw [← (serializeSubtree_sameScope hkind).2 cs _ 1 _ _ path 0 Nat.one_ne_zero hscope hwf.2]
    simp only [trySerializeNodeOmitting, serializeSubtree, beq_self_eq_true, if_neg homitted,
      if_neg hdepth]
    rfl

/-! ## An element below two languages -/

/-- An `xml:lang` attribute. -/
def xmlLang (value : Str) : Attr := ⟨⟨xmlPre, ['l', 'a', 'n', 'g']⟩, value⟩

/-- An `xml:space` attribute. -/
def xmlSpace : Attr := ⟨⟨xmlPre, ['s', 'p', 'a', 'c', 'e']⟩, Str.lit "preserve"⟩

/-- The element `a`. -/
def nestedTree : Tree :=
  .element ⟨[], ['a']⟩ [] [⟨⟨['p'], ['x']⟩, ['1']⟩] [.element ⟨['p'], ['b']⟩ [] [] []]

/-- The ancestors of `nestedTree`: a language, and another one with a binding and white space. -/
def nestedDocument : Document where
  children := [.element ⟨[], ['r']⟩ [(['p'], ['u'])] [xmlLang ['e', 'n'], xmlSpace]
    [.element ⟨[], ['s']⟩ [] [xmlLang ['d', 'e']] [nestedTree]]]
  ok := by decide +kernel

/-- The node of `nestedTree`. -/
def nestedNode : Node where
  tree := nestedTree
  up := [.element ⟨[], ['s']⟩ [] [xmlLang ['d', 'e']] [nestedTree],
    .element ⟨[], ['r']⟩ [(['p'], ['u'])] [xmlLang ['e', 'n'], xmlSpace]
      [.element ⟨[], ['s']⟩ [] [xmlLang ['d', 'e']] [nestedTree]],
    .root nestedDocument.children]
  path := [0, 0, 0]

/-- It inherits the nearer language. -/
theorem inherits_nested : Inherits (xmlAttr? [⟨⟨['p'], ['x']⟩, ['1']⟩])
    (nearestXmlAttr? nestedNode.up) [xmlLang ['d', 'e'], xmlSpace] := by
  refine ⟨by decide, fun a => ?_⟩
  obtain ⟨⟨pre, loc⟩, value⟩ := a
  constructor
  · intro h
    simp only [List.mem_cons, List.not_mem_nil, or_false] at h
    rcases h with h | h
    · cases h
      decide
    · cases h
      decide
  · rintro ⟨rfl, -, h⟩
    simp only [nestedNode, nearestXmlAttr?_cons, Tree.attrs, xmlAttr?_cons, xmlLang, xmlSpace,
      QName.mk.injEq, true_and] at h
    by_cases hlang : ['l', 'a', 'n', 'g'] = loc
    · subst hlang
      rw [if_pos rfl] at h
      cases h
      exact List.mem_cons_self
    · rw [if_neg hlang] at h
      by_cases hspace : ['s', 'p', 'a', 'c', 'e'] = loc
      · subst hspace
        cases h
        simp [xmlSpace]
      · simp [hlang, hspace, xmlAttr?, nearestXmlAttr?] at h

/-- The canonical form of `a`, and of the element that carries what `a` inherits. -/
theorem inclusive_c14n_inherits_nested :
    trySerializeNode .inclusive nestedNode = some (Str.lit
      "<a xmlns:p=\"u\" xml:lang=\"de\" xml:space=\"preserve\" p:x=\"1\"><p:b></p:b></a>") ∧
    trySerializeNode .inclusive nestedNode =
      trySerializeNode .inclusive ⟨.element ⟨[], ['a']⟩ [(['p'], ['u'])]
        [⟨⟨['p'], ['x']⟩, ['1']⟩, xmlLang ['d', 'e'], xmlSpace]
        [.element ⟨['p'], ['b']⟩ [] [] []], [], [0, 0, 0]⟩ := by
  refine ⟨by decide +kernel, ?_⟩
  have hfound : nestedDocument.descendants[3]? = some nestedNode := rfl
  have hmem := List.mem_of_getElem? hfound
  have hscope : DeclaresScope nestedNode.chain [(['p'], ['u'])] :=
    declaresScope_namespaces (Document.chainOk_of_mem hmem).scopeOk
  obtain ⟨-, -, hequal, -⟩ := inclusive_c14n_inherits nestedDocument nestedNode hmem _ _ _ _ rfl
    .inclusive rfl none none
  exact hequal _ _ [] inherits_nested hscope List.nil_suffix

end Asx
