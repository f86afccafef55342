import Asx.Native.References
import Asx.Xml.Nodes

/-!
# Same-document resolution is exact

`SameDocumentReferenceIndex` answers an id with the one element that carries it in
`wsu:Id`, an unqualified `Id` or `xml:id`, and with nothing when there is no such element
or more than one.

## Key results
- `get_buildImpl`: the entry of a wanted id, from the elements that carry it
- `resolve_buildForTargets_iff`: the resolver returns a node exactly when it is the only
  element of the document that carries the id
- `sameDocumentResolution_exact`: the answers of the full index, and that the filtered index
  gives the same ones
-/

namespace Asx

open Xml

/-- The element carries `id` in one of the three id attributes. -/
def CarriesId (n : Node) (id : Str) : Prop :=
  ∃ a ∈ n.tree.attrs, isReferenceIdAttr (n.attrNs a) a.name.loc ∧ a.value = id

instance (n : Node) (id : Str) : Decidable (CarriesId n id) :=
  inferInstanceAs (Decidable (∃ a ∈ n.tree.attrs, _))

namespace SameDocumentReferenceIndex

/-- The id is not filtered out of the index. -/
def Wanted (wanted : Option (List Str)) (id : Str) : Prop := ∀ w ∈ wanted, id ∈ w

/-! ## The ids of one element -/

/-- One attribute in the loop of `nodeIds`. -/
private def addId (wanted : Option (List Str)) (n : Node) (ids : List Str) (a : Attr) :
    List Str :=
  if isReferenceIdAttr (n.attrNs a) a.name.loc then
    if wanted.any fun w => !w.contains a.value then ids
    else if ids.contains a.value then ids
    else ids ++ [a.value]
  else ids

private theorem not_any_wanted {wanted : Option (List Str)} {id : Str} :
    (wanted.any fun w => !w.contains id) = false ↔ Wanted wanted id := by
  cases wanted <;> simp [Wanted]

/-- An attribute adds its value to the ids of a node when it is an id that is wanted. -/
private theorem mem_addId {wanted : Option (List Str)} {n : Node} {ids : List Str} {a : Attr}
    {id : Str} (hw : Wanted wanted id) :
    id ∈ addId wanted n ids a ↔
      id ∈ ids ∨ (isReferenceIdAttr (n.attrNs a) a.name.loc ∧ a.value = id) := by
  unfold addId
  split
  · rename_i hr
    split
    · rename_i hn
      constructor
      · exact Or.inl
      · rintro (h | ⟨-, rfl⟩)
        · exact h
        · rw [not_any_wanted.mpr hw] at hn
          cases hn
    · split
      · rename_i hc
        have hc : a.value ∈ ids := by simpa using hc
        constructor
        · exact Or.inl
        · rintro (h | ⟨-, rfl⟩)
          · exact h
          · exact hc
      · simp only [List.mem_append, List.mem_singleton, hr, true_and]
        exact or_congr_right eq_comm
  · rename_i hr
    simp [hr]

private theorem nodup_addId {wanted : Option (List Str)} {n : Node} {ids : List Str} {a : Attr}
    (h : ids.Nodup) : (addId wanted n ids a).Nodup := by
  unfold addId
  split
  · split
    · exact h
    · split
      · exact h
      · rename_i hc
        have hc : a.value ∉ ids := by simpa using hc
        rw [List.nodup_append']
        refine ⟨h, List.nodup_singleton _, ?_⟩
        simpa using hc
  · exact h

/-- So the ids of a node are the values of its id attributes. -/
private theorem foldl_addId {wanted : Option (List Str)} {n : Node} {id : Str}
    (hw : Wanted wanted id) (as : List Attr) (ids : List Str) :
    id ∈ as.foldl (addId wanted n) ids ↔ id ∈ ids ∨
      ∃ a ∈ as, isReferenceIdAttr (n.attrNs a) a.name.loc ∧ a.value = id := by
  induction as generalizing ids with
  | nil => simp
  | cons a as ih =>
    rw [List.foldl_cons, ih, mem_addId hw, or_assoc]
    simp only [List.mem_cons, exists_eq_or_imp]

/-- An element's wanted ids are those it carries. -/
theorem mem_nodeIds {wanted : Option (List Str)} {n : Node} {id : Str} (hw : Wanted wanted id) :
    id ∈ nodeIds wanted n ↔ CarriesId n id := by
  have h := foldl_addId (n := n) hw n.tree.attrs []
  rw [show nodeIds wanted n = n.tree.attrs.foldl (addId wanted n) [] from rfl, h]
  simp [CarriesId]

/-- A node is entered once for each id. -/
theorem nodup_nodeIds (wanted : Option (List Str)) (n : Node) : (nodeIds wanted n).Nodup := by
  suffices ∀ (as : List Attr) (ids : List Str), ids.Nodup →
      (as.foldl (addId wanted n) ids).Nodup from this n.tree.attrs [] List.nodup_nil
  intro as
  induction as with
  | nil => exact fun ids h => h
  | cons a as ih => exact fun ids h => ih _ (nodup_addId h)

/-! ## Entering ids -/

/-- The entry of an id after one more element that carries it. -/
private def afterNode (n : Node) : Option SameDocumentReferenceEntry → SameDocumentReferenceEntry
  | none => .unique n
  | some (.unique existing) => if existing.path = n.path then .unique existing else .ambiguous
  | some .ambiguous => .ambiguous

/-- Entering a node changes the entry of its id alone. -/
private theorem get_enter (n : Node) (entries : OrdMap Str SameDocumentReferenceEntry)
    (v k : Str) : (enter n entries v).get k =
      if k = v then some (afterNode n (entries.get v)) else entries.get k := by
  unfold enter
  cases h : entries.get v with
  | none => simp [afterNode]
  | some entry =>
    cases entry with
    | ambiguous => simp [afterNode]
    | unique existing =>
      simp only [afterNode]
      split
      · -- the same element again: the map is left as it is
        split
        · rename_i hk
          rw [hk, h]
        · rfl
      · simp

/-- Entering it for all its ids changes the entries of these. -/
private theorem get_foldl_enter (n : Node) {ids : List Str} (hn : ids.Nodup)
    (entries : OrdMap Str SameDocumentReferenceEntry) (k : Str) :
    (ids.foldl (enter n) entries).get k =
      if k ∈ ids then some (afterNode n (entries.get k)) else entries.get k := by
  induction ids generalizing entries with
  | nil => simp
  | cons v ids ih =>
    obtain ⟨hv, hn⟩ := List.nodup_cons.mp hn
    rw [List.foldl_cons, ih hn, get_enter]
    by_cases hk : k = v
    · subst hk
      simp [hv]
    · simp [hk]

/-! ## The whole index -/

/-- The entry that a list of elements carrying one id stands for. -/
def entryOf : List Node → Option SameDocumentReferenceEntry
  | [] => none
  | [n] => some (.unique n)
  | _ :: _ :: _ => some .ambiguous

/-- An entry tells of no node, of the only one, or of more than one. -/
private theorem afterNode_entryOf {done : List Node} {n : Node}
    (h : n.path ∉ done.map Node.path) :
    some (afterNode n (entryOf done)) = entryOf (done ++ [n]) := by
  obtain _ | ⟨m, _ | ⟨m', rest⟩⟩ := done
  · rfl
  · have hne : m.path ≠ n.path := fun he => h (by simp [he])
    simp [entryOf, afterNode, hne]
  · rfl

/-- After the loop over the nodes the entry of an id is that of its carriers. -/
private theorem get_foldl_nodes {wanted : Option (List Str)} {id : Str} (hw : Wanted wanted id)
    (nodes done : List Node) (hp : ((done ++ nodes).map Node.path).Nodup)
    (entries : OrdMap Str SameDocumentReferenceEntry)
    (he : entries.get id = entryOf (done.filter (CarriesId · id))) :
    (nodes.foldl (fun entries n => (nodeIds wanted n).foldl (enter n) entries) entries).get id =
      entryOf ((done ++ nodes).filter (CarriesId · id)) := by
  -- `done` are the elements before: the entry of `id` stands for those of them that carry it
  induction nodes generalizing done entries with
  | nil => simpa using he
  | cons n nodes ih =>
    rw [List.foldl_cons, List.append_cons]
    refine ih (done ++ [n]) (by simpa using hp) _ ?_
    rw [get_foldl_enter n (nodup_nodeIds wanted n)]
    by_cases hc : CarriesId n id
    · have hn : n.path ∉ (done.filter (CarriesId · id)).map Node.path := by
        intro hmem
        obtain ⟨m, hm, hmp⟩ := List.mem_map.mp hmem
        rw [List.map_append, List.nodup_append'] at hp
        exact hp.2.2 (List.mem_map_of_mem (List.mem_of_mem_filter hm)) (by simp [hmp])
      rw [if_pos ((mem_nodeIds hw).mpr hc), he, afterNode_entryOf hn]
      simp [List.filter_append, hc]
    · rw [if_neg (fun h => hc ((mem_nodeIds hw).mp h)), he]
      simp [List.filter_append, hc]

/-- The elements of a document that carry an id. -/
def carriers (doc : Document) (id : Str) : List Node :=
  (doc.descendants.filter Node.isElement).filter (CarriesId · id)

/-- The entry of a wanted id stands for the elements that carry it. -/
theorem get_buildImpl {doc : Document} {wanted : Option (List Str)} {id : Str}
    (hw : Wanted wanted id) : (buildImpl doc wanted).entries.get id = entryOf (carriers doc id) := by
  have hp : ((doc.descendants.filter Node.isElement).map Node.path).Nodup :=
    (nodup_paths doc.root).sublist (List.filter_sublist.map Node.path)
  exact get_foldl_nodes hw _ [] (by simpa using hp) .empty (by simp [entryOf])

/-- An entry with a node is for the only carrier. -/
theorem entryOf_eq_unique {nodes : List Node} {n : Node} :
    entryOf nodes = some (.unique n) ↔ nodes = [n] := by
  obtain _ | ⟨m, _ | ⟨m', rest⟩⟩ := nodes <;> simp [entryOf]

end SameDocumentReferenceIndex

open SameDocumentReferenceIndex

/-- The resolver returns a node when its entry is unique. -/
theorem resolve_eq_ok {index : SameDocumentReferenceIndex} {uri id : Str} {n : Node} :
    resolveSameDocumentReferenceTargetWithIndex index uri id = .ok n ↔
      index.entries.get id = some (.unique n) := by
  unfold resolveSameDocumentReferenceTargetWithIndex
  split
  · rename_i m h
    simp [h]
  · rename_i h
    simp [h]
  · rename_i h
    simp [h]

/-- **Same-document resolution is exact**: a wanted id resolves to a node exactly when that
    node is the only element of the document that carries it. -/
theorem resolve_buildForTargets_iff {doc : Document} {ids : List Str} {uri id : Str} {n : Node}
    (h : id ∈ ids) :
    resolveSameDocumentReferenceTargetWithIndex (buildForTargets doc ids) uri id = .ok n ↔
      carriers doc id = [n] := by
  have hne : ids ≠ [] := List.ne_nil_of_mem h
  have hw : Wanted (some ids) id := by
    intro w hw
    rw [Option.mem_def, Option.some.injEq] at hw
    exact hw ▸ h
  rw [resolve_eq_ok, buildForTargets, if_neg hne, get_buildImpl hw, entryOf_eq_unique]

/-- A node of the document that has the id in one of its attributes carries it. -/
theorem mem_carriers {doc : Document} {n : Node} {a : Attr} (hn : n ∈ doc.descendants)
    (ha : a ∈ n.tree.attrs) (hattr : isReferenceIdAttr (n.attrNs a) a.name.loc = true) :
    n ∈ carriers doc a.value := by
  have helem : n.isElement = true := by
    cases ht : n.tree <;> simp [Node.isElement, Tree.isElement, Tree.attrs, ht] at ha ⊢
  exact List.mem_filter.mpr ⟨List.mem_filter.mpr ⟨hn, helem⟩, decide_eq_true ⟨a, ha, hattr, rfl⟩⟩

/-- What the only carrier of an id is. -/
theorem mem_of_carriers_eq {doc : Document} {id : Str} {n : Node} (h : carriers doc id = [n]) :
    n ∈ doc.descendants ∧ n.isElement = true ∧ CarriesId n id := by
  have hn : n ∈ carriers doc id := by simp [h]
  obtain ⟨hn, hc⟩ := List.mem_filter.mp hn
  obtain ⟨hn, he⟩ := List.mem_filter.mp hn
  exact ⟨hn, he, by simpa using hc⟩

/-! ## The three answers -/

/-- The error for an id that several elements carry. -/
def ambiguousTarget (uri targetId : Str) : AsxError :=
  ⟨.interopViolation,
    "ambiguous same-document reference target for URI " ++ uri ++
      ": multiple elements share ID " ++ targetId,
    (ErrorContext.new "wssec_canonicalize").withMessageId uri⟩

/-- An element of the document that carries the id. -/
def IsCarrier (doc : Document) (id : Str) (n : Node) : Prop :=
  n ∈ doc.descendants ∧ n.isElement = true ∧ CarriesId n id

/-- The carriers of an id are the elements that have it. -/
theorem mem_carriers_iff {doc : Document} {id : Str} {n : Node} :
    n ∈ carriers doc id ↔ IsCarrier doc id n := by
  simp only [carriers, IsCarrier, List.mem_filter, decide_eq_true_eq, and_assoc]

theorem nodup_carriers (doc : Document) (id : Str) : (carriers doc id).Nodup := by
  have hp : (doc.descendants.map Node.path).Nodup := nodup_paths doc.root
  exact ((List.Nodup.of_map _ hp).filter _).filter _

theorem resolve_eq_ambiguous {index : SameDocumentReferenceIndex} {uri id : Str} :
    resolveSameDocumentReferenceTargetWithIndex index uri id = .error (ambiguousTarget uri id) ↔
      index.entries.get id = some .ambiguous := by
  unfold resolveSameDocumentReferenceTargetWithIndex
  split
  · rename_i n h
    simp [h]
  · rename_i h
    simp [h, ambiguousTarget]
  · rename_i h
    -- an id nobody carries is refused with another code
    simp [h, ambiguousTarget]

theorem entryOf_eq_ambiguous {nodes : List Node} :
    entryOf nodes = some .ambiguous ↔ 1 < nodes.length := by
  obtain _ | ⟨m, _ | ⟨m', rest⟩⟩ := nodes <;> simp [entryOf]

/-- The resolver reads nothing of the index but the entry of the id. -/
theorem resolve_congr {index index' : SameDocumentReferenceIndex} {uri id : Str}
    (h : index.entries.get id = index'.entries.get id) :
    resolveSameDocumentReferenceTargetWithIndex index uri id =
      resolveSameDocumentReferenceTargetWithIndex index' uri id := by
  unfold resolveSameDocumentReferenceTargetWithIndex
  rw [h]

theorem carriers_eq_singleton_iff {doc : Document} {id : Str} {n : Node} :
    carriers doc id = [n] ↔ IsCarrier doc id n ∧ ∀ m, IsCarrier doc id m → m = n := by
  constructor
  · intro h
    refine ⟨mem_carriers_iff.mp (by simp [h]), fun m hm => ?_⟩
    have hmem := mem_carriers_iff.mpr hm
    rw [h] at hmem
    exact List.mem_singleton.mp hmem
  · rintro ⟨hn, honly⟩
    have hall : ∀ m ∈ carriers doc id, m = n := fun m hm => honly m (mem_carriers_iff.mp hm)
    have hrep := List.eq_replicate_of_mem hall
    have hpos : 0 < (carriers doc id).length := List.length_pos_of_mem (mem_carriers_iff.mpr hn)
    have hle : (carriers doc id).length ≤ 1 := by
      have hnodup := nodup_carriers doc id
      rw [hrep, List.nodup_replicate] at hnodup
      exact hnodup
    have hone : (carriers doc id).length = 1 := by omega
    rw [hrep, hone]
    rfl

private theorem one_lt_length_iff {α : Type} {l : List α} (hnodup : l.Nodup) :
    1 < l.length ↔ ∃ m n, m ∈ l ∧ n ∈ l ∧ m ≠ n := by
  obtain _ | ⟨m, _ | ⟨n, rest⟩⟩ := l
  · simp
  · simp only [List.length_singleton, Nat.lt_irrefl, List.mem_singleton, false_iff]
    rintro ⟨m', n', rfl, rfl, hne⟩
    exact hne rfl
  · rw [List.nodup_cons] at hnodup
    constructor
    · intro _
      exact ⟨m, n, by simp, by simp, fun he => hnodup.1 (by simp [he])⟩
    · intro _
      simp

/-- An id is ambiguous when two elements carry it. -/
theorem one_lt_carriers_iff {doc : Document} {id : Str} :
    1 < (carriers doc id).length ↔
      ∃ m n, IsCarrier doc id m ∧ IsCarrier doc id n ∧ m ≠ n := by
  simp only [← mem_carriers_iff]
  exact one_lt_length_iff (nodup_carriers doc id)

/-- **Same-document resolution is exact.** The full index returns a node exactly when it is
    the only element that carries the id and calls the id ambiguous exactly when two elements
    carry it, and the index for some targets answers each of these as the full one does. -/
theorem sameDocumentResolution_exact (doc : Document) (uri id : Str) :
    (∀ n, resolveSameDocumentReferenceTargetWithIndex (build doc) uri id = .ok n ↔
        IsCarrier doc id n ∧ ∀ m, IsCarrier doc id m → m = n) ∧
      (resolveSameDocumentReferenceTargetWithIndex (build doc) uri id =
          .error (ambiguousTarget uri id) ↔
        ∃ m n, IsCarrier doc id m ∧ IsCarrier doc id n ∧ m ≠ n) ∧
      ∀ targetIds, id ∈ targetIds →
        resolveSameDocumentReferenceTargetWithIndex (buildForTargets doc targetIds) uri id =
          resolveSameDocumentReferenceTargetWithIndex (build doc) uri id := by
  have hbuild : (build doc).entries.get id = entryOf (carriers doc id) :=
    get_buildImpl (by simp [Wanted])
  refine ⟨fun n => ?_, ?_, fun targetIds hid => resolve_congr ?_⟩
  · rw [resolve_eq_ok, hbuild, entryOf_eq_unique, carriers_eq_singleton_iff]
  · rw [resolve_eq_ambiguous, hbuild, entryOf_eq_ambiguous, one_lt_carriers_iff]
  · have hw : Wanted (some targetIds) id := by simpa [Wanted] using hid
    rw [buildForTargets, if_neg (List.ne_nil_of_mem hid), get_buildImpl hw, hbuild]

end Asx
