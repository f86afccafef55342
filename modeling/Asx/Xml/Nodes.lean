import Asx.Xml.WellFormed
import Mathlib.Data.List.Infix
import Mathlib.Data.List.Nodup

/-!
# Nodes and their positions

A node of a document is determined by its position, and the descendants of a node are the
nodes whose position extends its own.

## Key results
- `nodup_paths`: the nodes below a node have distinct positions
- `Document.eq_of_path_eq`: two nodes of a document at one position are equal
- `mem_descendants_trans`: a descendant of a descendant is a descendant
- `Document.chainOk_of_mem`: every node is well-formed
-/

namespace Xml

/-! ## Names -/

/-- A node with a tag name is an element. -/
theorem isElement_of_hasTagName {n : Node} {ns loc : Str} (h : n.hasTagName ns loc = true) :
    n.isElement = true := by
  simp only [Node.hasTagName, Bool.and_eq_true] at h
  exact h.1.1

/-! ## Positions -/

/-- A node below another has its path in front of the other's. -/
private theorem suffix_of_mem_aux :
    (∀ (t : Tree) (up : List Tree) (path : List Nat),
      ∀ n ∈ descendantsOf up path t, path <:+ n.path) ∧
    (∀ (ts : List Tree) (up : List Tree) (path : List Nat) (i : Nat),
      ∀ n ∈ descendantsOfList up path i ts, ∃ j, i ≤ j ∧ (j :: path) <:+ n.path) := by
  -- an inner node's own position is `path`; its children's extend it by their index
  have inner : ∀ (cs : List Tree) (m : Node) (up' : List Tree) (path : List Nat),
      m.path = path →
      (∀ (up : List Tree) (path : List Nat) (i : Nat),
        ∀ n ∈ descendantsOfList up path i cs, ∃ j, i ≤ j ∧ (j :: path) <:+ n.path) →
      ∀ n ∈ m :: descendantsOfList up' path 0 cs, path <:+ n.path := by
    intro cs m up' path hm ih n hn
    obtain rfl | hn := List.mem_cons.mp hn
    · rw [hm]
    · obtain ⟨j, -, hj⟩ := ih _ _ _ n hn
      exact (List.suffix_cons j path).trans hj
  apply Tree.induction
  case root => exact fun cs ih up path => inner cs ⟨.root cs, up, path⟩ _ path rfl ih
  case element =>
    exact fun q ds as cs ih up path => inner cs ⟨.element q ds as cs, up, path⟩ _ path rfl ih
  case text =>
    intro s up path n hn
    rw [descendantsOf, List.mem_singleton] at hn
    rw [hn]
  case comment =>
    intro s up path n hn
    rw [descendantsOf, List.mem_singleton] at hn
    rw [hn]
  case pi =>
    intro target data up path n hn
    rw [descendantsOf, List.mem_singleton] at hn
    rw [hn]
  case nil =>
    intro up path i n hn
    rw [descendantsOfList] at hn
    cases hn
  case cons =>
    intro t ts iht ihts up path i n hn
    rw [descendantsOfList] at hn
    obtain hn | hn := List.mem_append.mp hn
    · exact ⟨i, le_rfl, iht _ _ n hn⟩
    · obtain ⟨j, hj, hs⟩ := ihts _ _ _ n hn
      exact ⟨j, by omega, hs⟩

/-- The position of a descendant extends the node's. -/
theorem suffix_of_mem_descendantsOf {t : Tree} {up : List Tree} {path : List Nat} {n : Node}
    (h : n ∈ descendantsOf up path t) : path <:+ n.path :=
  suffix_of_mem_aux.1 t up path n h

theorem suffix_of_mem_descendantsOfList {ts : List Tree} {up : List Tree} {path : List Nat}
    {i : Nat} {n : Node} (h : n ∈ descendantsOfList up path i ts) :
    ∃ j, i ≤ j ∧ (j :: path) <:+ n.path :=
  suffix_of_mem_aux.2 ts up path i n h

/-- Suffixes of one list of equal length are equal. -/
private theorem head_eq_of_suffix {i j : Nat} {path l : List Nat} (hi : (i :: path) <:+ l)
    (hj : (j :: path) <:+ l) : i = j := by
  have h := List.IsSuffix.eq_of_length
    (List.suffix_of_suffix_length_le hi hj (by simp)) (by simp)
  exact (List.cons.inj h).1

/-- No two nodes below another have one path. -/
private theorem nodup_paths_aux :
    (∀ (t : Tree) (up : List Tree) (path : List Nat),
      ((descendantsOf up path t).map Node.path).Nodup) ∧
    (∀ (ts : List Tree) (up : List Tree) (path : List Nat) (i : Nat),
      ((descendantsOfList up path i ts).map Node.path).Nodup) := by
  have inner : ∀ (cs : List Tree) (m : Node) (up' : List Tree) (path : List Nat),
      m.path = path →
      (∀ (up : List Tree) (path : List Nat) (i : Nat),
        ((descendantsOfList up path i cs).map Node.path).Nodup) →
      ((m :: descendantsOfList up' path 0 cs).map Node.path).Nodup := by
    intro cs m up' path hm ih
    rw [List.map_cons, List.nodup_cons]
    refine ⟨fun hmem => ?_, ih _ _ _⟩
    obtain ⟨n, hn, hp⟩ := List.mem_map.mp hmem
    obtain ⟨j, -, hs⟩ := suffix_of_mem_descendantsOfList hn
    have hl := hs.length_le
    rw [hp, hm, List.length_cons] at hl
    omega
  apply Tree.induction
  case root => exact fun cs ih up path => inner cs ⟨.root cs, up, path⟩ _ path rfl ih
  case element =>
    exact fun q ds as cs ih up path => inner cs ⟨.element q ds as cs, up, path⟩ _ path rfl ih
  case text => exact fun s up path => by simp [descendantsOf]
  case comment => exact fun s up path => by simp [descendantsOf]
  case pi => exact fun target data up path => by simp [descendantsOf]
  case nil => exact fun up path i => by simp [descendantsOfList]
  case cons =>
    intro t ts iht ihts up path i
    rw [descendantsOfList, List.map_append, List.nodup_append']
    refine ⟨iht _ _, ihts _ _ _, ?_⟩
    -- the first child's nodes lie under position `i`, those of the others under a later one
    intro p hp hps
    obtain ⟨n, hn, rfl⟩ := List.mem_map.mp hp
    obtain ⟨m, hm, hmn⟩ := List.mem_map.mp hps
    have hi := suffix_of_mem_descendantsOf hn
    obtain ⟨j, hj, hs⟩ := suffix_of_mem_descendantsOfList hm
    rw [hmn] at hs
    have := head_eq_of_suffix hi hs
    omega

/-- The descendants of a node have distinct positions. -/
theorem nodup_paths (n : Node) : (n.descendants.map Node.path).Nodup := nodup_paths_aux.1 _ _ _

/-- A position of a document belongs to one node. -/
theorem Document.eq_of_path_eq {doc : Document} {n m : Node} (hn : n ∈ doc.descendants)
    (hm : m ∈ doc.descendants) (h : n.path = m.path) : n = m :=
  List.inj_on_of_nodup_map (nodup_paths doc.root) hn hm h

/-! ## Descendants -/

/-- A node is its own first descendant. -/
theorem self_mem_descendants (n : Node) : n ∈ n.descendants := by
  obtain ⟨t, up, path⟩ := n
  cases t <;> simp [Node.descendants, descendantsOf]

/-- Being below is transitive. -/
private theorem mem_trans_aux :
    (∀ (t : Tree) (up : List Tree) (path : List Nat), ∀ n ∈ descendantsOf up path t,
      ∀ m ∈ n.descendants, m ∈ descendantsOf up path t) ∧
    (∀ (ts : List Tree) (up : List Tree) (path : List Nat) (i : Nat),
      ∀ n ∈ descendantsOfList up path i ts,
        ∀ m ∈ n.descendants, m ∈ descendantsOfList up path i ts) := by
  apply Tree.induction
  case root =>
    intro cs ih up path n hn m hm
    rw [descendantsOf] at hn
    obtain rfl | hn := List.mem_cons.mp hn
    · exact hm
    · rw [descendantsOf]
      exact List.mem_cons_of_mem _ (ih _ _ _ n hn m hm)
  case element =>
    intro q ds as cs ih up path n hn m hm
    rw [descendantsOf] at hn
    obtain rfl | hn := List.mem_cons.mp hn
    · exact hm
    · rw [descendantsOf]
      exact List.mem_cons_of_mem _ (ih _ _ _ n hn m hm)
  case text =>
    intro s up path n hn m hm
    rw [descendantsOf, List.mem_singleton] at hn
    rwa [hn] at hm
  case comment =>
    intro s up path n hn m hm
    rw [descendantsOf, List.mem_singleton] at hn
    rwa [hn] at hm
  case pi =>
    intro target data up path n hn m hm
    rw [descendantsOf, List.mem_singleton] at hn
    rwa [hn] at hm
  case nil =>
    intro up path i n hn
    rw [descendantsOfList] at hn
    cases hn
  case cons =>
    intro t ts iht ihts up path i n hn m hm
    rw [descendantsOfList] at hn ⊢
    obtain hn | hn := List.mem_append.mp hn
    · exact List.mem_append_left _ (iht _ _ n hn m hm)
    · exact List.mem_append_right _ (ihts _ _ _ n hn m hm)

/-- A descendant of a descendant is a descendant. -/
theorem mem_descendants_trans {n m k : Node} (hm : m ∈ n.descendants) (hk : k ∈ m.descendants) :
    k ∈ n.descendants :=
  mem_trans_aux.1 _ _ _ m hm k hk

/-! ## Children -/

private theorem child_mem_list {ts : List Tree} {up : List Tree} {path : List Nat} {i j : Nat}
    {t : Tree} (h : ts[j]? = some t) :
    (⟨t, up, (i + j) :: path⟩ : Node) ∈ descendantsOfList up path i ts := by
  induction ts generalizing i j with
  | nil => simp at h
  | cons u us ih =>
    rw [descendantsOfList]
    cases j with
    | zero =>
      simp only [List.getElem?_cons_zero, Option.some.injEq] at h
      subst h
      exact List.mem_append_left _ (self_mem_descendants ⟨u, up, i :: path⟩)
    | succ j =>
      have := ih (i := i + 1) (j := j) (by simpa using h)
      rw [show i + (j + 1) = i + 1 + j by omega]
      exact List.mem_append_right _ this

/-- A child is a descendant. -/
theorem mem_descendants_of_mem_children {n c : Node} (h : c ∈ n.children) :
    c ∈ n.descendants := by
  obtain ⟨t, up, path⟩ := n
  simp only [Node.children, List.mem_mapIdx] at h
  obtain ⟨i, hi, rfl⟩ := h
  have hget : t.children[i]? = some t.children[i] := List.getElem?_eq_getElem hi
  have hmem := @child_mem_list t.children (t :: up) path 0 i _ hget
  rw [Nat.zero_add] at hmem
  cases t with
  | root cs => exact List.mem_cons_of_mem _ hmem
  | element q ds as cs => exact List.mem_cons_of_mem _ hmem
  | text s => simp [Tree.children] at hi
  | comment s => simp [Tree.children] at hi
  | pi target data => simp [Tree.children] at hi

/-- A child knows its parent. -/
theorem parent?_of_mem_children {n c : Node} (h : c ∈ n.children) : c.parent? = some n := by
  simp only [Node.children, List.mem_mapIdx] at h
  obtain ⟨i, hi, rfl⟩ := h
  rfl

/-- A node below another is that one or a child of one below it. -/
private theorem mem_children_aux :
    (∀ (t : Tree) (up : List Tree) (path : List Nat), ∀ n ∈ descendantsOf up path t,
      n = ⟨t, up, path⟩ ∨ ∃ p ∈ descendantsOf up path t, n ∈ p.children) ∧
    (∀ (ts : List Tree) (up : List Tree) (path : List Nat) (i : Nat),
      ∀ n ∈ descendantsOfList up path i ts,
        (∃ j t, ts[j]? = some t ∧ n = ⟨t, up, (i + j) :: path⟩) ∨
          ∃ p ∈ descendantsOfList up path i ts, n ∈ p.children) := by
  -- below an inner node, a node is one of its children or has its parent further down
  have inner : ∀ (m : Node) (rest : List Node),
      (∀ n ∈ rest, (∃ j t, m.tree.children[j]? = some t ∧ n = ⟨t, m.chain, (0 + j) :: m.path⟩) ∨
        ∃ p ∈ rest, n ∈ p.children) →
      ∀ n ∈ m :: rest, n = m ∨ ∃ p ∈ m :: rest, n ∈ p.children := by
    intro m rest ih n hn
    obtain rfl | hn := List.mem_cons.mp hn
    · exact .inl rfl
    · refine .inr ?_
      obtain ⟨j, t, hj, rfl⟩ | ⟨p, hp, hc⟩ := ih n hn
      · refine ⟨m, List.mem_cons_self, ?_⟩
        obtain ⟨hlt, rfl⟩ := List.getElem?_eq_some_iff.mp hj
        rw [Nat.zero_add]
        exact List.mem_mapIdx.mpr ⟨j, hlt, rfl⟩
      · exact ⟨p, List.mem_cons_of_mem _ hp, hc⟩
  apply Tree.induction
  case root =>
    intro cs ih up path
    exact inner ⟨.root cs, up, path⟩ _ (ih _ _ _)
  case element =>
    intro q ds as cs ih up path
    exact inner ⟨.element q ds as cs, up, path⟩ _ (ih _ _ _)
  case text => exact fun s up path n hn => .inl (List.mem_singleton.mp hn)
  case comment => exact fun s up path n hn => .inl (List.mem_singleton.mp hn)
  case pi => exact fun target data up path n hn => .inl (List.mem_singleton.mp hn)
  case nil =>
    intro up path i n hn
    rw [descendantsOfList] at hn
    cases hn
  case cons =>
    intro t ts iht ihts up path i n hn
    rw [descendantsOfList] at hn ⊢
    obtain hn | hn := List.mem_append.mp hn
    · obtain rfl | ⟨p, hp, hc⟩ := iht _ _ n hn
      · exact .inl ⟨0, t, rfl, rfl⟩
      · exact .inr ⟨p, List.mem_append_left _ hp, hc⟩
    · obtain ⟨j, u, hj, rfl⟩ | ⟨p, hp, hc⟩ := ihts _ _ _ n hn
      · refine .inl ⟨j + 1, u, by simpa using hj, ?_⟩
        rw [show i + 1 + j = i + (j + 1) by omega]
      · exact .inr ⟨p, List.mem_append_right _ hp, hc⟩

/-- A descendant is the node itself or a child of a descendant. -/
theorem eq_or_mem_children_of_mem_descendants {n c : Node} (h : c ∈ n.descendants) :
    c = n ∨ ∃ p ∈ n.descendants, c ∈ p.children :=
  mem_children_aux.1 _ _ _ c h

/-- The parent of a descendant, other than the node itself, is a descendant. -/
theorem parent_mem_descendants {n c p : Node} (h : c ∈ n.descendants) (hne : c ≠ n)
    (hc : c ∈ p.children) : p ∈ n.descendants := by
  obtain rfl | ⟨p', hp', hc'⟩ := eq_or_mem_children_of_mem_descendants h
  · exact absurd rfl hne
  · have := (parent?_of_mem_children hc).symm.trans (parent?_of_mem_children hc')
    rw [Option.some.injEq] at this
    exact this ▸ hp'

/-- The parent of a node of a document has the node as a child. -/
theorem Document.mem_children_of_parent? {doc : Document} {n p : Node}
    (hn : n ∈ doc.descendants) (hp : n.parent? = some p) :
    p ∈ doc.descendants ∧ n ∈ p.children := by
  obtain rfl | ⟨p', hp', hc⟩ := eq_or_mem_children_of_mem_descendants hn
  · cases hp
  · rw [parent?_of_mem_children hc, Option.some.injEq] at hp
    exact hp ▸ ⟨hp', hc⟩

/-- The document's element is one of its nodes. -/
theorem Document.rootElement_mem (doc : Document) : doc.rootElement ∈ doc.descendants := by
  unfold Document.rootElement
  cases h : doc.root.children.find? Node.isElement with
  | none => exact self_mem_descendants doc.root
  | some n => exact mem_descendants_of_mem_children (List.mem_of_find?_eq_some h)

/-! ## Ancestors -/

/-- The ancestors of a node are it and those of its parent. -/
theorem mem_ancestors_iff {m n : Node} :
    n ∈ m.ancestors ↔ n = m ∨ ∃ p, m.parent? = some p ∧ n ∈ p.ancestors := by
  obtain ⟨t, up, path⟩ := m
  cases up with
  | nil => simp [Node.ancestors, Node.properAncestors, Node.parent?, Node.ancestorsFrom]
  | cons u up =>
    simp [Node.ancestors, Node.properAncestors, Node.parent?, Node.ancestorsFrom]

theorem ancestors_eq_of_parent? {n p : Node} (h : n.parent? = some p) :
    n.ancestors = n :: p.ancestors := by
  obtain ⟨t, up, path⟩ := n
  cases up with
  | nil => cases h
  | cons u up =>
    cases h
    rfl

theorem ancestors_eq_of_root {n : Node} (h : n.parent? = none) : n.ancestors = [n] := by
  obtain ⟨t, up, path⟩ := n
  cases up with
  | nil => rfl
  | cons u up => cases h

/-- The way up gets shorter. -/
theorem length_up_parent? {m p : Node} (h : m.parent? = some p) : p.up.length < m.up.length := by
  obtain ⟨t, up, path⟩ := m
  cases up with
  | nil => cases h
  | cons u up =>
    cases h
    exact Nat.lt_succ_self _

/-- The ancestors of a node of a document, itself included, are the nodes that it lies
    below. -/
theorem Document.mem_ancestors_iff {doc : Document} {m n : Node} (hm : m ∈ doc.descendants) :
    n ∈ m.ancestors ↔ n ∈ doc.descendants ∧ m ∈ n.descendants := by
  induction h : m.up.length using Nat.strong_induction_on generalizing m with
  | _ k ih =>
    subst h
    rw [Xml.mem_ancestors_iff]
    constructor
    · rintro (rfl | ⟨p, hp, hn⟩)
      · exact ⟨hm, self_mem_descendants n⟩
      · obtain ⟨hpdoc, hc⟩ := Document.mem_children_of_parent? hm hp
        obtain ⟨hndoc, hpn⟩ := (ih _ (length_up_parent? hp) hpdoc rfl).mp hn
        exact ⟨hndoc, mem_descendants_trans hpn (mem_descendants_of_mem_children hc)⟩
    · rintro ⟨hndoc, hmn⟩
      obtain rfl | ⟨p, hp, hc⟩ := eq_or_mem_children_of_mem_descendants hmn
      · exact .inl rfl
      · have hparent := parent?_of_mem_children hc
        exact .inr ⟨p, hparent, (ih _ (length_up_parent? hparent)
          (mem_descendants_trans hndoc hp) rfl).mpr ⟨hndoc, hp⟩⟩

/-- A node and its parent are told apart by their depth, and so are a node and its ancestors. -/
theorem eq_or_length_up_lt {m n : Node} (h : n ∈ m.ancestors) :
    n = m ∨ n.up.length < m.up.length := by
  induction hk : m.up.length using Nat.strong_induction_on generalizing m with
  | _ k ih =>
    subst hk
    obtain rfl | ⟨p, hp, hn⟩ := mem_ancestors_iff.mp h
    · exact .inl rfl
    · have hlt := length_up_parent? hp
      rcases ih _ hlt hn rfl with rfl | hlt'
      · exact .inr hlt
      · exact .inr (hlt'.trans hlt)

/-- Two nodes above each other are one. -/
theorem eq_of_mem_ancestors {m n : Node} (h : n ∈ m.ancestors) (h' : m ∈ n.ancestors) : n = m := by
  rcases eq_or_length_up_lt h with heq | hlt
  · exact heq
  · rcases eq_or_length_up_lt h' with heq | hlt'
    · exact heq.symm
    · omega

/-- The children of a node are distinct. -/
theorem nodup_children (n : Node) : n.children.Nodup := by
  rw [List.Nodup, List.pairwise_iff_getElem]
  intro i j hi hj hij heq
  simp only [Node.children, List.getElem_mapIdx, Node.mk.injEq, List.cons.injEq] at heq
  omega

/-! ## Well-formed nodes -/

/-- Every tree of a chain, the document node apart, is well-formed below the trees above it. -/
def ChainOk (chain : List Tree) : Prop :=
  ∀ t up, t :: up <:+ chain → (∃ cs, t = .root cs) ∨ WellFormed up t

/-- A well-formed element continues a well-formed chain. -/
theorem ChainOk.cons {t : Tree} {up : List Tree} (h : ChainOk up)
    (ht : (∃ cs, t = .root cs) ∨ WellFormed up t) : ChainOk (t :: up) := by
  intro t' up' hsuffix
  rcases List.suffix_cons_iff.mp hsuffix with heq | hsuffix'
  · obtain ⟨rfl, rfl⟩ := List.cons.inj heq
    exact ht
  · exact h t' up' hsuffix'

theorem ChainOk.tail {t : Tree} {up : List Tree} (h : ChainOk (t :: up)) : ChainOk up :=
  fun t' up' hsuffix => h t' up' (hsuffix.trans (List.suffix_cons t up))

theorem ChainOk.head {t : Tree} {up : List Tree} (h : ChainOk (t :: up)) :
    (∃ cs, t = .root cs) ∨ WellFormed up t :=
  h t up List.suffix_rfl

/-- What is above in a well-formed chain is one. -/
theorem ChainOk.of_suffix {chain chain' : List Tree} (h : ChainOk chain)
    (hsuffix : chain' <:+ chain) : ChainOk chain' :=
  fun t up hup => h t up (hup.trans hsuffix)

/-- Well-formed nodes declare nothing illegal. -/
theorem ChainOk.scopeOk {chain : List Tree} (h : ChainOk chain) : ScopeOk chain := by
  intro t ht
  obtain ⟨below, up, rfl⟩ := List.append_of_mem ht
  rcases h t up (List.suffix_append _ _) with ⟨cs, rfl⟩ | hwf
  · simp [Tree.decls]
  · cases t with
    | element q ds as cs =>
      rw [WellFormed] at hwf
      exact ⟨hwf.1.decls, hwf.1.declsNodup⟩
    | root | text | comment | pi => simp [Tree.decls]

/-- In a well-formed document every chain is well-formed. -/
private theorem chainOk_aux :
    (∀ (t : Tree) (up : List Tree) (path : List Nat), ChainOk up → WellFormed up t →
      ∀ n ∈ descendantsOf up path t, ChainOk n.chain) ∧
    (∀ (ts : List Tree) (up : List Tree) (path : List Nat) (i : Nat), ChainOk up →
      WellFormedList up ts → ∀ n ∈ descendantsOfList up path i ts, ChainOk n.chain) := by
  apply Tree.induction
  case root =>
    intro cs _ up path _ hwf
    exact absurd hwf (by simp [WellFormed])
  case element =>
    intro q ds as cs ih up path hup hwf n hn
    have hchain : ChainOk (.element q ds as cs :: up) := hup.cons (.inr hwf)
    rw [WellFormed] at hwf
    rcases List.mem_cons.mp hn with rfl | hn
    · exact hchain
    · exact ih _ _ _ hchain hwf.2 n hn
  case text =>
    intro s up path hup hwf n hn
    obtain rfl := List.mem_singleton.mp hn
    exact hup.cons (.inr hwf)
  case comment =>
    intro s up path hup hwf n hn
    obtain rfl := List.mem_singleton.mp hn
    exact hup.cons (.inr hwf)
  case pi =>
    intro target data up path hup hwf n hn
    obtain rfl := List.mem_singleton.mp hn
    exact hup.cons (.inr hwf)
  case nil =>
    intro up path i _ _ n hn
    cases hn
  case cons =>
    intro t ts iht ihts up path i hup hwf n hn
    rw [WellFormedList] at hwf
    rcases List.mem_append.mp hn with hn | hn
    · exact iht _ _ hup hwf.1 n hn
    · exact ihts _ _ _ hup hwf.2 n hn

/-- Every node of a document is well-formed, and so are the nodes above it. -/
theorem Document.chainOk_of_mem {doc : Document} {n : Node} (h : n ∈ doc.descendants) :
    ChainOk n.chain := by
  have hnil : ChainOk [] := fun t up hsuffix => by simp at hsuffix
  have hroot : ChainOk [.root doc.children] := hnil.cons (.inl ⟨_, rfl⟩)
  rcases List.mem_cons.mp h with rfl | h
  · exact hroot
  · exact chainOk_aux.2 _ _ _ _ hroot doc.ok.content n h

end Xml
