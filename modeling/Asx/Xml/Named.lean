import Asx.Xml.Nodes

/-!
# Reading by name

Where no element declares a namespace, a prefix means the same throughout, and what is found by
name below a node can be read off its tree. Where no element has a prefix and none declares its
namespace, nothing of that namespace is found.

## Key results
- `Settled.descendant`: below a settled node every node is settled
- `Settled.named`: the descendants with a name are those of the tree
- `texts_eq`: the text nodes below a node are those of its tree
- `filter_foreign`: subtrees of another vocabulary hold no element of a namespace
-/

namespace Xml

mutual

/-- No element declares a namespace. -/
def Undeclaring : Tree → Prop
  | .element _ ds _ cs => ds = [] ∧ UndeclaringList cs
  | .root cs => UndeclaringList cs
  | _ => True

/-- No element of the list declares a namespace. -/
def UndeclaringList : List Tree → Prop
  | [] => True
  | t :: ts => Undeclaring t ∧ UndeclaringList ts

end

mutual

/-- The elements of a tree with this name, in document order, where `ρ` is what prefixes mean. -/
def named (ρ : Str → Option Str) (ns loc : Str) : Tree → List Tree
  | .element q ds as cs =>
    (if ρ q.pre = some ns ∧ q.loc = loc then [.element q ds as cs] else []) ++ namedList ρ ns loc cs
  | .root cs => namedList ρ ns loc cs
  | _ => []

/-- The elements of a list of trees with this name. -/
def namedList (ρ : Str → Option Str) (ns loc : Str) : List Tree → List Tree
  | [] => []
  | t :: ts => named ρ ns loc t ++ namedList ρ ns loc ts

end

mutual

/-- The text nodes of a tree. -/
def texts : Tree → List Str
  | .element _ _ _ cs => textsList cs
  | .root cs => textsList cs
  | .text s => [s]
  | _ => []

/-- The text nodes of a list of trees. -/
def textsList : List Tree → List Str
  | [] => []
  | t :: ts => texts t ++ textsList ts

end

/-- A node below which nothing is declared, and what prefixes mean there. -/
structure Settled (ρ : Str → Option Str) (n : Node) : Prop where
  undeclaring : Undeclaring n.tree
  means : ∀ pre, resolve n.up pre = ρ pre

theorem namedList_map {α : Type} (ρ : Str → Option Str) (ns loc : Str) (f : α → Tree) (l : List α) :
    namedList ρ ns loc (l.map f) = l.flatMap fun a => named ρ ns loc (f a) := by
  induction l with
  | nil => rfl
  | cons a l ih => rw [List.map_cons, namedList, ih, List.flatMap_cons]

theorem undeclaringList_map {α : Type} {f : α → Tree} {l : List α}
    (h : ∀ a, Undeclaring (f a)) : UndeclaringList (l.map f) := by
  induction l with
  | nil => trivial
  | cons a l ih => exact ⟨h a, ih⟩

/-- A tree without declarations leaves the prefixes as they are. -/
theorem resolve_undeclaring {t : Tree} (h : t.decls = []) (up : List Tree) (pre : Str) :
    resolve (t :: up) pre = resolve up pre := by
  rw [resolve, resolve, inScope_cons, h]
  rfl

theorem decls_of_undeclaring {t : Tree} (h : Undeclaring t) : t.decls = [] := by
  cases t with
  | element q ds as cs =>
    rw [Undeclaring] at h
    exact h.1
  | _ => rfl

/-- Below elements without declarations every prefix means what it means above. -/
private theorem settled_aux {ρ : Str → Option Str} :
    (∀ (t : Tree) (up : List Tree) (path : List Nat), Undeclaring t →
      (∀ pre, resolve up pre = ρ pre) → ∀ n ∈ descendantsOf up path t, Settled ρ n) ∧
    ∀ (ts : List Tree) (up : List Tree) (path : List Nat) (i : Nat), UndeclaringList ts →
      (∀ pre, resolve up pre = ρ pre) → ∀ n ∈ descendantsOfList up path i ts, Settled ρ n := by
  -- a child sees the prefixes of its parent, which declares nothing
  have inner : ∀ (t : Tree) (up : List Tree) (path : List Nat), Undeclaring t →
      (∀ pre, resolve up pre = ρ pre) →
      (∀ n ∈ descendantsOfList (t :: up) path 0 t.children, Settled ρ n) →
      ∀ n ∈ (⟨t, up, path⟩ : Node) :: descendantsOfList (t :: up) path 0 t.children, Settled ρ n := by
    intro t up path ht hmeans ih n hn
    cases List.mem_cons.mp hn with
    | inl heq => exact heq ▸ ⟨ht, hmeans⟩
    | inr hn => exact ih n hn
  apply Tree.induction
  case root =>
    intro cs ih up path ht hmeans
    refine inner (.root cs) up path ht hmeans (ih _ _ _ ht fun pre => ?_)
    rw [resolve_undeclaring rfl, hmeans]
  case element =>
    intro q ds as cs ih up path ht hmeans
    refine inner (.element q ds as cs) up path ht hmeans (ih _ _ _ ht.2 fun pre => ?_)
    rw [resolve_undeclaring (decls_of_undeclaring ht), hmeans]
  case text =>
    intro s up path ht hmeans n hn
    obtain rfl := List.mem_singleton.mp hn
    exact ⟨ht, hmeans⟩
  case comment =>
    intro s up path ht hmeans n hn
    obtain rfl := List.mem_singleton.mp hn
    exact ⟨ht, hmeans⟩
  case pi =>
    intro target data up path ht hmeans n hn
    obtain rfl := List.mem_singleton.mp hn
    exact ⟨ht, hmeans⟩
  case nil =>
    intro up path i _ _ n hn
    cases hn
  case cons =>
    intro t ts iht ihts up path i h hmeans n hn
    cases List.mem_append.mp hn with
    | inl hn => exact iht _ _ h.1 hmeans n hn
    | inr hn => exact ihts _ _ _ h.2 hmeans n hn

/-- Below a settled node every node is settled. -/
theorem Settled.descendant {ρ : Str → Option Str} {n m : Node} (h : Settled ρ n)
    (hm : m ∈ n.descendants) : Settled ρ m :=
  settled_aux.1 _ _ _ h.undeclaring h.means m hm

theorem Settled.hasTagName_element {ρ : Str → Option Str} {q : QName} {ds : List (Str × Str)}
    {as : List Attr} {cs up : List Tree} {path : List Nat}
    (h : Settled ρ ⟨.element q ds as cs, up, path⟩) (ns loc : Str) :
    (⟨.element q ds as cs, up, path⟩ : Node).hasTagName ns loc =
      decide (ρ q.pre = some ns ∧ q.loc = loc) := by
  have hns : (⟨.element q ds as cs, up, path⟩ : Node).namespaceUri = ρ q.pre := by
    rw [← h.means, ← resolve_undeclaring (decls_of_undeclaring h.undeclaring)]
    rfl
  rw [Node.hasTagName, hns, Bool.eq_iff_iff]
  simp [Node.isElement, Tree.isElement, Node.localName, Tree.name?]

/-- The elements with a name below a node are those that the trees give. -/
private theorem named_aux {ρ : Str → Option Str} {ns loc : Str} :
    (∀ (t : Tree) (up : List Tree) (path : List Nat), Settled ρ ⟨t, up, path⟩ →
      ((descendantsOf up path t).filter (·.hasTagName ns loc)).map Node.tree = named ρ ns loc t) ∧
    ∀ (ts : List Tree) (up : List Tree) (path : List Nat) (i : Nat), UndeclaringList ts →
      (∀ pre, resolve up pre = ρ pre) →
      ((descendantsOfList up path i ts).filter (·.hasTagName ns loc)).map Node.tree =
        namedList ρ ns loc ts := by
  apply Tree.induction
  case root =>
    intro cs ih up path h
    rw [descendantsOf, named, List.filter_cons_of_neg (by simp [Node.hasTagName, Node.isElement,
      Tree.isElement])]
    exact ih _ _ _ h.undeclaring fun pre => by rw [resolve_undeclaring rfl, h.means]
  case element =>
    intro q ds as cs ih up path h
    have hcs := ih (.element q ds as cs :: up) path 0 h.undeclaring.2 fun pre => by
      rw [resolve_undeclaring (decls_of_undeclaring h.undeclaring), h.means]
    rw [descendantsOf, named, List.filter_cons, h.hasTagName_element]
    by_cases hname : ρ q.pre = some ns ∧ q.loc = loc
    · simp [hname, hcs]
    · rw [if_neg (by simp [hname]), if_neg hname, hcs, List.nil_append]
  case text => intro s up path _; rfl
  case comment => intro s up path _; rfl
  case pi => intro target data up path _; rfl
  case nil => intro up path i _ _; rfl
  case cons =>
    intro t ts iht ihts up path i h hmeans
    rw [descendantsOfList, List.filter_append, List.map_append, iht _ _ ⟨h.1, hmeans⟩,
      ihts _ _ _ h.2 hmeans, namedList]

/-- The descendants of a settled node with a name are those of its tree. -/
theorem Settled.named {ρ : Str → Option Str} {n : Node} (h : Settled ρ n) (ns loc : Str) :
    (n.descendants.filter (·.hasTagName ns loc)).map Node.tree = Xml.named ρ ns loc n.tree :=
  named_aux.1 _ _ _ h

/-- The first of them. -/
theorem Settled.find? {ρ : Str → Option Str} {n : Node} (h : Settled ρ n) (ns loc : Str) :
    (n.descendants.find? (·.hasTagName ns loc)).map Node.tree =
      (Xml.named ρ ns loc n.tree).head? := by
  rw [← h.named, List.head?_map, List.head?_filter]

/-- A name that one element has is found on one settled node. -/
theorem Settled.exists_of_named {ρ : Str → Option Str} {n : Node} (h : Settled ρ n)
    (ns loc : Str) {t : Tree} (hone : Xml.named ρ ns loc n.tree = [t]) :
    ∃ m, n.descendants.filter (·.hasTagName ns loc) = [m] ∧ m.tree = t ∧ Settled ρ m := by
  have hmap := h.named ns loc
  rw [hone] at hmap
  obtain ⟨m, hm, rfl⟩ := List.map_eq_singleton_iff.mp hmap
  have hmem : m ∈ n.descendants := List.mem_of_mem_filter (hm ▸ List.mem_singleton_self m)
  exact ⟨m, hm, rfl, h.descendant hmem⟩

/-- A name that the tree does not hold is not found. -/
theorem Settled.eq_nil_of_named {ρ : Str → Option Str} {n : Node} (h : Settled ρ n)
    {ns loc : Str} (hnone : Xml.named ρ ns loc n.tree = []) :
    n.descendants.filter (·.hasTagName ns loc) = [] := by
  have hmap := h.named ns loc
  rw [hnone] at hmap
  exact List.map_eq_nil_iff.mp hmap

/-- The text nodes below a node are those of its tree. -/
private theorem texts_aux :
    (∀ (t : Tree) (up : List Tree) (path : List Nat),
      ((descendantsOf up path t).filter fun d => d.tree.isText).filterMap Node.text? = texts t) ∧
    ∀ (ts : List Tree) (up : List Tree) (path : List Nat) (i : Nat),
      ((descendantsOfList up path i ts).filter fun d => d.tree.isText).filterMap Node.text? =
        textsList ts := by
  apply Tree.induction
  case root => intro cs ih up path; exact ih _ _ _
  case element => intro q ds as cs ih up path; exact ih _ _ _
  case text => intro s up path; rfl
  case comment => intro s up path; rfl
  case pi => intro target data up path; rfl
  case nil => intro up path i; rfl
  case cons =>
    intro t ts iht ihts up path i
    rw [descendantsOfList, List.filter_append, List.filterMap_append, iht, ihts, textsList]

/-- The text nodes below a node are those of its tree. -/
theorem texts_eq (n : Node) :
    (n.descendants.filter fun d => d.tree.isText).filterMap Node.text? = texts n.tree :=
  texts_aux.1 _ _ _

/-! ## Subtrees of another vocabulary -/

mutual

/-- No element has this prefix, and none declares this namespace. -/
def Foreign (pre ns : Str) : Tree → Prop
  | .element q ds _ cs => q.pre ≠ pre ∧ (∀ d ∈ ds, d.2 ≠ ns) ∧ ForeignList pre ns cs
  | .root cs => ForeignList pre ns cs
  | _ => True

@[inherit_doc Foreign]
def ForeignList (pre ns : Str) : List Tree → Prop
  | [] => True
  | t :: ts => Foreign pre ns t ∧ ForeignList pre ns ts

end

theorem resolve_ne_of_decls {t : Tree} {up : List Tree} {p ns : Str} (hxml : ns ≠ xmlNs)
    (hdecls : ∀ d ∈ t.decls, d.1 = p → d.2 ≠ ns) (hup : resolve up p ≠ some ns) :
    resolve (t :: up) p ≠ some ns := by
  rw [resolve, inScope_cons]
  rw [resolve] at hup
  by_cases hp : p = xmlPre
  · rw [if_pos hp]
    exact fun heq => hxml (Option.some.inj heq).symm
  rw [if_neg hp] at hup ⊢
  cases hown : t.decls.lookup p with
  | none => exact hup
  | some uri =>
    have hmem : ∃ d ∈ t.decls, d.1 = p ∧ d.2 = uri := by
      obtain ⟨l₁, l₂, hl, -⟩ := List.lookup_eq_some_iff.mp hown
      exact ⟨(p, uri), by rw [hl]; simp, rfl, rfl⟩
    obtain ⟨d, hd, hdp, rfl⟩ := hmem
    cases huri : d.2 with
    | nil => simp [nsOfUri]
    | cons c cs =>
      simp only [Option.some_or, nsOfUri, ne_eq, Option.some.injEq]
      exact fun heq => hdecls d hd hdp (huri.trans heq)

/-- Below a foreign tree no other prefix means the namespace. -/
private theorem foreign_aux {pre ns : Str} (hxml : ns ≠ xmlNs) :
    (∀ (t : Tree) (up : List Tree) (path : List Nat), Foreign pre ns t →
      (∀ p, p ≠ pre → resolve up p ≠ some ns) →
      ∀ n ∈ descendantsOf up path t, ∀ loc, n.hasTagName ns loc = false) ∧
    ∀ (ts : List Tree) (up : List Tree) (path : List Nat) (i : Nat), ForeignList pre ns ts →
      (∀ p, p ≠ pre → resolve up p ≠ some ns) →
      ∀ n ∈ descendantsOfList up path i ts, ∀ loc, n.hasTagName ns loc = false := by
  apply Tree.induction
  case root =>
    intro cs ih up path ht hup n hn loc
    cases List.mem_cons.mp hn with
    | inl heq => rw [heq]; rfl
    | inr hn => exact ih _ _ _ ht (fun p hp => by rw [resolve_undeclaring rfl]; exact hup p hp) n hn loc
  case element =>
    intro q ds as cs ih up path ht hup n hn loc
    have hchain : ∀ p, p ≠ pre → resolve (.element q ds as cs :: up) p ≠ some ns :=
      fun p hp => resolve_ne_of_decls hxml (fun d hd _ => ht.2.1 d hd) (hup p hp)
    cases List.mem_cons.mp hn with
    | inl heq =>
      have hne : (⟨.element q ds as cs, up, path⟩ : Node).namespaceUri ≠ some ns := hchain _ ht.1
      rw [heq, Node.hasTagName, beq_eq_false_iff_ne.mpr hne, Bool.and_false, Bool.false_and]
    | inr hn => exact ih _ _ _ ht.2.2 hchain n hn loc
  case text =>
    intro s up path _ _ n hn loc
    obtain rfl := List.mem_singleton.mp hn
    rfl
  case comment =>
    intro s up path _ _ n hn loc
    obtain rfl := List.mem_singleton.mp hn
    rfl
  case pi =>
    intro target data up path _ _ n hn loc
    obtain rfl := List.mem_singleton.mp hn
    rfl
  case nil =>
    intro up path i _ _ n hn
    cases hn
  case cons =>
    intro t ts iht ihts up path i h hup n hn loc
    cases List.mem_append.mp hn with
    | inl hn => exact iht _ _ h.1 hup n hn loc
    | inr hn => exact ihts _ _ _ h.2 hup n hn loc

/-- A list of foreign subtrees has no element of the namespace. -/
theorem filter_foreign {pre ns : Str} (hxml : ns ≠ xmlNs) {ts up : List Tree} {path : List Nat}
    {i : Nat} (h : ForeignList pre ns ts) (hup : ∀ p, p ≠ pre → resolve up p ≠ some ns) (loc : Str) :
    (descendantsOfList up path i ts).filter (·.hasTagName ns loc) = [] := by
  rw [List.filter_eq_nil_iff]
  intro n hn
  rw [(foreign_aux hxml).2 ts up path i h hup n hn loc]
  exact Bool.false_ne_true

theorem descendantsOfList_append (up : List Tree) (path : List Nat) (i : Nat) (ts ts' : List Tree) :
    descendantsOfList up path i (ts ++ ts') =
      descendantsOfList up path i ts ++ descendantsOfList up path (i + ts.length) ts' := by
  induction ts generalizing i with
  | nil => rfl
  | cons t ts ih =>
    rw [List.cons_append, descendantsOfList, ih, descendantsOfList, List.append_assoc,
      List.length_cons, Nat.add_assoc, Nat.add_comm 1]

/-- Of a document whose element holds two elements of another vocabulary, a header and a body, the
    elements of a namespace are those below one child of the header, when everything else in the
    two is foreign. -/
theorem filter_frame {pre ns : Str} (hxml : ns ≠ xmlNs) {qe qh qb : QName} {ds : List (Str × Str)}
    {ae ah ab : List Attr} {before after content : List Tree} {t env : Tree} (loc : Str)
    (henv : env = .element qe ds ae
      [.element qh [] ah (before ++ t :: after), .element qb [] ab content])
    (hqe : qe.pre ≠ pre) (hqh : qh.pre ≠ pre) (hqb : qb.pre ≠ pre)
    (hbefore : ForeignList pre ns before) (hafter : ForeignList pre ns after)
    (hcontent : ForeignList pre ns content)
    (hmeans : ∀ p, p ≠ pre → resolve [env, .root [env]] p ≠ some ns) :
    (descendantsOf [] [] (.root [env])).filter (·.hasTagName ns loc) =
      (descendantsOf [.element qh [] ah (before ++ t :: after), env, .root [env]]
        [0 + before.length, 0, 0] t).filter (·.hasTagName ns loc) := by
  -- the elements of the frame have another prefix
  have hnot : ∀ (q : QName) (ds : List (Str × Str)) (as : List Attr) (cs up : List Tree)
      (path : List Nat), resolve (.element q ds as cs :: up) q.pre ≠ some ns →
      (⟨.element q ds as cs, up, path⟩ : Node).hasTagName ns loc = false := by
    intro q ds as cs up path hne
    have hne : (⟨.element q ds as cs, up, path⟩ : Node).namespaceUri ≠ some ns := hne
    rw [Node.hasTagName, beq_eq_false_iff_ne.mpr hne, Bool.and_false, Bool.false_and]
  have hin : ∀ (q : QName) (as : List Attr) (cs : List Tree), ∀ p, p ≠ pre →
      resolve [.element q [] as cs, env, .root [env]] p ≠ some ns := by
    intro q as cs p hp
    rw [resolve_undeclaring rfl]
    exact hmeans p hp
  have hroot : (⟨.root [env], [], []⟩ : Node).hasTagName ns loc = false := rfl
  have hselfEnv : (⟨env, [.root [env]], [0]⟩ : Node).hasTagName ns loc = false := by
    have hne := hmeans _ hqe
    rw [henv] at hne ⊢
    exact hnot _ _ _ _ _ _ hne
  have hlist : descendantsOf [.root [env]] [0] env = ⟨env, [.root [env]], [0]⟩ ::
      descendantsOfList [env, .root [env]] [0] 0
        [.element qh [] ah (before ++ t :: after), .element qb [] ab content] := by
    rw [henv]
    rfl
  rw [descendantsOf, descendantsOfList, descendantsOfList, List.append_nil,
    List.filter_cons_of_neg (by rw [hroot]; exact Bool.false_ne_true), hlist,
    List.filter_cons_of_neg (by rw [hselfEnv]; exact Bool.false_ne_true), descendantsOfList,
    descendantsOfList, descendantsOfList, List.append_nil, List.filter_append, descendantsOf,
    descendantsOf, List.filter_cons_of_neg, List.filter_cons_of_neg, descendantsOfList_append,
    List.filter_append, descendantsOfList, List.filter_append,
    filter_foreign hxml hbefore (hin _ _ _), filter_foreign hxml hafter (hin _ _ _),
    filter_foreign hxml hcontent (hin _ _ _), List.append_nil, List.append_nil, List.nil_append]
  · rw [hnot _ _ _ _ _ _ (hin _ _ _ _ hqb)]
    exact Bool.false_ne_true
  · rw [hnot _ _ _ _ _ _ (hin _ _ _ _ hqh)]
    exact Bool.false_ne_true

end Xml
