import Asx.Xml.RoundTrip

/-!
# Markup as it is written

What a writer puts on the page holds more than the tree that a parser makes of it: declarations
stand among the attributes, an element without content can be closed in two ways, and text can
come in pieces. `Markup` keeps these choices, `print` is its text and `tree` what it describes.

## Key results
- `readContent_print`: printed content is read back, up to the end tag that follows
- `parse_print`: a printed element parses as a document of the tree it describes
-/

namespace Xml

/-- An element with its attributes and declarations as written, or a piece of text. -/
inductive Markup where
  | element (name : QName) (items : List Attr) (content : List Markup)
  | text (s : Str)

namespace Markup

/-- Induction over markup and over lists of it. -/
theorem induction {P : Markup → Prop} {L : List Markup → Prop}
    (element : ∀ q items ms, L ms → P (.element q items ms))
    (text : ∀ s, P (.text s)) (nil : L []) (cons : ∀ m ms, P m → L ms → L (m :: ms)) :
    (∀ m, P m) ∧ (∀ ms, L ms) :=
  have hP : ∀ m, P m := fun m =>
    Markup.rec element text nil (fun m ms hm hms => cons m ms hm hms) m
  ⟨hP, fun ms => List.rec nil (fun m ms hms => cons m ms (hP m) hms) ms⟩

mutual

/-- The node that markup describes. -/
def tree : Markup → Tree
  | .element q items ms => .element q (declsOf items) (attrsOf items) (treeList ms)
  | .text s => .text s

/-- The nodes that a list of markup describes: pieces of text that touch are one. -/
def treeList : List Markup → List Tree
  | [] => []
  | m :: ms => consNode (tree m) (treeList ms)

end

section

variable (T : TextEscape) (A : AttrEscape) (selfClose : Bool)

mutual

/-- The text of markup. -/
def print : Markup → Str
  | .element q items ms =>
    '<' :: qnameText q.pre q.loc ++ items.flatMap (writeAttr A) ++
      if selfClose && ms.isEmpty then ['/', '>']
      else ['>'] ++ printList ms ++ ('<' :: '/' :: qnameText q.pre q.loc ++ ['>'])
  | .text s => s.flatMap T.esc

/-- The text of a list of markup. -/
def printList : List Markup → Str
  | [] => []
  | m :: ms => print m ++ printList ms

end

theorem printList_append (ms ms' : List Markup) :
    printList T A selfClose (ms ++ ms') = printList T A selfClose ms ++ printList T A selfClose ms' := by
  induction ms with
  | nil => rfl
  | cons m ms ih => rw [List.cons_append, printList, ih, printList, List.append_assoc]

end

mutual

/-- Names that are names, and values of legal characters. -/
def Legible : Markup → Prop
  | .element q items ms =>
    q.IsName ∧ (∀ a ∈ items, a.name.IsName ∧ AllChars a.value) ∧ LegibleList ms
  | .text s => AllChars s

/-- Legible markup throughout. -/
def LegibleList : List Markup → Prop
  | [] => True
  | m :: ms => Legible m ∧ LegibleList ms

end

mutual

/-- A condition on every start tag, in the chain of its element and the elements around it. -/
def EachTag (P : List Tree → QName → List Attr → Prop) (up : List Tree) : Markup → Prop
  | .element q items ms =>
    P (tree (.element q items ms) :: up) q items ∧ EachTagList P (tree (.element q items ms) :: up) ms
  | .text _ => True

/-- A condition on every start tag of a list of markup. -/
def EachTagList (P : List Tree → QName → List Attr → Prop) (up : List Tree) : List Markup → Prop
  | [] => True
  | m :: ms => EachTag P up m ∧ EachTagList P up ms

end

/-! ## Reading -/

theorem consNode_text_text (s s' : Str) (ts : List Tree) :
    consNode (.text s) (consNode (.text s') ts) = consNode (.text (s ++ s')) ts := by
  cases ts with
  | nil => cases s <;> cases s' <;> simp [consNode]
  | cons t ts =>
    cases t with
    | text u => cases s <;> cases s' <;> simp [consNode]
    | _ => cases s <;> cases s' <;> simp [consNode]

theorem consNode_text_nil (ts : List Tree) : consNode (.text []) ts = ts := by
  cases ts with
  | nil => rfl
  | cons t ts => cases t <;> simp [consNode]

section

variable {T : TextEscape} {A : AttrEscape} {selfClose : Bool}

/-- The text of an element from its name on. -/
theorem print_element_append {q : QName} {items : List Attr} {ms : List Markup}
    (rest : Str) :
    print T A selfClose (.element q items ms) ++ rest =
      '<' :: (qnameText q.pre q.loc ++ (items.flatMap (writeAttr A) ++
        if selfClose && ms.isEmpty then ['/', '>'] ++ rest
        else ['>'] ++ (printList T A selfClose ms ++
          '<' :: '/' :: (qnameText q.pre q.loc ++ '>' :: rest)))) := by
  cases h : (selfClose && ms.isEmpty) <;> simp [print, h]

/-- An element is read back when its content is. -/
theorem readElement_print {q : QName} {items : List Attr} {ms : List Markup}
    (h : Legible (.element q items ms)) (rest : Str) (fuel : Nat)
    (hcontent : (selfClose && ms.isEmpty) = false → readContent fuel
        (printList T A selfClose ms ++ '<' :: '/' :: (qnameText q.pre q.loc ++ '>' :: rest)) =
      some (treeList ms, '<' :: '/' :: (qnameText q.pre q.loc ++ '>' :: rest))) :
    readElement (fuel + 1) (qnameText q.pre q.loc ++ (items.flatMap (writeAttr A) ++
        if selfClose && ms.isEmpty then ['/', '>'] ++ rest
        else ['>'] ++ (printList T A selfClose ms ++
          '<' :: '/' :: (qnameText q.pre q.loc ++ '>' :: rest)))) =
      some (tree (.element q items ms), rest) := by
  rw [Legible] at h
  obtain ⟨hq, hitems, -⟩ := h
  have hlen := length_le_flatMap_writeAttr A items
  cases hclose : selfClose && ms.isEmpty with
  | true =>
    obtain rfl : ms = [] := List.isEmpty_iff.mp (Bool.and_eq_true_iff.mp hclose).2
    have hname := @readQName_startTag A q hq items (['/', '>'] ++ rest) (by
      intro c hc
      obtain rfl : '/' = c := by simpa using hc
      decide)
    have hattrs := readAttrs_flatMap A items hitems (readAttrs_slash rest)
      ((items.flatMap (writeAttr A) ++ (['/', '>'] ++ rest)).length + 1)
      (by simp only [List.length_append]; omega)
    rw [readElement, if_pos rfl, hname]
    simp only [hattrs, tree, treeList]
  | false =>
    have hname := @readQName_startTag A q hq items (['>'] ++ (printList T A selfClose ms ++
        '<' :: '/' :: (qnameText q.pre q.loc ++ '>' :: rest))) (by
      intro c hc
      obtain rfl : '>' = c := by simpa using hc
      decide)
    have hattrs := readAttrs_flatMap A items hitems
      (readAttrs_gt (printList T A selfClose ms ++ '<' :: '/' :: (qnameText q.pre q.loc ++ '>' :: rest)))
      ((items.flatMap (writeAttr A) ++ (['>'] ++ (printList T A selfClose ms ++
        '<' :: '/' :: (qnameText q.pre q.loc ++ '>' :: rest)))).length + 1)
      (by simp only [List.length_append]; omega)
    have hend : readQName (qnameText q.pre q.loc ++ '>' :: rest) = some (q, '>' :: rest) := by
      refine readQName_append hq fun c hc => ?_
      obtain rfl : '>' = c := by simpa using hc
      decide
    have hgt : isSpace '>' = false := by decide
    rw [readElement, if_neg Bool.false_ne_true, hname]
    simp only [hattrs, hcontent hclose, hend, List.dropWhile_cons, hgt, Bool.false_eq_true, if_false,
      if_true, tree]

/-- Printed markup is not empty where an element is, and starts with its tag. -/
theorem print_element_head {q : QName} {items : List Attr} {ms : List Markup}
    (hq : q.IsName) (rest : Str) :
    ∃ c r, print T A selfClose (.element q items ms) ++ rest = '<' :: c :: r ∧
      isNameStart c = true := by
  obtain ⟨c, s, hcs, hc⟩ := qnameText_cons hq
  rw [print_element_append, hcs]
  exact ⟨c, _, rfl, hc⟩

/-- Text that is followed by markup is read in one piece, and the rest after it. -/
theorem readContent_text {pending rest : Str} {fuel : Nat} {ts : List Tree} {rest' : Str}
    (hpending : AllChars pending) (hrest : MarkupNext rest)
    (hfuel : (pending.flatMap T.esc ++ rest).length < fuel)
    (hcontent : ∀ fuel', rest.length < fuel' → readContent fuel' rest = some (ts, rest')) :
    readContent fuel (pending.flatMap T.esc ++ rest) = some (consNode (.text pending) ts, rest') := by
  by_cases hne : pending = []
  · subst hne
    rw [consNode_text_nil]
    exact hcontent fuel hfuel
  · obtain ⟨fuel, rfl⟩ : ∃ n, fuel = n + 1 := ⟨fuel - 1, by omega⟩
    obtain ⟨c, r, hcr, hc⟩ := flatMap_cons_ne_lt T hne
    have hread := readText_write T hpending hrest
    have hshorter : rest.length < fuel := by
      rw [hcr] at hfuel
      simp only [List.cons_append, List.length_cons, List.length_append] at hfuel
      omega
    rw [hcr, List.cons_append] at hread ⊢
    rw [readContent_item (fun h => absurd h hc), readItem_text hc, hread]
    simp only [hcontent fuel hshorter, Option.map_some]

/-- Printed markup is read back: an element where it stands, and content up to the end tag that
    follows, with a piece of text in front of it. -/
theorem read_print :
    (∀ m : Markup, ∀ rest fuel, Legible m → (∃ q items ms, m =
        .element q items ms) → (print T A selfClose m ++ rest).length ≤ fuel →
      readItem (readElement fuel) (print T A selfClose m ++ rest) = some (tree m, rest)) ∧
    (∀ ms : List Markup, ∀ pending rest fuel, LegibleList ms → AllChars pending →
      ContentEnd rest → (pending.flatMap T.esc ++ (printList T A selfClose ms ++ rest)).length < fuel →
      readContent fuel (pending.flatMap T.esc ++ (printList T A selfClose ms ++ rest)) =
        some (consNode (.text pending) (treeList ms), rest)) := by
  refine Markup.induction ?_ ?_ ?_ ?_
  · -- element
    intro q items ms ih rest fuel hok _ hfuel
    have hok' := hok
    rw [Legible] at hok'
    obtain ⟨c, s, hcs, hc⟩ := qnameText_cons hok'.1
    rw [print_element_append] at hfuel ⊢
    obtain ⟨fuel, rfl⟩ : ∃ n, fuel = n + 1 := ⟨fuel - 1, by simp at hfuel; omega⟩
    have helem := @readElement_print T A selfClose q items ms hok rest fuel (by
      intro hopen
      have hcontent := ih [] ('<' :: '/' :: (qnameText q.pre q.loc ++ '>' :: rest)) fuel
        hok'.2.2 (by intro c hc; cases hc) (.inr ⟨_, rfl⟩) (by
          simp only [List.flatMap_nil, List.nil_append, List.length_cons, List.length_append,
            hopen, Bool.false_eq_true, if_false] at hfuel ⊢
          omega)
      rwa [List.flatMap_nil, List.nil_append, consNode_text_nil] at hcontent)
    rw [hcs] at helem ⊢
    exact (readItem_name hc _).trans helem
  · -- text is read with what follows it
    rintro s rest fuel - ⟨q, items, ms, heq⟩
    cases heq
  · -- no content left
    intro pending rest fuel _ hpending hend hfuel
    rw [printList, List.nil_append] at hfuel ⊢
    refine readContent_text hpending hend.markupNext hfuel fun fuel' hfuel' => ?_
    obtain ⟨fuel', rfl⟩ : ∃ n, fuel' = n + 1 := ⟨fuel' - 1, by omega⟩
    exact readContent_end hend fuel'
  · -- markup and the content after it
    intro m ms ihm ihms pending rest fuel hok hpending hend hfuel
    rw [LegibleList] at hok
    cases m with
    | text s =>
      have hs : AllChars s := by simpa [Legible] using hok.1
      have hall : AllChars (pending ++ s) := by
        intro c hc
        cases List.mem_append.mp hc with
        | inl h => exact hpending c h
        | inr h => exact hs c h
      have hjoin : pending.flatMap T.esc ++ (printList T A selfClose (.text s :: ms) ++ rest) =
          (pending ++ s).flatMap T.esc ++ (printList T A selfClose ms ++ rest) := by
        simp [printList, print, List.flatMap_append, List.append_assoc]
      rw [hjoin] at hfuel ⊢
      rw [ihms (pending ++ s) rest fuel hok.2 hall hend hfuel, treeList, tree, consNode_text_text]
    | element q items ms' =>
      have hq : q.IsName := by
        have hel := hok.1
        rw [Legible] at hel
        exact hel.1
      rw [printList, List.append_assoc] at hfuel ⊢
      refine readContent_text hpending ?_ hfuel fun fuel' hfuel' => ?_
      · obtain ⟨c, r, hcr, -⟩ := @print_element_head T A selfClose q items ms' hq (printList T A selfClose ms ++ rest)
        rw [hcr]
        intro d hd
        exact (Option.some.inj hd).symm
      · obtain ⟨fuel', rfl⟩ : ∃ n, fuel' = n + 1 := ⟨fuel' - 1, by omega⟩
        obtain ⟨c, r, hcr, hc⟩ := @print_element_head T A selfClose q items ms' hq (printList T A selfClose ms ++ rest)
        have hitem := ihm (printList T A selfClose ms ++ rest) fuel' hok.1 ⟨_, _, _, rfl⟩ (by omega)
        have hrest := ihms [] rest fuel' hok.2 (by intro c hc; cases hc) hend (by
          have hlen : (print T A selfClose (.element q items ms')).length ≠ 0 := by
            rw [print]
            simp
          simp only [List.flatMap_nil, List.nil_append, List.length_append] at hfuel' ⊢
          omega)
        rw [List.flatMap_nil, List.nil_append, consNode_text_nil] at hrest
        rw [hcr] at hitem ⊢
        rw [readContent_item (fun _ => ⟨c, r, rfl, nameStart_ne hc (by decide)⟩), hitem]
        simp only [hrest, Option.map_some, treeList]

/-! ## Documents -/

/-- Printed markup holds no carriage return, so line-end handling leaves it alone. -/
theorem cr_notMem_print :
    (∀ m : Markup, Legible m → '\r' ∉ print T A selfClose m) ∧
    (∀ ms : List Markup, LegibleList ms → '\r' ∉ printList T A selfClose ms) := by
  refine Markup.induction ?_ ?_ ?_ ?_
  · intro q items ms ih hok
    rw [Legible] at hok
    have hq := cr_notMem_qname hok.1
    have hitems : '\r' ∉ items.flatMap (writeAttr A) := by
      intro hmem
      obtain ⟨a, ha, hcr⟩ := List.mem_flatMap.mp hmem
      exact cr_notMem_writeAttr (hok.2.1 a ha).1 hcr
    have hms := ih hok.2.2
    cases h : (selfClose && ms.isEmpty) <;> simp [print, hq, hitems, hms, h]
  · intro s _
    exact T.notMem_flatMap (by decide) s
  · intro _
    simp [printList]
  · intro m ms ihm ihms hok
    rw [LegibleList] at hok
    simp [printList, ihm hok.1, ihms hok.2]

/-- The XML declaration that a writer can begin with. -/
def xmlDeclaration : Str := "<?xml version=\"1.0\" encoding=\"UTF-8\"?>\n".toList

variable {q : QName} {items : List Attr} {ms : List Markup}

/-- A printed element, with the XML declaration or without it, reads as one element. -/
theorem readDocument_print (hok : Legible (.element q items ms)) {lead : Str}
    (hlead : lead = [] ∨ lead = xmlDeclaration) :
    readDocument (lead ++ print T A selfClose (.element q items ms)) =
      some [tree (.element q items ms)] := by
  have hq : q.IsName := by
    have hel := hok
    rw [Legible] at hel
    exact hel.1
  obtain ⟨c, r, hcr, hc⟩ := @print_element_head T A selfClose q items ms hq []
  rw [List.append_nil] at hcr
  have hnocr : '\r' ∉ lead ++ print T A selfClose (.element q items ms) := by
    have hprint := (@cr_notMem_print T A selfClose).1 _ hok
    rcases hlead with rfl | rfl
    · exact hprint
    · rw [List.mem_append, not_or]
      exact ⟨by decide, hprint⟩
  have hitem := (@read_print T A selfClose).1 _ [] _ hok ⟨q, items, ms, rfl⟩
    (le_refl _)
  rw [List.append_nil, hcr, readItem_name hc, List.length_cons] at hitem
  -- What stands before the element is skipped.
  have hskip : ∃ gap, skipXmlDecl (lead ++ print T A selfClose (.element q items ms)) =
      some (gap ++ '<' :: c :: r) ∧ ∀ fuel, readMisc (fuel + 1) (gap ++ '<' :: c :: r) =
        some ([], '<' :: c :: r) := by
    rcases hlead with rfl | rfl
    · refine ⟨[], ?_, readMisc_name hc r⟩
      rw [List.nil_append, hcr]
      exact skipXmlDecl_name hc r
    · refine ⟨['\n'], ?_, fun fuel => ?_⟩
      · rw [hcr]
        rfl
      · have hmisc := readMisc_name hc r fuel
        rw [readMisc] at hmisc ⊢
        exact hmisc
  obtain ⟨gap, hdecl, hmisc⟩ := hskip
  rw [readDocument, normalizeEol_eq hnocr, hdecl]
  simp only [hmisc, hitem]
  simp [readMisc]

/-- A printed element parses as the document whose only child it describes. -/
theorem parse_print (hok : Legible (.element q items ms)) {lead : Str}
    (hlead : lead = [] ∨ lead = xmlDeclaration)
    (hwf : WellFormed [.root [tree (.element q items ms)]]
      (tree (.element q items ms))) :
    ∃ h, parse (lead ++ print T A selfClose (.element q items ms)) =
      some ⟨[tree (.element q items ms)], h⟩ := by
  have hdoc : DocumentOk [tree (.element q items ms)] :=
    { noText := by simp [tree, Tree.isText]
      oneElement := rfl
      content := by rw [WellFormedList, WellFormedList]; exact ⟨hwf, trivial⟩ }
  refine ⟨hdoc, ?_⟩
  simp only [parse, readDocument_print hok hlead, dif_pos hdoc]

end

end Markup

end Xml
