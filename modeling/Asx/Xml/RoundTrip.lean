import Asx.Xml.Parse

/-!
# Writing XML, and reading it back

`write` prints a tree with escapers for text and for attribute values. An escaper is
sound when decoding gives the character back and the delimiters of its context do not
occur in its output; for any two sound escapers, parsing what was printed yields the
tree again, provided the tree is well-formed and in the form that a parser produces
(`Coalesced`): no empty text, no two text nodes in a row, no empty data.

## Key results
- `readAttrs_write`: the attributes of a start tag are read back
- `readContent_write`: content is read back, up to the end tag that follows
- `write_injective`: what is printed determines the node
- `parse_write`: a printed element parses as a document of that element, if line ends are all
  line feeds
-/

namespace Xml

/-! ## Escapers -/

/-- A sound way to write a character, for readers that pass literal characters through
    `norm` and in a context where `forbidden` characters are markup. -/
structure Escape (norm : Char → Char) (forbidden : List Char) where
  esc : Char → Str
  decodes : ∀ c s, isChar c = true →
    unescape norm none (esc c ++ s) = (unescape norm none s).map (c :: ·)
  safe : ∀ c, ∀ d ∈ esc c, d ∉ forbidden
  nonempty : ∀ c, esc c ≠ []

/-- Escapers for text. -/
abbrev TextEscape := Escape id ['<', '>', '\r']

/-- Escapers for attribute values in double quotes. -/
abbrev AttrEscape := Escape attrNorm ['<', '"', '\r']

namespace Escape

variable {norm : Char → Char} {forbidden : List Char} (E : Escape norm forbidden)

/-- What was escaped is unescaped, as each character is. -/
theorem unescape_flatMap {s : Str} (h : AllChars s) :
    unescape norm none (s.flatMap E.esc) = some s := by
  induction s with
  | nil => simp [unescape]
  | cons c s ih =>
    have hs : AllChars s := fun d hd => h d (List.mem_cons_of_mem _ hd)
    rw [List.flatMap_cons, E.decodes c _ (h c List.mem_cons_self), ih hs]
    rfl

/-- Escaped text holds no character that would end it. -/
theorem notMem_flatMap {d : Char} (hd : d ∈ forbidden) (s : Str) : d ∉ s.flatMap E.esc := by
  intro hmem
  obtain ⟨c, -, hc⟩ := List.mem_flatMap.mp hmem
  exact E.safe c d hc hd

end Escape

/-! ## Printing -/

/-- A namespace declaration as the attribute it is written as. -/
def declAttr (d : Str × Str) : Attr :=
  ⟨if d.1 = [] then ⟨[], xmlnsPre⟩ else ⟨xmlnsPre, d.1⟩, d.2⟩

section

variable (T : TextEscape) (A : AttrEscape)

/-- Print an attribute, with the space before it. -/
def writeAttr (a : Attr) : Str :=
  ' ' :: qnameText a.name.pre a.name.loc ++ ['=', '"'] ++ a.value.flatMap A.esc ++ ['"']

/-- Print the data of a processing instruction, with the space before it. -/
def writePiData : Option Str → Str
  | some d => if d = [] then [] else ' ' :: d
  | none => []

mutual

/-- Print a tree. -/
def write : Tree → Str
  | .root cs => writeList cs
  | .element q ds as cs =>
    '<' :: qnameText q.pre q.loc ++ (ds.map declAttr ++ as).flatMap (writeAttr A) ++ ['>'] ++
      writeList cs ++ ('<' :: '/' :: qnameText q.pre q.loc ++ ['>'])
  | .text s => s.flatMap T.esc
  | .comment s => '<' :: '!' :: '-' :: '-' :: s ++ ['-', '-', '>']
  | .pi target data => '<' :: '?' :: target ++ writePiData data ++ ['?', '>']

/-- Print the trees of a list one after the other. -/
def writeList : List Tree → Str
  | [] => []
  | t :: ts => write t ++ writeList ts

end

end

mutual

/-- A tree in the form a parser produces. -/
def Coalesced : Tree → Prop
  | .root cs => CoalescedList cs
  | .element _ _ _ cs => CoalescedList cs
  | .text s => s ≠ []
  | .comment _ => True
  | .pi _ data => data ≠ some []

/-- Content in the form a parser produces: nothing is left to merge or to drop. -/
def CoalescedList : List Tree → Prop
  | [] => True
  | t :: ts => consNode t ts = t :: ts ∧ Coalesced t ∧ CoalescedList ts

end

/-! ## Names -/

private theorem takeWhile_append_stop {p : Char → Bool} {s rest : Str}
    (hs : ∀ c ∈ s, p c = true) (hrest : ∀ c ∈ rest.head?, p c = false) :
    (s ++ rest).takeWhile p = s ∧ (s ++ rest).dropWhile p = rest := by
  induction s with
  | nil =>
    cases rest with
    | nil => exact ⟨rfl, rfl⟩
    | cons c rest =>
      have hc : p c = false := hrest c rfl
      simp [hc]
  | cons c s ih =>
    obtain ⟨h₁, h₂⟩ := ih fun d hd => hs d (List.mem_cons_of_mem _ hd)
    have hc : p c = true := hs c List.mem_cons_self
    simp [hc, h₁, h₂]

theorem isNameChar_of_isNCName {n : Str} (h : isNCName n = true) : ∀ c ∈ n, isNameChar c = true := by
  cases n with
  | nil => cases h
  | cons c cs =>
    simp only [isNCName, Bool.and_eq_true, List.all_eq_true] at h
    intro d hd
    cases List.mem_cons.mp hd with
    | inl heq => simp [isNameChar, heq, h.1]
    | inr hmem => exact h.2 d hmem

theorem colon_notMem_of_isNCName {n : Str} (h : isNCName n = true) : ':' ∉ n := by
  intro hmem
  have hc := isNameChar_of_isNCName h _ hmem
  exact absurd hc (by decide)

/-- A name is read up to the first character that is none of its own. -/
private theorem readNCName_append {n rest : Str} (hn : isNCName n = true)
    (hrest : ∀ c ∈ rest.head?, isNameChar c = false) : readNCName (n ++ rest) = some (n, rest) := by
  obtain ⟨h₁, h₂⟩ := takeWhile_append_stop (isNameChar_of_isNCName hn) hrest
  simp only [readNCName, h₁, h₂, hn, if_true]

/-- A qualified name is read up to a character that cannot continue it. -/
theorem readQName_append {q : QName} (hq : q.IsName) {rest : Str}
    (hrest : ∀ c ∈ rest.head?, isNameChar c = false ∧ c ≠ ':') :
    readQName (qnameText q.pre q.loc ++ rest) = some (q, rest) := by
  obtain ⟨hpre, hloc⟩ := hq
  have hread := readNCName_append hloc fun c hc => (hrest c hc).1
  simp only [qnameText]
  split
  · -- no prefix: the name ends where the local part does
    rename_i hp
    simp only [readQName, hread]
    split
    · rename_i heq
      cases heq
    · rename_i pre r heq
      simp only [Option.some.injEq, Prod.mk.injEq] at heq
      exact absurd rfl (hrest ':' (by simp [heq.2])).2
    · rename_i heq
      simp only [Option.some.injEq, Prod.mk.injEq] at heq
      obtain ⟨rfl, rfl⟩ := heq
      rw [← hp]
  · rename_i hp
    have hpre' : isNCName q.pre = true := hpre.resolve_left hp
    have hread' : readNCName (q.pre ++ ':' :: (q.loc ++ rest)) =
        some (q.pre, ':' :: (q.loc ++ rest)) := by
      refine readNCName_append hpre' fun c hc => ?_
      obtain rfl : ':' = c := by simpa using hc
      decide
    rw [List.append_assoc, List.cons_append]
    simp only [readQName, hread', hread, Option.map_some]

/-- A qualified name starts with a letter. -/
theorem qnameText_cons {q : QName} (hq : q.IsName) :
    ∃ c s, qnameText q.pre q.loc = c :: s ∧ isNameStart c = true := by
  have hstart : ∀ n rest : Str, isNCName n = true →
      ∃ c s, n ++ rest = c :: s ∧ isNameStart c = true := by
    intro n rest hn
    cases n with
    | nil => cases hn
    | cons c cs =>
      simp only [isNCName, Bool.and_eq_true] at hn
      exact ⟨c, cs ++ rest, rfl, hn.1⟩
  obtain ⟨hpre, hloc⟩ := hq
  simp only [qnameText]
  split
  · simpa using hstart q.loc [] hloc
  · rename_i hp
    exact hstart q.pre _ (hpre.resolve_left hp)

/-! ## Start tags -/

/-- Character data is read up to the delimiter that follows it. -/
theorem takeWhile_flatMap {norm : Char → Char} {forbidden : List Char}
    (E : Escape norm forbidden) {d : Char} (hd : d ∈ forbidden) (s : Str) {rest : Str}
    (hrest : ∀ c ∈ rest.head?, c = d) :
    (s.flatMap E.esc ++ rest).takeWhile (· ≠ d) = s.flatMap E.esc ∧
      (s.flatMap E.esc ++ rest).dropWhile (· ≠ d) = rest := by
  refine takeWhile_append_stop ?_ ?_
  · intro c hc
    have hne : c ≠ d := by
      rintro rfl
      exact E.notMem_flatMap hd s hc
    simpa using hne
  · intro c hc
    simpa using hrest c hc

/-- An attribute that is written is read back. -/
theorem readAttr_write (A : AttrEscape) {a : Attr} (hq : a.name.IsName)
    (hv : AllChars a.value) (rest : Str) :
    readAttr (qnameText a.name.pre a.name.loc ++
      ('=' :: '"' :: (a.value.flatMap A.esc ++ '"' :: rest))) = some (a, rest) := by
  have hname : readQName (qnameText a.name.pre a.name.loc ++
      ('=' :: '"' :: (a.value.flatMap A.esc ++ '"' :: rest))) =
      some (a.name, '=' :: '"' :: (a.value.flatMap A.esc ++ '"' :: rest)) := by
    refine readQName_append hq fun c hc => ?_
    obtain rfl : '=' = c := by simpa using hc
    decide
  have hlt : '<' ∉ a.value.flatMap A.esc := A.notMem_flatMap (by decide) _
  have hraw : (a.value.flatMap A.esc ++ '"' :: rest).takeWhile (· ≠ '"') = a.value.flatMap A.esc ∧
      (a.value.flatMap A.esc ++ '"' :: rest).dropWhile (· ≠ '"') = '"' :: rest :=
    takeWhile_flatMap A (by decide) _ (by simp)
  have heq : isSpace '=' = false := by decide
  have hqt : isSpace '"' = false := by decide
  simp only [readAttr, hname, List.dropWhile_cons, heq, hqt, Bool.false_eq_true, if_false,
    true_or, if_true, hraw.1, hraw.2, if_neg hlt, A.unescape_flatMap hv, Option.map_some]

/-- A name start cannot be mistaken for a delimiter. -/
theorem nameStart_ne {c d : Char} (hc : isNameStart c = true)
    (hd : isNameStart d = false) : c ≠ d := by
  rintro rfl
  rw [hc] at hd
  cases hd

private theorem isSpace_nameStart {c : Char} (hc : isNameStart c = true) : isSpace c = false := by
  simp only [isSpace, Bool.or_eq_false_iff, beq_eq_false_iff_ne]
  exact ⟨⟨⟨nameStart_ne hc (by decide), nameStart_ne hc (by decide)⟩,
    nameStart_ne hc (by decide)⟩, nameStart_ne hc (by decide)⟩

/-- After a space, a name start begins an attribute. -/
theorem readAttrs_name {c : Char} (hc : isNameStart c = true) (s : Str) (fuel : Nat) :
    readAttrs (fuel + 1) (' ' :: c :: s) =
      match readAttr (c :: s) with
      | none => none
      | some (a, rest) => (readAttrs fuel rest).map fun r => (a :: r.1, r.2.1, r.2.2) := by
  have hdrop : (' ' :: c :: s).dropWhile isSpace = c :: s := by
    have hsp : isSpace ' ' = true := by decide
    simp [hsp, isSpace_nameStart hc]
  have hany : (' ' :: c :: s).head?.any isSpace = true := by simp [isSpace]
  have hgt := nameStart_ne hc (show isNameStart '>' = false by decide)
  have hslash := nameStart_ne hc (show isNameStart '/' = false by decide)
  simp only [readAttrs, hdrop, hany, if_true]
  split
  · rename_i heq
    exact absurd (List.cons.inj heq).1 hgt
  · rename_i heq
    exact absurd (List.cons.inj heq).1 hslash
  · rfl

/-- The attributes of a start tag are read back, up to what ends the tag. -/
theorem readAttrs_flatMap (A : AttrEscape) (as : List Attr)
    (h : ∀ a ∈ as, a.name.IsName ∧ AllChars a.value) {close rest : Str} {empty : Bool}
    (hclose : ∀ fuel, readAttrs (fuel + 1) (close ++ rest) = some ([], empty, rest)) (fuel : Nat)
    (hfuel : as.length < fuel) :
    readAttrs fuel (as.flatMap (writeAttr A) ++ (close ++ rest)) = some (as, empty, rest) := by
  induction as generalizing fuel with
  | nil =>
    obtain ⟨fuel, rfl⟩ : ∃ n, fuel = n + 1 := ⟨fuel - 1, by simp at hfuel; omega⟩
    simpa using hclose fuel
  | cons a as ih =>
    obtain ⟨fuel, rfl⟩ : ∃ n, fuel = n + 1 := ⟨fuel - 1, by simp at hfuel; omega⟩
    have ha := h a List.mem_cons_self
    have hread := readAttr_write A ha.1 ha.2 (as.flatMap (writeAttr A) ++ (close ++ rest))
    have hrec := ih (fun b hb => h b (List.mem_cons_of_mem _ hb)) fuel
      (by simp only [List.length_cons] at hfuel; omega)
    obtain ⟨c, s, hcs, hc⟩ := qnameText_cons ha.1
    simp only [hcs, List.cons_append] at hread
    simp only [List.flatMap_cons, writeAttr, hcs, List.cons_append, List.append_assoc,
      List.nil_append]
    rw [readAttrs_name hc, hread]
    simp [hrec]

theorem readAttrs_gt (rest : Str) (fuel : Nat) :
    readAttrs (fuel + 1) (['>'] ++ rest) = some ([], false, rest) := by
  have hgt : isSpace '>' = false := by decide
  simp [readAttrs, hgt]

theorem readAttrs_slash (rest : Str) (fuel : Nat) :
    readAttrs (fuel + 1) (['/', '>'] ++ rest) = some ([], true, rest) := by
  have hslash : isSpace '/' = false := by decide
  simp [readAttrs, hslash]

/-- The written attributes are fuel enough to read them. -/
theorem length_le_flatMap_writeAttr (A : AttrEscape) (l : List Attr) :
    l.length ≤ (l.flatMap (writeAttr A)).length := by
  induction l with
  | nil => simp
  | cons a l ih =>
    have hone : 1 ≤ (writeAttr A a).length := by simp [writeAttr]
    rw [List.flatMap_cons, List.length_append, List.length_cons]
    omega

/-- A start tag continues with a space or with its end. -/
theorem readQName_startTag (A : AttrEscape) {q : QName} (hq : q.IsName) (l : List Attr) {rest : Str}
    (hrest : ∀ c ∈ rest.head?, isNameChar c = false ∧ c ≠ ':') :
    readQName (qnameText q.pre q.loc ++ (l.flatMap (writeAttr A) ++ rest)) =
      some (q, l.flatMap (writeAttr A) ++ rest) := by
  refine readQName_append hq fun c hc => ?_
  cases l with
  | nil => exact hrest c hc
  | cons a l =>
    obtain rfl : ' ' = c := by simpa [writeAttr] using hc
    decide

/-- The attributes of a start tag are read back. -/
theorem readAttrs_write (A : AttrEscape) (as : List Attr)
    (h : ∀ a ∈ as, a.name.IsName ∧ AllChars a.value) (rest : Str) (fuel : Nat)
    (hfuel : as.length < fuel) :
    readAttrs fuel (as.flatMap (writeAttr A) ++ '>' :: rest) = some (as, false, rest) :=
  readAttrs_flatMap A as h (readAttrs_gt rest) fuel hfuel

/-! ### Declarations among the attributes -/

@[simp] theorem declOf_declAttr (d : Str × Str) : declOf (declAttr d) = some d := by
  obtain ⟨p, u⟩ := d
  by_cases hp : p = []
  · simp [declOf, declAttr, hp]
  · have hne : xmlnsPre ≠ [] := by decide
    simp [declOf, declAttr, hp, hne]

/-- An attribute that is not named `xmlns` is no declaration. -/
theorem declOf_eq_none {a : Attr} (hname : a.name.Ok)
    (hxmlns : ¬ (a.name.pre = [] ∧ a.name.loc = xmlnsPre)) : declOf a = none := by
  have hne : a.name ≠ ⟨[], xmlnsPre⟩ := by
    intro heq
    exact hxmlns (by rw [heq]; exact ⟨rfl, rfl⟩)
  simp only [declOf, if_neg hne, if_neg hname.2]

private theorem declOf_attr {chain : List Tree} {a : Attr} (ha : AttrOk chain a) :
    declOf a = none :=
  declOf_eq_none ha.1 ha.2.1

/-- A legal declaration is written under a name. -/
theorem isName_declAttr {d : Str × Str} (h : DeclOk d) : (declAttr d).name.IsName := by
  have hx : isNCName xmlnsPre = true := by decide
  cases h.1 with
  | inl hnil => simp [QName.IsName, declAttr, hnil, hx]
  | inr hnc =>
    have hne : d.1 ≠ [] := by
      intro hnil
      rw [hnil] at hnc
      cases hnc.1
    simp [QName.IsName, declAttr, hne, hx, hnc.1]

variable {chain : List Tree} {q : QName} {ds : List (Str × Str)} {as : List Attr}

/-- The declarations of a written start tag are those of the element. -/
private theorem filterMap_declOf (h : StartTagOk chain q ds as) :
    (ds.map declAttr ++ as).filterMap declOf = ds := by
  have hattrs : as.filterMap declOf = [] :=
    List.filterMap_eq_nil_iff.mpr fun a ha => declOf_attr (h.attrs a ha)
  have hdecls : (ds.map declAttr).filterMap declOf = ds := by
    rw [List.filterMap_map]
    have hfun : declOf ∘ declAttr = some := funext declOf_declAttr
    rw [hfun, List.filterMap_some]
  rw [List.filterMap_append, hattrs, hdecls, List.append_nil]

/-- The declarations of a start tag are told apart from its attributes. -/
theorem declsOf_write (h : StartTagOk chain q ds as) : declsOf (ds.map declAttr ++ as) = ds := by
  rw [declsOf, filterMap_declOf h, List.filter_eq_self]
  intro d hd
  have hxml : d.2 ≠ xmlNs := (h.decls d hd).2.1
  simpa using fun heq : d = (xmlPre, xmlNs) => hxml (by rw [heq])

/-- Its other attributes are those of the element. -/
theorem attrsOf_write (h : StartTagOk chain q ds as) : attrsOf (ds.map declAttr ++ as) = as := by
  have hdecls : (ds.map declAttr).filter (fun a => (declOf a).isNone) = [] := by
    rw [List.filter_eq_nil_iff]
    intro a ha
    obtain ⟨d, -, rfl⟩ := List.mem_map.mp ha
    simp [declOf_declAttr]
  have hattrs : as.filter (fun a => (declOf a).isNone) = as := by
    rw [List.filter_eq_self]
    intro a ha
    simp [declOf_attr (h.attrs a ha)]
  rw [attrsOf, List.filter_append, hdecls, hattrs, List.nil_append]

/-- Everything a start tag is written with reads as a name and a value. -/
theorem isName_startTag (h : StartTagOk chain q ds as) :
    ∀ a ∈ ds.map declAttr ++ as, a.name.IsName ∧ AllChars a.value := by
  intro a ha
  cases List.mem_append.mp ha with
  | inl hd =>
    obtain ⟨d, hmem, rfl⟩ := List.mem_map.mp hd
    exact ⟨isName_declAttr (h.decls d hmem), (h.decls d hmem).2.2.2⟩
  | inr ha => exact ⟨(h.attrs a ha).1.1, (h.attrs a ha).2.2.2⟩

/-! ## Comments and processing instructions -/

/-- A two-character delimiter is found where it was written, when it neither occurs in
    the text before it nor straddles its end. -/
private theorem breakOn_append {a b : Char} {s : Str} (rest : Str) (h : ¬ [a, b] <:+: s)
    (hlast : a = b → s.getLast? ≠ some a) :
    breakOn [a, b] (s ++ a :: b :: rest) = some (s, rest) := by
  induction s with
  | nil => simp [breakOn]
  | cons c s ih =>
    have hs : ¬ [a, b] <:+: s := fun hin => h (hin.trans (List.suffix_cons c s).isInfix)
    have hlast' : a = b → s.getLast? ≠ some a := by
      intro hab hl
      refine hlast hab ?_
      cases s with
      | nil => cases hl
      | cons d s => simpa [List.getLast?_cons_cons] using hl
    have hpre : [a, b].isPrefixOf (c :: s ++ a :: b :: rest) = false := by
      cases s with
      | nil =>
        -- the delimiter would start at the last character of the text
        by_cases hca : c = a
        · by_cases hab : a = b
          · exact absurd (by simp [hca]) (hlast hab)
          · simp [List.isPrefixOf, hca, Ne.symm hab]
        · simp [List.isPrefixOf, Ne.symm hca]
      | cons d s =>
        by_cases hc : c = a ∧ d = b
        · obtain ⟨rfl, rfl⟩ := hc
          exact absurd ((List.prefix_append [c, d] s).isInfix) h
        · by_cases hca : c = a
          · have hdb : d ≠ b := fun hdb => hc ⟨hca, hdb⟩
            simp [List.isPrefixOf, Ne.symm hdb]
          · simp [List.isPrefixOf, Ne.symm hca]
    simp only [List.cons_append] at hpre ⊢
    simp only [breakOn, hpre, Bool.false_eq_true, if_false, ih hs hlast', Option.map_some]

/-- A comment that is written is read back. -/
private theorem readComment_write {s : Str} (h : CommentOk s) (rest : Str) :
    readComment (s ++ '-' :: '-' :: '>' :: rest) = some (.comment s, rest) := by
  simp only [readComment, breakOn_append ('>' :: rest) h.2.1 fun _ => h.2.2]

/-- A processing instruction that is written is read back. -/
private theorem readPi_write {target : Str} {data : Option Str} (h : PiOk target data)
    (hdata : data ≠ some []) (rest : Str) :
    readPi (target ++ (writePiData data ++ '?' :: '>' :: rest)) = some (.pi target data, rest) := by
  obtain ⟨htarget, -, hd⟩ := h
  cases data with
  | none =>
    have hname : readNCName (target ++ '?' :: '>' :: rest) = some (target, '?' :: '>' :: rest) := by
      refine readNCName_append htarget fun c hc => ?_
      obtain rfl : '?' = c := by simpa using hc
      decide
    have hbreak : breakOn ['?', '>'] ('?' :: '>' :: rest) = some ([], rest) :=
      breakOn_append rest (s := []) (by decide) (by decide)
    simp [readPi, writePiData, hname, hbreak]
  | some d =>
    have hne : d ≠ [] := fun hnil => hdata (by rw [hnil])
    obtain ⟨-, hend, hspace⟩ := hd d rfl
    have hname : readNCName (target ++ ' ' :: (d ++ '?' :: '>' :: rest)) =
        some (target, ' ' :: (d ++ '?' :: '>' :: rest)) := by
      refine readNCName_append htarget fun c hc => ?_
      obtain rfl : ' ' = c := by simpa using hc
      decide
    have hend' : ¬ ['?', '>'] <:+: ' ' :: d := by
      intro hin
      cases List.infix_cons_iff.mp hin with
      | inl hpre => simp at hpre
      | inr hin => exact hend hin
    have hbreak : breakOn ['?', '>'] (' ' :: d ++ '?' :: '>' :: rest) = some (' ' :: d, rest) :=
      breakOn_append rest hend' fun heq => absurd heq (by decide)
    have hdrop : (' ' :: d).dropWhile isSpace = d := by
      have hsp : isSpace ' ' = true := by decide
      cases d with
      | nil => exact absurd rfl hne
      | cons c d =>
        have hc : isSpace c = false := hspace
        simp [hsp, hc]
    simp only [List.cons_append] at hbreak
    simp [readPi, writePiData, hne, hname, hbreak, hdrop, isSpace]

/-! ## Content -/

/-- The rest of the input starts with markup, or is empty. -/
def MarkupNext (rest : Str) : Prop := ∀ c ∈ rest.head?, c = '<'

/-- A text is read back whole where markup follows it. -/
theorem readText_write (T : TextEscape) {s : Str} (hs : AllChars s) {rest : Str}
    (hrest : MarkupNext rest) : readText (s.flatMap T.esc ++ rest) = some (.text s, rest) := by
  obtain ⟨htake, hdrop⟩ := takeWhile_flatMap T (d := '<') (by decide) s hrest
  have hend : ¬ [']', ']', '>'] <:+: s.flatMap T.esc := by
    intro hin
    exact T.notMem_flatMap (d := '>') (by decide) s (hin.subset (by decide))
  simp only [readText, htake, hdrop, if_neg hend, T.unescape_flatMap hs, Option.map_some]

/-- Text that is not empty starts with a character other than `<`. -/
theorem flatMap_cons_ne_lt (T : TextEscape) {s : Str} (hne : s ≠ []) :
    ∃ c r, s.flatMap T.esc = c :: r ∧ c ≠ '<' := by
  cases s with
  | nil => exact absurd rfl hne
  | cons a s =>
    cases hesc : T.esc a with
    | nil => exact absurd hesc (T.nonempty a)
    | cons c r =>
      refine ⟨c, r ++ s.flatMap T.esc, by simp [hesc], ?_⟩
      rintro rfl
      exact T.safe a '<' (by simp [hesc]) (by decide)

theorem readItem_text {element : Str → Option (Tree × Str)} {c : Char} (hc : c ≠ '<')
    (s : Str) : readItem element (c :: s) = readText (c :: s) := by
  unfold readItem
  split <;> rename_i heq <;> first | rfl | exact absurd (List.cons.inj heq).1 hc

theorem readItem_name {element : Str → Option (Tree × Str)} {c : Char}
    (hc : isNameStart c = true) (s : Str) :
    readItem element ('<' :: c :: s) = element (c :: s) := by
  have hbang := nameStart_ne hc (show isNameStart '!' = false by decide)
  have hquestion := nameStart_ne hc (show isNameStart '?' = false by decide)
  unfold readItem
  split
  · rename_i heq
    exact absurd (List.cons.inj (List.cons.inj heq).2).1 hbang
  · rename_i heq
    exact absurd (List.cons.inj (List.cons.inj heq).2).1 hbang
  · rename_i heq
    exact absurd (List.cons.inj (List.cons.inj heq).2).1 hquestion
  · rename_i heq
    rw [(List.cons.inj heq).2]
  · rename_i hnot
    exact absurd rfl (hnot (c :: s))

section

variable {T : TextEscape} {A : AttrEscape}

/-- How the text of an element begins and ends. -/
private theorem write_element_append (q : QName) (ds : List (Str × Str)) (as : List Attr)
    (cs : List Tree) (rest : Str) :
    write T A (.element q ds as cs) ++ rest =
      '<' :: (qnameText q.pre q.loc ++ ((ds.map declAttr ++ as).flatMap (writeAttr A) ++
        '>' :: (writeList T A cs ++ '<' :: '/' :: (qnameText q.pre q.loc ++ '>' :: rest)))) := by
  simp only [write, List.cons_append, List.append_assoc, List.nil_append]

/-- A printed node starts neither with the end of the input nor with an end tag; unless
    it is text, it starts with markup. -/
private theorem write_head {up : List Tree} {t : Tree} (hwf : WellFormed up t) (hn : Coalesced t)
    (rest : Str) :
    ∃ c r, write T A t ++ rest = c :: r ∧ (c = '<' → ∃ d r', r = d :: r' ∧ d ≠ '/') ∧
      (t.isText = false → c = '<') := by
  cases t with
  | root cs => exact absurd hwf (by simp [WellFormed])
  | element q ds as cs =>
    rw [WellFormed] at hwf
    obtain ⟨c, s, hcs, hc⟩ := qnameText_cons hwf.1.name.1
    rw [write_element_append, hcs]
    exact ⟨'<', _, rfl, fun _ => ⟨c, _, rfl, nameStart_ne hc (by decide)⟩, fun _ => rfl⟩
  | text s =>
    rw [Coalesced] at hn
    obtain ⟨c, r, hcr, hc⟩ := flatMap_cons_ne_lt T hn
    refine ⟨c, r ++ rest, by simp [write, hcr], fun h => absurd h hc, ?_⟩
    intro h
    cases h
  | comment s => exact ⟨'<', _, rfl, fun _ => ⟨'!', _, rfl, by decide⟩, fun _ => rfl⟩
  | pi target data => exact ⟨'<', _, rfl, fun _ => ⟨'?', _, rfl, by decide⟩, fun _ => rfl⟩

/-- Content that does not end here begins with an item. -/
theorem readContent_item {c : Char} {r : Str}
    (h : c = '<' → ∃ d r', r = d :: r' ∧ d ≠ '/') (fuel : Nat) :
    readContent (fuel + 1) (c :: r) =
      match readItem (readElement fuel) (c :: r) with
      | none => none
      | some (t, rest) => (readContent fuel rest).map fun p => (consNode t p.1, p.2) := by
  refine readContent.eq_4 (c :: r) fuel ?_ ?_
  · intro heq
    cases heq
  · intro tail heq
    obtain ⟨rfl, rfl⟩ := List.cons.inj heq
    obtain ⟨d, r', hr, hd⟩ := h rfl
    exact absurd (List.cons.inj hr).1.symm hd

/-- After a text node that does not merge with what follows, markup follows. -/
private theorem markupNext_writeList {up : List Tree} {s : Str} {ts : List Tree} {rest : Str}
    (hwf : WellFormedList up ts) (hn : CoalescedList ts)
    (hmerge : consNode (.text s) ts = .text s :: ts) (hrest : MarkupNext rest) :
    MarkupNext (writeList T A ts ++ rest) := by
  cases ts with
  | nil => simpa [writeList] using hrest
  | cons t ts =>
    rw [WellFormedList] at hwf
    rw [CoalescedList] at hn
    have ht : t.isText = false := by
      cases t with
      | text s' => exact absurd (congrArg List.length hmerge) (by simp [consNode])
      | _ => rfl
    obtain ⟨c, r, hcr, -, hc⟩ := write_head (T := T) (A := A) hwf.1 hn.2.1
      (writeList T A ts ++ rest)
    intro d hd
    rw [writeList, List.append_assoc, hcr] at hd
    simp only [List.head?_cons, Option.mem_def, Option.some.injEq] at hd
    exact hd ▸ hc ht

/-- The rest of the input starts with an end tag, or is empty. -/
def ContentEnd (rest : Str) : Prop := rest = [] ∨ ∃ r, rest = '<' :: '/' :: r

theorem ContentEnd.markupNext {rest : Str} (h : ContentEnd rest) : MarkupNext rest := by
  obtain rfl | ⟨r, rfl⟩ := h
  · intro c hc
    cases hc
  · intro c hc
    exact (Option.some.inj hc).symm

/-- Content ends at an end tag or with the text. -/
theorem readContent_end {rest : Str} (h : ContentEnd rest) (fuel : Nat) :
    readContent (fuel + 1) rest = some ([], rest) := by
  obtain rfl | ⟨r, rfl⟩ := h <;> simp [readContent]

/-- An element is read back when its content is. -/
private theorem readElement_write {up : List Tree} {q : QName} {ds : List (Str × Str)}
    {as : List Attr} {cs : List Tree} (h : StartTagOk up q ds as) (rest : Str) (fuel : Nat)
    (hcontent : readContent fuel
        (writeList T A cs ++ '<' :: '/' :: (qnameText q.pre q.loc ++ '>' :: rest)) =
      some (cs, '<' :: '/' :: (qnameText q.pre q.loc ++ '>' :: rest))) :
    readElement (fuel + 1) (qnameText q.pre q.loc ++
        ((ds.map declAttr ++ as).flatMap (writeAttr A) ++
          '>' :: (writeList T A cs ++ '<' :: '/' :: (qnameText q.pre q.loc ++ '>' :: rest)))) =
      some (.element q ds as cs, rest) := by
  have hname : ∀ r, readQName (qnameText q.pre q.loc ++ '>' :: r) = some (q, '>' :: r) := by
    intro r
    refine readQName_append h.name.1 fun c hc => ?_
    obtain rfl : '>' = c := by simpa using hc
    decide
  have hopen : ∀ l : List Attr, ∀ r, readQName (qnameText q.pre q.loc ++
      (l.flatMap (writeAttr A) ++ '>' :: r)) = some (q, l.flatMap (writeAttr A) ++ '>' :: r) := by
    intro l r
    refine readQName_startTag A h.name.1 l fun c hc => ?_
    obtain rfl : '>' = c := by simpa using hc
    decide
  have hattrs := readAttrs_write A _ (isName_startTag h)
    (writeList T A cs ++ '<' :: '/' :: (qnameText q.pre q.loc ++ '>' :: rest))
    (((ds.map declAttr ++ as).flatMap (writeAttr A) ++
      '>' :: (writeList T A cs ++ '<' :: '/' :: (qnameText q.pre q.loc ++ '>' :: rest))).length + 1)
    (by have := length_le_flatMap_writeAttr A (ds.map declAttr ++ as); simp only [List.length_append] at this ⊢; omega)
  have hgt : isSpace '>' = false := by decide
  rw [readElement, hopen]
  simp only [hattrs, hcontent, hname, List.dropWhile_cons, hgt, Bool.false_eq_true, if_false,
    if_true, declsOf_write h, attrsOf_write h]

/-- Printed nodes and printed content are read back. The fuel left is at least the
    length of the input, and both recursive calls of the reader get a shorter input. -/
private theorem read_write :
    (∀ t : Tree, ∀ up rest fuel, WellFormed up t → Coalesced t →
      (t.isText = true → MarkupNext rest) → (write T A t ++ rest).length ≤ fuel →
      readItem (readElement fuel) (write T A t ++ rest) = some (t, rest)) ∧
    (∀ ts : List Tree, ∀ up rest fuel, WellFormedList up ts → CoalescedList ts →
      ContentEnd rest → (writeList T A ts ++ rest).length < fuel →
      readContent fuel (writeList T A ts ++ rest) = some (ts, rest)) := by
  refine Tree.induction ?_ ?_ ?_ ?_ ?_ ?_ ?_
  · -- root
    intro cs _ up rest fuel hwf
    exact absurd hwf (by simp [WellFormed])
  · -- element
    intro q ds as cs ih up rest fuel hwf hn _ hfuel
    rw [WellFormed] at hwf
    rw [Coalesced] at hn
    obtain ⟨c, s, hcs, hc⟩ := qnameText_cons hwf.1.name.1
    rw [write_element_append] at hfuel ⊢
    obtain ⟨fuel, rfl⟩ : ∃ n, fuel = n + 1 := ⟨fuel - 1, by simp at hfuel; omega⟩
    have hcontent := ih _ ('<' :: '/' :: (qnameText q.pre q.loc ++ '>' :: rest)) fuel hwf.2 hn
      (.inr ⟨_, rfl⟩) (by
        simp only [List.length_cons, List.length_append] at hfuel ⊢
        omega)
    have helem := readElement_write hwf.1 rest fuel hcontent
    rw [hcs] at helem ⊢
    exact (readItem_name hc _).trans helem
  · -- text
    intro s up rest fuel hwf hn hrest _
    rw [WellFormed] at hwf
    rw [Coalesced] at hn
    have hread := readText_write T hwf (hrest rfl)
    obtain ⟨c, r, hcr, hc⟩ := flatMap_cons_ne_lt T hn
    simp only [write, hcr, List.cons_append] at hread ⊢
    rw [readItem_text hc, hread]
  · -- comment
    intro s up rest fuel hwf _ _ _
    rw [WellFormed] at hwf
    have hread := readComment_write hwf rest
    simp only [write, List.cons_append, List.append_assoc, List.nil_append, readItem, hread]
  · -- processing instruction
    intro target data up rest fuel hwf hn _ _
    rw [WellFormed] at hwf
    rw [Coalesced] at hn
    have hread := readPi_write hwf hn rest
    simp only [write, List.cons_append, List.append_assoc, List.nil_append, readItem, hread]
  · -- no content left
    intro up rest fuel _ _ hrest hfuel
    obtain ⟨fuel, rfl⟩ : ∃ n, fuel = n + 1 := ⟨fuel - 1, by omega⟩
    simpa [writeList] using readContent_end hrest fuel
  · -- a node and the content after it
    intro t ts iht ihts up rest fuel hwf hn hrest hfuel
    rw [WellFormedList] at hwf
    rw [CoalescedList] at hn
    obtain ⟨fuel, rfl⟩ : ∃ n, fuel = n + 1 := ⟨fuel - 1, by omega⟩
    rw [writeList, List.append_assoc] at hfuel ⊢
    have hmarkup : t.isText = true → MarkupNext (writeList T A ts ++ rest) := by
      intro ht
      cases t with
      | text s => exact markupNext_writeList hwf.2 hn.2.2 hn.1 hrest.markupNext
      | _ => cases ht
    have hitem := iht up (writeList T A ts ++ rest) fuel hwf.1 hn.2.1 hmarkup (by omega)
    obtain ⟨c, r, hcr, hhead, -⟩ :=
      write_head (T := T) (A := A) hwf.1 hn.2.1 (writeList T A ts ++ rest)
    have hshorter : (writeList T A ts ++ rest).length < fuel := by
      have hnil : write T A t ≠ [] := by
        intro hnil
        obtain ⟨c', r', hcr', -, -⟩ := write_head (T := T) (A := A) hwf.1 hn.2.1 []
        rw [hnil] at hcr'
        cases hcr'
      have hpos := List.length_pos_iff.mpr hnil
      rw [List.length_append] at hfuel
      omega
    have hrec := ihts up rest fuel hwf.2 hn.2.2 hrest hshorter
    rw [hcr] at hitem ⊢
    rw [readContent_item hhead, hitem]
    simp [hrec, hn.1]

/-- A printed node determines the node. -/
theorem write_injective {t₁ t₂ : Tree} {up₁ up₂ : List Tree} (hwf₁ : WellFormed up₁ t₁)
    (hn₁ : Coalesced t₁) (hwf₂ : WellFormed up₂ t₂) (hn₂ : Coalesced t₂)
    (h : write T A t₁ = write T A t₂) : t₁ = t₂ := by
  have hread₁ := (read_write (T := T) (A := A)).1 t₁ up₁ [] _ hwf₁ hn₁
    (fun _ c hc => by cases hc) (le_refl _)
  have hread₂ := (read_write (T := T) (A := A)).1 t₂ up₂ [] _ hwf₂ hn₂
    (fun _ c hc => by cases hc) (le_refl _)
  rw [h, hread₂] at hread₁
  exact (Prod.mk.inj (Option.some.inj hread₁)).1.symm

/-! ## Documents -/

private theorem cr_notMem_ncName {n : Str} (h : isNCName n = true) : '\r' ∉ n := by
  intro hmem
  exact absurd (isNameChar_of_isNCName h _ hmem) (by decide)

theorem cr_notMem_qname {q : QName} (h : q.IsName) : '\r' ∉ qnameText q.pre q.loc := by
  obtain ⟨hpre, hloc⟩ := h
  simp only [qnameText]
  split
  · exact cr_notMem_ncName hloc
  · rename_i hp
    have hcr := cr_notMem_ncName (hpre.resolve_left hp)
    simp [hcr, cr_notMem_ncName hloc]

theorem cr_notMem_writeAttr {a : Attr} (h : a.name.IsName) : '\r' ∉ writeAttr A a := by
  have hv : '\r' ∉ a.value.flatMap A.esc := A.notMem_flatMap (by decide) _
  simp only [writeAttr, List.mem_append, List.mem_cons, List.not_mem_nil, or_false, not_or]
  exact ⟨⟨⟨⟨by decide, cr_notMem_qname h⟩, by decide, by decide⟩, hv⟩, by decide⟩

mutual

/-- No processing instruction holds a carriage return, and no comment where these count: it has
    no escape there, so line-end handling would turn it into a line feed. -/
def NoReturn (comments : Bool) : Tree → Prop
  | .root cs => NoReturnList comments cs
  | .element _ _ _ cs => NoReturnList comments cs
  | .text _ => True
  | .comment s => comments = true → '\r' ∉ s
  | .pi _ data => ∀ d ∈ data, '\r' ∉ d

/-- `NoReturn` for every tree of a list. -/
def NoReturnList (comments : Bool) : List Tree → Prop
  | [] => True
  | t :: ts => NoReturn comments t ∧ NoReturnList comments ts

end

/-- The only carriage returns of a printed tree are those of its comments and processing
    instructions. -/
private theorem cr_notMem_write_aux :
    (∀ t : Tree, ∀ up, WellFormed up t → ('\r' ∉ write T A t ↔ NoReturn true t)) ∧
    (∀ ts : List Tree, ∀ up, WellFormedList up ts →
      ('\r' ∉ writeList T A ts ↔ NoReturnList true ts)) := by
  refine Tree.induction ?_ ?_ ?_ ?_ ?_ ?_ ?_
  · intro cs _ up hwf
    exact absurd hwf (by simp [WellFormed])
  · intro q ds as cs ih up hwf
    rw [WellFormed] at hwf
    have hq := cr_notMem_qname hwf.1.name.1
    have hattrs : '\r' ∉ (ds.map declAttr ++ as).flatMap (writeAttr A) := by
      intro hmem
      obtain ⟨a, ha, hcr⟩ := List.mem_flatMap.mp hmem
      exact cr_notMem_writeAttr (isName_startTag hwf.1 a ha).1 hcr
    have hcontent := ih _ hwf.2
    rw [NoReturn, ← hcontent]
    simp only [write, List.mem_append, List.mem_cons, List.not_mem_nil, or_false, not_or]
    constructor
    · intro h
      exact h.1.2
    · intro h
      exact ⟨⟨⟨⟨⟨by decide, hq⟩, hattrs⟩, by decide⟩, h⟩, ⟨by decide, by decide, hq⟩, by decide⟩
  · intro s up _
    have hesc : '\r' ∉ s.flatMap T.esc := T.notMem_flatMap (by decide) s
    simp [write, NoReturn, hesc]
  · intro s up _
    simp [write, NoReturn]
  · intro target data up hwf
    rw [WellFormed] at hwf
    have htarget := cr_notMem_ncName hwf.1
    cases data with
    | none => simp [write, writePiData, NoReturn, htarget]
    | some d =>
      by_cases hd : d = []
      · simp [write, writePiData, NoReturn, htarget, hd]
      · simp [write, writePiData, NoReturn, htarget, hd]
  · intro up _
    simp [writeList, NoReturnList]
  · intro t ts iht ihts up hwf
    rw [WellFormedList] at hwf
    rw [NoReturnList, ← iht up hwf.1, ← ihts up hwf.2, writeList, List.mem_append, not_or]

/-- A tree is written without a carriage return iff none stands raw in a comment or an
    instruction. -/
theorem cr_notMem_write_iff {up : List Tree} {t : Tree} (hwf : WellFormed up t) :
    '\r' ∉ write T A t ↔ NoReturn true t :=
  cr_notMem_write_aux.1 t up hwf

/-- Without a carriage return there are no line ends to normalize. -/
theorem normalizeEol_eq {s : Str} (h : '\r' ∉ s) : normalizeEol s = s := by
  induction s with
  | nil => rfl
  | cons c s ih =>
    simp only [List.mem_cons, not_or] at h
    rw [normalizeEol, ih h.2]
    · exact fun _ heq => absurd heq.symm h.1
    · exact fun heq => absurd heq.symm h.1

/-- Before an element there is nothing to skip. -/
theorem readMisc_name {c : Char} (hc : isNameStart c = true) (s : Str) (fuel : Nat) :
    readMisc (fuel + 1) ('<' :: c :: s) = some ([], '<' :: c :: s) := by
  have hlt : isSpace '<' = false := by decide
  have hbang := nameStart_ne hc (show isNameStart '!' = false by decide)
  have hquestion := nameStart_ne hc (show isNameStart '?' = false by decide)
  simp only [readMisc, List.dropWhile_cons, hlt, Bool.false_eq_true, if_false]
  split
  · rename_i heq
    exact absurd (List.cons.inj (List.cons.inj heq).2).1 hbang
  · rename_i heq
    exact absurd (List.cons.inj (List.cons.inj heq).2).1 hquestion
  · rfl

/-- An element is no XML declaration. -/
theorem skipXmlDecl_name {c : Char} (hc : isNameStart c = true) (s : Str) :
    skipXmlDecl ('<' :: c :: s) = some ('<' :: c :: s) := by
  have hquestion := nameStart_ne hc (show isNameStart '?' = false by decide)
  unfold skipXmlDecl
  split
  · rename_i heq
    exact absurd (List.cons.inj (List.cons.inj heq).2).1 hquestion
  · rfl

variable {q : QName} {ds : List (Str × Str)} {as : List Attr} {cs : List Tree}

/-- A printed element without carriage returns parses as the document whose only child it is. -/
theorem parse_write (T : TextEscape) (A : AttrEscape)
    (hwf : WellFormed [.root [.element q ds as cs]] (.element q ds as cs))
    (hn : Coalesced (.element q ds as cs)) (hreturn : NoReturn true (.element q ds as cs)) :
    ∃ h, parse (write T A (.element q ds as cs)) = some ⟨[.element q ds as cs], h⟩ := by
  have hwf' := hwf
  rw [WellFormed] at hwf'
  obtain ⟨c, s, hcs, hc⟩ := qnameText_cons hwf'.1.name.1
  have hhead := write_element_append (T := T) (A := A) q ds as cs []
  rw [List.append_nil, hcs, List.cons_append] at hhead
  have hcr : '\r' ∉ write T A (.element q ds as cs) := (cr_notMem_write_iff hwf).mpr hreturn
  have hitem := (read_write (T := T) (A := A)).1 _ _ [] _ hwf hn
    (by intro h; cases h) (le_refl _)
  rw [List.append_nil, hhead, readItem_name hc] at hitem
  have hok : DocumentOk [.element q ds as cs] :=
    { noText := by simp [Tree.isText]
      oneElement := rfl
      content := by rw [WellFormedList, WellFormedList]; exact ⟨hwf, trivial⟩ }
  have hread : readDocument (write T A (.element q ds as cs)) = some [.element q ds as cs] := by
    rw [readDocument, normalizeEol_eq hcr, hhead, skipXmlDecl_name hc]
    simp only [readMisc_name hc]
    rw [List.length_cons] at hitem
    simp only [hitem]
    simp [readMisc]
  refine ⟨hok, ?_⟩
  simp only [parse, hread, dif_pos hok]

end

end Xml
