import Asx.Xml.Tags

/-!
# Line ends in a parsed document

Line ends are normalized before anything is read, so what is read of comments and processing
instructions has no carriage return. Character data can have one, from a reference.

## Main results
- `plainly_read_aux`: an element, and content
- `noReturn_of_parse`: a document
-/

namespace Xml

/-- The reader goes on within the text, and what it has read has no carriage return where the
    text has none. -/
def PlainlyRead (s : Str) (ts : List Tree) (rest : Str) : Prop :=
  rest <:+ s ∧ ('\r' ∉ s → NoReturnList true ts)

namespace PlainlyRead

theorem nil {s rest : Str} (h : rest <:+ s) : PlainlyRead s [] rest :=
  ⟨h, fun _ => by rw [NoReturnList]; trivial⟩

theorem one {s rest : Str} {t : Tree} (h : rest <:+ s) (ht : '\r' ∉ s → NoReturn true t) :
    PlainlyRead s [t] rest :=
  ⟨h, fun hs => by rw [NoReturnList, NoReturnList]; exact ⟨ht hs, trivial⟩⟩

/-- What comes before the text does not matter. -/
theorem of_suffix {s s' rest : Str} {ts : List Tree} (h : PlainlyRead s ts rest)
    (hs : s <:+ s') : PlainlyRead s' ts rest :=
  ⟨h.1.trans hs, fun hcr => h.2 fun hmem => hcr (hs.subset hmem)⟩

end PlainlyRead

theorem noReturnList_append {ts us : List Tree} (h : NoReturnList true ts)
    (h' : NoReturnList true us) : NoReturnList true (ts ++ us) := by
  induction ts with
  | nil => exact h'
  | cons t ts ih =>
    rw [NoReturnList] at h
    rw [List.cons_append, NoReturnList]
    exact ⟨h.1, ih h.2⟩

/-- Two steps of the reader that keep out carriage returns do so together. -/
theorem PlainlyRead.trans {s rest rest' : Str} {ts us : List Tree} (h : PlainlyRead s ts rest)
    (h' : PlainlyRead rest us rest') : PlainlyRead s (ts ++ us) rest' := by
  refine ⟨h'.1.trans h.1, fun hs => noReturnList_append (h.2 hs) (h'.2 fun hmem => ?_)⟩
  exact hs (h.1.subset hmem)

/-- Merging text leaves comments and processing instructions as they are. -/
theorem noReturnList_consNode {comments : Bool} (t : Tree) (ts : List Tree) :
    NoReturnList comments (consNode t ts) ↔ NoReturn comments t ∧ NoReturnList comments ts := by
  unfold consNode
  split
  · simp [NoReturnList, NoReturn]
  · simp [NoReturn]
  · rw [NoReturnList]

/-! ## Names, attributes and delimiters -/

/-- What stands before a delimiter and what follows it are of the text. -/
theorem breakOn_eq_some {delim s body rest : Str} (h : breakOn delim s = some (body, rest)) :
    body ⊆ s ∧ rest <:+ s := by
  induction s generalizing body with
  | nil => cases h
  | cons c s ih =>
    rw [breakOn] at h
    split at h
    · simp only [Option.some.injEq, Prod.mk.injEq] at h
      obtain ⟨rfl, rfl⟩ := h
      exact ⟨List.nil_subset _, List.drop_suffix _ _⟩
    · obtain ⟨⟨body', rest'⟩, hs, heq⟩ := Option.map_eq_some_iff.mp h
      simp only [Prod.mk.injEq] at heq
      obtain ⟨rfl, rfl⟩ := heq
      obtain ⟨hbody, hrest⟩ := ih hs
      exact ⟨List.cons_subset_cons _ hbody, hrest.trans (List.suffix_cons _ _)⟩

/-- The reader of names leaves a rest of its text. -/
theorem readQName_suffix {s rest : Str} {q : QName} (h : readQName s = some (q, rest)) :
    rest <:+ s := by
  obtain ⟨-, w, rfl, -⟩ := readQName_eq_some h
  exact List.suffix_append _ _

/-- A character in front of what is left after white space. -/
private theorem suffix_of_dropWhile {p : Char → Bool} {c : Char} {s rest : Str}
    (h : s.dropWhile p = c :: rest) : rest <:+ s :=
  (List.suffix_cons c rest).trans (h ▸ List.dropWhile_suffix p)

/-- The reader of an attribute leaves a rest of its text. -/
theorem readAttr_suffix {s rest : Str} {a : Attr} (h : readAttr s = some (a, rest)) :
    rest <:+ s := by
  unfold readAttr at h
  split at h
  · cases h
  · rename_i name rest₁ hname
    have hs := readQName_suffix hname
    split at h
    · rename_i rest₂ hrest₂
      have hs₂ := (suffix_of_dropWhile hrest₂).trans hs
      split at h
      · rename_i quote rest₃ hrest₃
        have hs₃ := (suffix_of_dropWhile hrest₃).trans hs₂
        split at h
        · dsimp only at h
          split at h
          · rename_i c rest₄ hrest₄
            split at h
            · cases h
            · obtain ⟨v, -, heq⟩ := Option.map_eq_some_iff.mp h
              simp only [Prod.mk.injEq] at heq
              obtain ⟨-, rfl⟩ := heq
              exact (suffix_of_dropWhile hrest₄).trans hs₃
          · cases h
        · cases h
      · cases h
    · cases h

/-- The reader of a start tag leaves a rest of its text. -/
theorem readAttrs_suffix {fuel : Nat} {s rest : Str} {as : List Attr} {selfClosing : Bool}
    (h : readAttrs fuel s = some (as, selfClosing, rest)) : rest <:+ s := by
  induction fuel generalizing s as with
  | zero => cases h
  | succ fuel ih =>
    rw [readAttrs] at h
    split at h
    · rename_i rest' hrest
      simp only [Option.some.injEq, Prod.mk.injEq] at h
      obtain ⟨-, -, rfl⟩ := h
      exact suffix_of_dropWhile hrest
    · rename_i rest' hrest
      simp only [Option.some.injEq, Prod.mk.injEq] at h
      obtain ⟨-, -, rfl⟩ := h
      exact (List.suffix_cons '>' _).trans (suffix_of_dropWhile hrest)
    · split at h
      · split at h
        · cases h
        · rename_i a rest' hattr
          obtain ⟨⟨as', sc, rest''⟩, hrest, heq⟩ := Option.map_eq_some_iff.mp h
          simp only [Prod.mk.injEq] at heq
          obtain ⟨-, rfl, rfl⟩ := heq
          exact ((ih hrest).trans (readAttr_suffix hattr)).trans (List.dropWhile_suffix _)
      · cases h

/-! ## Content -/

/-- A comment has no carriage return where the text has none. -/
theorem plainlyRead_comment {s rest : Str} {t : Tree} (h : readComment s = some (t, rest)) :
    PlainlyRead s [t] rest := by
  unfold readComment at h
  split at h
  · rename_i body rest' hbreak
    simp only [Option.some.injEq, Prod.mk.injEq] at h
    obtain ⟨rfl, rfl⟩ := h
    obtain ⟨hbody, hrest⟩ := breakOn_eq_some hbreak
    refine .one ((List.suffix_cons '>' _).trans hrest) fun hs => ?_
    rw [NoReturn]
    exact fun _ hmem => hs (hbody hmem)
  · cases h

/-- Nor has a processing instruction. -/
theorem plainlyRead_pi {s rest : Str} {t : Tree} (h : readPi s = some (t, rest)) :
    PlainlyRead s [t] rest := by
  unfold readPi at h
  split at h
  · cases h
  · rename_i target rest₁ hname
    obtain ⟨rfl, -, -⟩ := readNCName_eq_some hname
    split at h
    · cases h
    · rename_i body rest₂ hbreak
      obtain ⟨hbody, hrest⟩ := breakOn_eq_some hbreak
      have hsuffix := hrest.trans (List.suffix_append target rest₁)
      split at h
      · cases h
        refine .one hsuffix fun _ => ?_
        rw [NoReturn]
        intro d hd
        cases hd
      · split at h
        · cases h
          refine .one hsuffix fun hs => ?_
          rw [NoReturn]
          intro d hd hmem
          -- the data is what is left of the body after white space
          split at hd
          · cases hd
          · obtain rfl := Option.some.inj hd
            have hin := hbody ((List.dropWhile_suffix isSpace).subset hmem)
            exact hs (List.mem_append_right _ hin)
        · cases h

/-- A text may: a character reference gives it one. -/
theorem plainlyRead_text {s rest : Str} {t : Tree} (h : readText s = some (t, rest)) :
    PlainlyRead s [t] rest := by
  unfold readText at h
  dsimp only at h
  split at h
  · cases h
  · obtain ⟨v, -, heq⟩ := Option.map_eq_some_iff.mp h
    simp only [Prod.mk.injEq] at heq
    obtain ⟨rfl, rfl⟩ := heq
    refine .one (List.dropWhile_suffix _) fun _ => ?_
    rw [NoReturn]
    trivial

theorem plainlyRead_cdata {s rest : Str} {t : Tree} (h : readCdata s = some (t, rest)) :
    PlainlyRead s [t] rest := by
  obtain ⟨⟨body, rest'⟩, hbreak, heq⟩ := Option.map_eq_some_iff.mp h
  simp only [Prod.mk.injEq] at heq
  obtain ⟨rfl, rfl⟩ := heq
  refine .one (breakOn_eq_some hbreak).2 fun _ => ?_
  rw [NoReturn]
  trivial

/-- No item has one outside of texts, when elements have none. -/
theorem plainlyRead_item {element : Str → Option (Tree × Str)} {s rest : Str} {t : Tree}
    (helement : ∀ s t rest, element s = some (t, rest) → PlainlyRead s [t] rest)
    (h : readItem element s = some (t, rest)) : PlainlyRead s [t] rest := by
  unfold readItem at h
  split at h
  · exact (plainlyRead_comment h).of_suffix ⟨['<', '!', '-', '-'], rfl⟩
  · exact (plainlyRead_cdata h).of_suffix ⟨['<', '!', '[', 'C', 'D', 'A', 'T', 'A', '['], rfl⟩
  · exact (plainlyRead_pi h).of_suffix ⟨['<', '?'], rfl⟩
  · exact (helement _ _ _ h).of_suffix (List.suffix_cons _ _)
  · exact plainlyRead_text h

/-- The induction is on the reader's fuel, which both of its functions share. -/
theorem plainly_read_aux (fuel : Nat) :
    (∀ s t rest, readElement fuel s = some (t, rest) → PlainlyRead s [t] rest) ∧
    (∀ s ts rest, readContent fuel s = some (ts, rest) → PlainlyRead s ts rest) := by
  induction fuel with
  | zero =>
    constructor
    · intro s t rest h
      cases h
    · intro s ts rest h
      cases h
  | succ fuel ih =>
    obtain ⟨ihElement, ihContent⟩ := ih
    constructor
    · intro s t rest h
      rw [readElement] at h
      split at h
      · cases h
      · rename_i q rest₁ hname
        have hs₁ := readQName_suffix hname
        split at h
        · cases h
        · rename_i as rest₂ has
          cases h
          refine .one ((readAttrs_suffix has).trans hs₁) fun _ => ?_
          rw [NoReturn, NoReturnList]
          trivial
        · rename_i as rest₂ has
          have hs₂ := (readAttrs_suffix has).trans hs₁
          split at h
          · rename_i cs rest₃ hcontent
            have hcs := (ihContent _ _ _ hcontent).of_suffix hs₂
            split at h
            · rename_i q' rest₄ hend
              split at h
              · rename_i rest₅ hgt
                split at h
                · cases h
                  have hs₅ := ((suffix_of_dropWhile hgt).trans (readQName_suffix hend)).trans
                    (List.suffix_append ['<', '/'] _)
                  refine .one (hs₅.trans hcs.1) fun hs => ?_
                  rw [NoReturn]
                  exact hcs.2 hs
                · cases h
              · cases h
            · cases h
          · cases h
    · intro s ts rest h
      unfold readContent at h
      split at h
      · cases h
        exact .nil (List.suffix_refl _)
      · cases h
        exact .nil (List.suffix_refl _)
      · split at h
        · cases h
        · rename_i t rest₁ hitem
          obtain ⟨⟨ts', rest₂⟩, hrest, heq⟩ := Option.map_eq_some_iff.mp h
          simp only [Prod.mk.injEq] at heq
          obtain ⟨rfl, rfl⟩ := heq
          obtain ⟨hsuffix, hall⟩ := (plainlyRead_item ihElement hitem).trans
            (ihContent _ _ _ hrest)
          refine ⟨hsuffix, fun hs => ?_⟩
          exact (noReturnList_consNode _ _).mpr (hall hs)

/-! ## Documents -/

theorem plainlyRead_misc {fuel : Nat} {s rest : Str} {ts : List Tree}
    (h : readMisc fuel s = some (ts, rest)) : PlainlyRead s ts rest := by
  induction fuel generalizing s ts with
  | zero => cases h
  | succ fuel ih =>
    have hspace : s.dropWhile isSpace <:+ s := List.dropWhile_suffix isSpace
    rw [readMisc] at h
    split at h
    · rename_i rest₁ hrest₁
      rw [hrest₁] at hspace
      split at h
      · cases h
      · rename_i t rest₂ hcomment
        obtain ⟨⟨ts', rest₃⟩, hrest, heq⟩ := Option.map_eq_some_iff.mp h
        simp only [Prod.mk.injEq] at heq
        obtain ⟨rfl, rfl⟩ := heq
        exact ((plainlyRead_comment hcomment).of_suffix
          ((List.suffix_append ['<', '!', '-', '-'] _).trans hspace)).trans (ih hrest)
    · rename_i rest₁ hrest₁
      rw [hrest₁] at hspace
      split at h
      · cases h
      · rename_i t rest₂ hpi
        obtain ⟨⟨ts', rest₃⟩, hrest, heq⟩ := Option.map_eq_some_iff.mp h
        simp only [Prod.mk.injEq] at heq
        obtain ⟨rfl, rfl⟩ := heq
        exact ((plainlyRead_pi hpi).of_suffix
          ((List.suffix_append ['<', '?'] _).trans hspace)).trans (ih hrest)
    · cases h
      exact .nil hspace

theorem skipXmlDecl_suffix {s rest : Str} (h : skipXmlDecl s = some rest) : rest <:+ s := by
  unfold skipXmlDecl at h
  split at h
  · rename_i c rest₁
    split at h
    · obtain ⟨⟨body, rest₂⟩, hbreak, rfl⟩ := Option.map_eq_some_iff.mp h
      exact (breakOn_eq_some hbreak).2.trans (List.suffix_append ['<', '?', 'x', 'm', 'l', c] _)
    · cases h
      exact List.suffix_refl _
  · cases h
    exact List.suffix_refl _

/-- After the normalization of line ends the text has no carriage return. -/
theorem cr_notMem_normalizeEol (s : Str) : '\r' ∉ normalizeEol s := by
  fun_induction normalizeEol s with
  | case1 s ih => simpa using ih
  | case2 s _ ih => simpa using ih
  | case3 c s _ hcr ih =>
    rw [List.mem_cons, not_or]
    exact ⟨fun heq => hcr heq.symm, ih⟩
  | case4 => exact List.not_mem_nil

/-- No comment and no processing instruction of a parsed document has a carriage return. -/
theorem noReturn_of_parse {s : Str} {doc : Document} (h : parse s = some doc) :
    NoReturnList true doc.children := by
  unfold parse at h
  split at h
  · rename_i cs hcs
    split at h
    · cases h
      unfold readDocument at hcs
      split at hcs
      · cases hcs
      · rename_i s₁ hdecl
        split at hcs
        · rename_i before rest hbefore
          split at hcs
          · rename_i e rest₁ helement
            split at hcs
            · rename_i after hafter
              cases hcs
              have helem := ((plainly_read_aux _).1 _ _ _ helement).of_suffix
                (List.suffix_cons '<' rest)
              have hall := ((plainlyRead_misc hbefore).trans
                (helem.trans (plainlyRead_misc hafter))).of_suffix (skipXmlDecl_suffix hdecl)
              exact hall.2 (cr_notMem_normalizeEol s)
            · cases hcs
          · cases hcs
        · cases hcs
    · cases h
  · cases h

end Xml
