import Mathlib.Data.List.TakeWhile
import Asx.Xml.RoundTrip

/-!
# The tags of a document

A scanner that only wants the tags of a text need not read it: it can jump over comments, CDATA
sections and processing instructions, and over quoted values inside a tag. `Scan` says what such
a scanner finds, and `TagsOf` how the tags nest in a tree. On a text that can be read the two
agree: the tags found are those of the elements of the document.

## Main results
- `readAttrs_scanTag`: the attributes of a start tag are its unquoted `=`
- `readsTags_aux`: the tags of an element and of content
- `exists_scan_of_parse`: the tags of a document
-/

namespace Xml

/-- A tag, with the number of attributes it has. -/
inductive Tag where
  | start (attributes : Nat)
  | empty (attributes : Nat)
  | close
deriving DecidableEq, Repr

/-! ## Scanning -/

/-- The walk over a start tag to its unquoted `>`: the number of unquoted `=`, whether the
    character before the `>` is a `/`, and what follows. -/
def scanTag (prev : Char) (quote : Option Char) (attributes : Nat) : Str → Nat × Bool × Str
  | [] => (attributes, false, [])
  | c :: s =>
    match quote with
    | some q => scanTag c (if c = q then none else quote) attributes s
    | none =>
      if c = '"' ∨ c = '\'' then scanTag c (some c) attributes s
      else if c = '=' then scanTag c none (attributes + 1) s
      else if c = '>' then (attributes, prev = '/', s)
      else scanTag c none attributes s

/-- The tag that such a walk has found. -/
def Tag.ofScan (attributes : Nat) (selfClosing : Bool) : Tag :=
  if selfClosing then .empty attributes else .start attributes

/-- What a scanner finds in a text. -/
inductive Scan : Str → List Tag → Prop
  | nil : Scan [] []
  | char {c : Char} {s : Str} {tags : List Tag} (hc : c ≠ '<') (hs : Scan s tags) :
      Scan (c :: s) tags
  | comment {s body rest : Str} {tags : List Tag}
      (hb : breakOn ['-', '-', '>'] s = some (body, rest)) (hs : Scan rest tags) :
      Scan ('<' :: '!' :: '-' :: '-' :: s) tags
  | cdata {s body rest : Str} {tags : List Tag}
      (hb : breakOn [']', ']', '>'] s = some (body, rest)) (hs : Scan rest tags) :
      Scan ('<' :: '!' :: '[' :: 'C' :: 'D' :: 'A' :: 'T' :: 'A' :: '[' :: s) tags
  | pi {s body rest : Str} {tags : List Tag}
      (hb : breakOn ['?', '>'] s = some (body, rest)) (hs : Scan rest tags) :
      Scan ('<' :: '?' :: s) tags
  | close {s body rest : Str} {tags : List Tag} (hb : breakOn ['>'] s = some (body, rest))
      (hs : Scan rest tags) : Scan ('<' :: '/' :: s) (.close :: tags)
  | start {s rest : Str} {attributes : Nat} {selfClosing : Bool} {tags : List Tag}
      (hn : s.head?.any isNameStart = true)
      (ht : scanTag '<' none 0 s = (attributes, selfClosing, rest)) (hs : Scan rest tags) :
      Scan ('<' :: s) (.ofScan attributes selfClosing :: tags)

/-- Text without `<` has no tags. -/
theorem Scan.append_of_notMem {w s : Str} {tags : List Tag} (hw : '<' ∉ w) (hs : Scan s tags) :
    Scan (w ++ s) tags := by
  induction w with
  | nil => exact hs
  | cons c w ih =>
    rw [List.mem_cons, not_or] at hw
    exact .char (Ne.symm hw.1) (ih hw.2)

/-! ## The tags of a tree -/

/-- How tags nest: a start tag and an end tag around those of the content, or the tag of an
    element without content. The attributes are those of the tag as it is written. -/
inductive TagsOf : List Tree → List Tag → Prop
  | nil : TagsOf [] []
  | text {s : Str} {ts : List Tree} {tags : List Tag} (h : TagsOf ts tags) :
      TagsOf (.text s :: ts) tags
  | comment {s : Str} {ts : List Tree} {tags : List Tag} (h : TagsOf ts tags) :
      TagsOf (.comment s :: ts) tags
  | pi {target : Str} {data : Option Str} {ts : List Tree} {tags : List Tag} (h : TagsOf ts tags) :
      TagsOf (.pi target data :: ts) tags
  | empty {q : QName} {as : List Attr} {ts : List Tree} {tags : List Tag} (h : TagsOf ts tags) :
      TagsOf (.element q (declsOf as) (attrsOf as) [] :: ts) (.empty as.length :: tags)
  | element {q : QName} {as : List Attr} {cs ts : List Tree} {inner tags : List Tag}
      (hcs : TagsOf cs inner) (h : TagsOf ts tags) :
      TagsOf (.element q (declsOf as) (attrsOf as) cs :: ts)
        (.start as.length :: (inner ++ .close :: tags))

/-- The tags of two lists of trees follow each other. -/
theorem TagsOf.append {ts us : List Tree} {tags more : List Tag} (h : TagsOf ts tags)
    (h' : TagsOf us more) : TagsOf (ts ++ us) (tags ++ more) := by
  induction h with
  | nil => exact h'
  | text _ ih => exact .text ih
  | comment _ ih => exact .comment ih
  | pi _ ih => exact .pi ih
  | empty _ ih => exact .empty ih
  | element hcs _ _ ih =>
    rw [List.cons_append, List.cons_append, List.append_assoc]
    exact .element hcs ih

/-- The text that is absorbed has no tags. -/
theorem TagsOf.consNode {t : Tree} {ts : List Tree} {tags more : List Tag} (h : TagsOf [t] tags)
    (h' : TagsOf ts more) : TagsOf (consNode t ts) (tags ++ more) := by
  unfold Xml.consNode
  split
  · cases h with
    | text h =>
      cases h
      cases h' with
      | text h' => exact .text h'
  · cases h with
    | text h =>
      cases h
      exact h'
  · exact h.append h'

/-! ## Jumps -/

theorem breakOn_append_of_notMem {d : Char} {delim w s : Str} (hw : d ∉ w) :
    breakOn (d :: delim) (w ++ s) = (breakOn (d :: delim) s).map fun r => (w ++ r.1, r.2) := by
  induction w with
  | nil => simp
  | cons c w ih =>
    rw [List.mem_cons, not_or] at hw
    have hpre : (d :: delim).isPrefixOf (c :: (w ++ s)) = false := by
      simp [List.isPrefixOf, hw.1]
    rw [List.cons_append, breakOn, hpre, ih hw.2]
    simp [Function.comp_def]

/-- The first `--` of a comment is the one that ends it. -/
theorem breakOn_comment {s body rest : Str} (h : breakOn ['-', '-'] s = some (body, '>' :: rest)) :
    breakOn ['-', '-', '>'] s = some (body, rest) := by
  induction s generalizing body with
  | nil => cases h
  | cons c s ih =>
    rw [breakOn] at h ⊢
    split at h
    · rename_i hpre
      simp only [Option.some.injEq, Prod.mk.injEq] at h
      obtain ⟨rfl, hdrop⟩ := h
      obtain ⟨s', hs'⟩ := List.isPrefixOf_iff_prefix.mp hpre
      rw [← hs'] at hdrop ⊢
      have hs'' : s' = '>' :: rest := by simpa using hdrop
      subst hs''
      simp [List.isPrefixOf]
    · rename_i hpre
      obtain ⟨⟨body', rest'⟩, hs, heq⟩ := Option.map_eq_some_iff.mp h
      simp only [Prod.mk.injEq] at heq
      obtain ⟨rfl, rfl⟩ := heq
      -- a longer delimiter does not occur earlier
      have hpre' : ['-', '-', '>'].isPrefixOf (c :: s) = false := by
        rw [Bool.eq_false_iff]
        intro hp
        apply hpre
        rw [List.isPrefixOf_iff_prefix] at hp ⊢
        exact List.IsPrefix.trans ⟨['>'], rfl⟩ hp
      rw [hpre', ih hs]
      rfl

/-! ## Names -/

/-- A name that is read stands at the front and holds name characters only. -/
theorem readNCName_eq_some {s n rest : Str} (h : readNCName s = some (n, rest)) :
    s = n ++ rest ∧ (∀ c ∈ n, isNameChar c = true) ∧ s.head?.any isNameStart = true := by
  unfold readNCName at h
  split at h
  · rename_i hn
    simp only [Option.some.injEq, Prod.mk.injEq] at h
    obtain ⟨rfl, rfl⟩ := h
    refine ⟨(List.takeWhile_append_dropWhile).symm, isNameChar_of_isNCName hn, ?_⟩
    cases s with
    | nil => cases hn
    | cons c s =>
      by_cases hc : isNameChar c = true
      · rw [List.takeWhile_cons_of_pos hc, isNCName, Bool.and_eq_true] at hn
        exact hn.1
      · rw [List.takeWhile_cons_of_neg hc] at hn
        cases hn
  · cases h

/-- The characters of a name. -/
def IsQNameChar (c : Char) : Prop := isNameChar c = true ∨ c = ':'

/-- So does a qualified name. -/
theorem readQName_eq_some {s rest : Str} {q : QName} (h : readQName s = some (q, rest)) :
    s.head?.any isNameStart = true ∧ ∃ w, s = w ++ rest ∧ ∀ c ∈ w, IsQNameChar c := by
  unfold readQName at h
  split at h
  · cases h
  · rename_i pre rest' hpre
    obtain ⟨⟨loc, rest''⟩, hloc, heq⟩ := Option.map_eq_some_iff.mp h
    simp only [Prod.mk.injEq] at heq
    obtain ⟨rfl, rfl⟩ := heq
    obtain ⟨hs, hchars, hstart⟩ := readNCName_eq_some hpre
    obtain ⟨rfl, hchars', -⟩ := readNCName_eq_some hloc
    refine ⟨hstart, pre ++ ':' :: loc, by simp [hs], fun c hc => ?_⟩
    rcases List.mem_append.mp hc with hc | hc
    · exact .inl (hchars c hc)
    · rcases List.mem_cons.mp hc with rfl | hc
      · exact .inr rfl
      · exact .inl (hchars' c hc)
  · rename_i hloc
    simp only [Option.some.injEq, Prod.mk.injEq] at h
    obtain ⟨rfl, rfl⟩ := h
    obtain ⟨hs, hchars, hstart⟩ := readNCName_eq_some hloc
    exact ⟨hstart, _, hs, fun c hc => .inl (hchars c hc)⟩

/-- The characters that a walk over a start tag takes notice of. -/
def tagDelimiters : List Char := ['"', '\'', '=', '>', '/', '<', '?']

/-- No character of a name means anything inside a tag. -/
theorem IsQNameChar.notMem {c : Char} (h : IsQNameChar c) : c ∉ tagDelimiters := by
  intro hmem
  simp only [tagDelimiters, List.mem_cons, List.not_mem_nil, or_false] at hmem
  rcases h with h | rfl
  · rcases hmem with rfl | rfl | rfl | rfl | rfl | rfl | rfl
    all_goals revert h; decide
  · revert hmem
    decide

theorem isSpace_notMem {c : Char} (h : isSpace c = true) : c ∉ tagDelimiters := by
  simp only [isSpace, Bool.or_eq_true, beq_iff_eq] at h
  rcases h with ((rfl | rfl) | rfl) | rfl
  all_goals decide

/-! ## Start tags -/

/-- The walk goes over other characters. -/
theorem scanTag_append {prev : Char} {n : Nat} {w s : Str} (hprev : prev ≠ '/')
    (hw : ∀ c ∈ w, c ∉ tagDelimiters) :
    ∃ p, p ≠ '/' ∧ scanTag prev none n (w ++ s) = scanTag p none n s := by
  induction w generalizing prev with
  | nil => exact ⟨prev, hprev, rfl⟩
  | cons c w ih =>
    have hc := hw c List.mem_cons_self
    simp only [tagDelimiters, List.mem_cons, List.not_mem_nil, or_false, not_or] at hc
    obtain ⟨hdq, hsq, heq, hgt, hslash, -⟩ := hc
    obtain ⟨p, hp, hscan⟩ := ih hslash fun c hc => hw c (List.mem_cons_of_mem _ hc)
    refine ⟨p, hp, ?_⟩
    rw [List.cons_append, scanTag, ← hscan]
    simp [hdq, hsq, heq, hgt]

/-- The walk goes over white space. -/
theorem scanTag_dropWhile {prev : Char} {n : Nat} (s : Str) (hprev : prev ≠ '/') :
    ∃ p, p ≠ '/' ∧ scanTag prev none n s = scanTag p none n (s.dropWhile isSpace) := by
  have h := scanTag_append (n := n) (s := s.dropWhile isSpace) (w := s.takeWhile isSpace) hprev
    fun c hc => isSpace_notMem (List.mem_takeWhile_imp hc)
  rwa [List.takeWhile_append_dropWhile] at h

/-- The walk goes over a quoted value. -/
theorem scanTag_quoted {prev q : Char} {n : Nat} {w s : Str} (hw : q ∉ w) :
    scanTag prev (some q) n (w ++ q :: s) = scanTag q none n s := by
  induction w generalizing prev with
  | nil => simp [scanTag]
  | cons c w ih =>
    rw [List.mem_cons, not_or] at hw
    rw [List.cons_append, scanTag]
    simp only [Ne.symm hw.1, if_false]
    exact ih hw.2

/-- An attribute has one unquoted `=`. -/
theorem readAttr_scanTag {prev : Char} {n : Nat} {s rest : Str} {a : Attr} (hprev : prev ≠ '/')
    (h : readAttr s = some (a, rest)) :
    ∃ p, p ≠ '/' ∧ scanTag prev none n s = scanTag p none (n + 1) rest := by
  unfold readAttr at h
  split at h
  · cases h
  · rename_i name rest₁ hname
    obtain ⟨-, w, rfl, hw⟩ := readQName_eq_some hname
    obtain ⟨p₁, hp₁, hscan₁⟩ := scanTag_append (n := n) (s := rest₁) hprev
      fun c hc => (hw c hc).notMem
    obtain ⟨p₂, -, hscan₂⟩ := scanTag_dropWhile (n := n) rest₁ hp₁
    rw [hscan₁, hscan₂]
    split at h
    · rename_i rest₂ hrest₂
      obtain ⟨p₃, -, hscan₃⟩ := @scanTag_dropWhile '=' (n + 1) rest₂ (by decide)
      have heq : scanTag p₂ none n ('=' :: rest₂) = scanTag '=' none (n + 1) rest₂ := by
        simp [scanTag]
      rw [hrest₂, heq, hscan₃]
      split at h
      · rename_i quote rest₃ hrest₃
        split at h
        · rename_i hquote
          have hopen : scanTag p₃ none (n + 1) (quote :: rest₃) =
              scanTag quote (some quote) (n + 1) rest₃ := by
            simp [scanTag, hquote]
          rw [hrest₃, hopen]
          dsimp only at h
          split at h
          · rename_i c rest₄ hrest₄
            split at h
            · cases h
            · obtain ⟨v, -, heq⟩ := Option.map_eq_some_iff.mp h
              simp only [Prod.mk.injEq] at heq
              obtain ⟨-, rfl⟩ := heq
              have hc : c = quote := by
                have hstop := List.head?_dropWhile_not (fun x => decide (x ≠ quote)) rest₃
                rw [hrest₄] at hstop
                simpa using hstop
              subst hc
              refine ⟨c, ?_, ?_⟩
              · rintro rfl
                revert hquote
                decide
              · rw [← List.takeWhile_append_dropWhile (p := fun x => decide (x ≠ c)) (l := rest₃),
                  hrest₄]
                refine scanTag_quoted fun hmem => ?_
                simpa using List.mem_takeWhile_imp hmem
          · cases h
        · cases h
      · cases h
    · cases h

/-- The attributes of a start tag are its unquoted `=`. -/
theorem readAttrs_scanTag {fuel n : Nat} {prev : Char} {s rest : Str} {as : List Attr}
    {selfClosing : Bool} (hprev : prev ≠ '/')
    (h : readAttrs fuel s = some (as, selfClosing, rest)) :
    scanTag prev none n s = (n + as.length, selfClosing, rest) := by
  induction fuel generalizing n prev s as with
  | zero => cases h
  | succ fuel ih =>
    obtain ⟨p, hp, hscan⟩ := scanTag_dropWhile (n := n) s hprev
    rw [hscan]
    rw [readAttrs] at h
    split at h
    · rename_i rest' hrest
      simp only [Option.some.injEq, Prod.mk.injEq] at h
      obtain ⟨rfl, rfl, rfl⟩ := h
      simp [hrest, scanTag, hp]
    · rename_i rest' hrest
      simp only [Option.some.injEq, Prod.mk.injEq] at h
      obtain ⟨rfl, rfl, rfl⟩ := h
      simp [hrest, scanTag]
    · split at h
      · split at h
        · cases h
        · rename_i a rest' hattr
          obtain ⟨⟨as', sc, rest''⟩, hrest, heq⟩ := Option.map_eq_some_iff.mp h
          simp only [Prod.mk.injEq] at heq
          obtain ⟨rfl, rfl, rfl⟩ := heq
          obtain ⟨p', hp', hscan'⟩ := readAttr_scanTag (n := n) hp hattr
          rw [hscan', ih hp' hrest]
          simp only [List.length_cons, Prod.mk.injEq, and_true]
          omega
      · cases h

/-! ## Content -/

/-- The tags of what a reader has read: those of the tree, and then those of the rest. -/
def ReadsTags (s : Str) (ts : List Tree) (rest : Str) : Prop :=
  ∃ tags, TagsOf ts tags ∧ ∀ more, Scan rest more → Scan s (tags ++ more)

/-- A comment that is read is skipped by the scan. -/
theorem readsTags_comment {s rest : Str} {t : Tree} (h : readComment s = some (t, rest)) :
    ReadsTags ('<' :: '!' :: '-' :: '-' :: s) [t] rest := by
  unfold readComment at h
  split at h
  · rename_i body rest' hbreak
    simp only [Option.some.injEq, Prod.mk.injEq] at h
    obtain ⟨rfl, rfl⟩ := h
    exact ⟨[], .comment .nil, fun more hs => .comment (breakOn_comment hbreak) hs⟩
  · cases h

/-- A CDATA section that is read is skipped by the scan. -/
theorem readsTags_cdata {s rest : Str} {t : Tree} (h : readCdata s = some (t, rest)) :
    ReadsTags ('<' :: '!' :: '[' :: 'C' :: 'D' :: 'A' :: 'T' :: 'A' :: '[' :: s) [t] rest := by
  obtain ⟨⟨body, rest'⟩, hbreak, heq⟩ := Option.map_eq_some_iff.mp h
  simp only [Prod.mk.injEq] at heq
  obtain ⟨rfl, rfl⟩ := heq
  exact ⟨[], .text .nil, fun more hs => .cdata hbreak hs⟩

/-- A processing instruction that is read is skipped by the scan. -/
theorem readsTags_pi {s rest : Str} {t : Tree} (h : readPi s = some (t, rest)) :
    ReadsTags ('<' :: '?' :: s) [t] rest := by
  unfold readPi at h
  split at h
  · cases h
  · rename_i target rest₁ hname
    obtain ⟨rfl, hchars, -⟩ := readNCName_eq_some hname
    have hnot : '?' ∉ target := by
      intro hmem
      exact (IsQNameChar.notMem (.inl (hchars _ hmem))) (by decide)
    split at h
    · cases h
    · rename_i body rest₂ hbreak
      -- the target has no `?`, so the jump ends where the reader does
      have hjump : breakOn ['?', '>'] (target ++ rest₁) = some (target ++ body, rest₂) := by
        rw [breakOn_append_of_notMem hnot, hbreak]
        rfl
      split at h
      · cases h
        exact ⟨[], .pi .nil, fun more hs => .pi hjump hs⟩
      · split at h
        · cases h
          exact ⟨[], .pi .nil, fun more hs => .pi hjump hs⟩
        · cases h

/-- A text that is read is skipped by the scan. -/
theorem readsTags_text {s rest : Str} {t : Tree} (h : readText s = some (t, rest)) :
    ReadsTags s [t] rest := by
  unfold readText at h
  dsimp only at h
  split at h
  · cases h
  · obtain ⟨v, -, heq⟩ := Option.map_eq_some_iff.mp h
    simp only [Prod.mk.injEq] at heq
    obtain ⟨rfl, rfl⟩ := heq
    refine ⟨[], .text .nil, fun more hs => ?_⟩
    rw [← List.takeWhile_append_dropWhile (p := fun c => decide (c ≠ '<')) (l := s)]
    refine Scan.append_of_notMem (fun hmem => ?_) hs
    simpa using List.mem_takeWhile_imp hmem

/-- An item is scanned as it is read, when elements are. -/
theorem readsTags_item {element : Str → Option (Tree × Str)} {s rest : Str} {t : Tree}
    (helement : ∀ s t rest, element s = some (t, rest) → ReadsTags ('<' :: s) [t] rest)
    (h : readItem element s = some (t, rest)) : ReadsTags s [t] rest := by
  unfold readItem at h
  split at h
  · exact readsTags_comment h
  · exact readsTags_cdata h
  · exact readsTags_pi h
  · exact helement _ _ _ h
  · exact readsTags_text h

/-- The end tag that matches. -/
theorem scan_endTag {s rest rest' : Str} {q : QName} {tags : List Tag}
    (h : readQName s = some (q, rest)) (hgt : rest.dropWhile isSpace = '>' :: rest')
    (hs : Scan rest' tags) : Scan ('<' :: '/' :: s) (.close :: tags) := by
  obtain ⟨-, w, rfl, hw⟩ := readQName_eq_some h
  refine @Scan.close _ (w ++ rest.takeWhile isSpace) _ _ ?_ hs
  have hnot : '>' ∉ w ++ rest.takeWhile isSpace := by
    intro hmem
    rcases List.mem_append.mp hmem with hmem | hmem
    · exact (hw _ hmem).notMem (by decide)
    · exact isSpace_notMem (List.mem_takeWhile_imp hmem) (by decide)
  have hsplit : w ++ rest = (w ++ rest.takeWhile isSpace) ++ '>' :: rest' := by
    rw [List.append_assoc, ← hgt, List.takeWhile_append_dropWhile]
  rw [hsplit, breakOn_append_of_notMem hnot]
  simp [breakOn]

/-- The start tag of an element. -/
theorem scan_startTag {fuel : Nat} {s rest rest' : Str} {q : QName} {as : List Attr}
    {selfClosing : Bool} {tags : List Tag} (hname : readQName s = some (q, rest))
    (has : readAttrs fuel rest = some (as, selfClosing, rest')) (hs : Scan rest' tags) :
    Scan ('<' :: s) (.ofScan as.length selfClosing :: tags) := by
  obtain ⟨hstart, w, rfl, hw⟩ := readQName_eq_some hname
  refine .start hstart ?_ hs
  obtain ⟨p, hp, hscan⟩ := @scanTag_append '<' 0 w rest (by decide)
    fun c hc => (hw c hc).notMem
  rw [hscan, readAttrs_scanTag hp has, Nat.zero_add]

/-- The tags of an element, and of content: the reader and the scanner go on at the same place.
    The induction is on the reader's fuel, which both of its functions share. -/
theorem readsTags_aux (fuel : Nat) :
    (∀ s t rest, readElement fuel s = some (t, rest) → ReadsTags ('<' :: s) [t] rest) ∧
    (∀ s ts rest, readContent fuel s = some (ts, rest) → ReadsTags s ts rest) := by
  induction fuel with
  | zero =>
    refine ⟨fun s t rest h => ?_, fun s ts rest h => ?_⟩
    · cases h
    · cases h
  | succ fuel ih =>
    obtain ⟨ihElement, ihContent⟩ := ih
    constructor
    · intro s t rest h
      rw [readElement] at h
      split at h
      · cases h
      · rename_i q rest₁ hname
        split at h
        · cases h
        · rename_i as rest₂ has
          cases h
          exact ⟨[.empty as.length], .empty .nil, fun more hs => scan_startTag hname has hs⟩
        · rename_i as rest₂ has
          split at h
          · rename_i cs rest₃ hcontent
            split at h
            · rename_i q' rest₄ hend
              split at h
              · rename_i rest₅ hgt
                split at h
                · cases h
                  obtain ⟨inner, hinner, hscan⟩ := ihContent _ _ _ hcontent
                  refine ⟨_, .element hinner .nil, fun more hs => ?_⟩
                  have hclose := hscan _ (scan_endTag hend hgt hs)
                  have hstart := scan_startTag hname has hclose
                  simpa [Tag.ofScan] using hstart
                · cases h
              · cases h
            · cases h
          · cases h
    · intro s ts rest h
      unfold readContent at h
      split at h
      · cases h
        exact ⟨[], .nil, fun more hs => hs⟩
      · cases h
        exact ⟨[], .nil, fun more hs => hs⟩
      · split at h
        · cases h
        · rename_i t rest₁ hitem
          obtain ⟨⟨ts', rest₂⟩, hrest, heq⟩ := Option.map_eq_some_iff.mp h
          simp only [Prod.mk.injEq] at heq
          obtain ⟨rfl, rfl⟩ := heq
          obtain ⟨tags, htags, hscan⟩ := readsTags_item ihElement hitem
          obtain ⟨tags', htags', hscan'⟩ := ihContent _ _ _ hrest
          refine ⟨tags ++ tags', htags.consNode htags', fun more hs => ?_⟩
          rw [List.append_assoc]
          exact hscan _ (hscan' _ hs)

/-! ## Documents -/

/-- What is read in two steps is scanned in two. -/
theorem ReadsTags.trans {s rest rest' : Str} {ts us : List Tree} (h : ReadsTags s ts rest)
    (h' : ReadsTags rest us rest') : ReadsTags s (ts ++ us) rest' := by
  obtain ⟨tags, htags, hscan⟩ := h
  obtain ⟨tags', htags', hscan'⟩ := h'
  refine ⟨tags ++ tags', htags.append htags', fun more hs => ?_⟩
  rw [List.append_assoc]
  exact hscan _ (hscan' _ hs)

theorem readsTags_space {s rest : Str} {ts : List Tree}
    (h : ReadsTags (s.dropWhile isSpace) ts rest) : ReadsTags s ts rest := by
  obtain ⟨tags, htags, hscan⟩ := h
  refine ⟨tags, htags, fun more hs => ?_⟩
  rw [← List.takeWhile_append_dropWhile (p := isSpace) (l := s)]
  refine Scan.append_of_notMem (fun hmem => ?_) (hscan more hs)
  exact isSpace_notMem (List.mem_takeWhile_imp hmem) (by decide)

/-- What stands around the root element has no tags. -/
theorem readsTags_misc {fuel : Nat} {s rest : Str} {ts : List Tree}
    (h : readMisc fuel s = some (ts, rest)) : ReadsTags s ts rest := by
  induction fuel generalizing s ts with
  | zero => cases h
  | succ fuel ih =>
    refine readsTags_space ?_
    rw [readMisc] at h
    split at h
    · rename_i rest₁ hrest₁
      rw [hrest₁]
      split at h
      · cases h
      · rename_i t rest₂ hcomment
        obtain ⟨⟨ts', rest₃⟩, hrest, heq⟩ := Option.map_eq_some_iff.mp h
        simp only [Prod.mk.injEq] at heq
        obtain ⟨rfl, rfl⟩ := heq
        exact (readsTags_comment hcomment).trans (ih hrest)
    · rename_i rest₁ hrest₁
      rw [hrest₁]
      split at h
      · cases h
      · rename_i t rest₂ hpi
        obtain ⟨⟨ts', rest₃⟩, hrest, heq⟩ := Option.map_eq_some_iff.mp h
        simp only [Prod.mk.injEq] at heq
        obtain ⟨rfl, rfl⟩ := heq
        exact (readsTags_pi hpi).trans (ih hrest)
    · cases h
      exact ⟨[], .nil, fun more hs => hs⟩

/-- Nor has the XML declaration. -/
theorem readsTags_xmlDecl {s rest : Str} (h : skipXmlDecl s = some rest) :
    ReadsTags s [] rest := by
  unfold skipXmlDecl at h
  split at h
  · rename_i c rest₁
    split at h
    · rename_i hspace
      obtain ⟨⟨body, rest₂⟩, hbreak, rfl⟩ := Option.map_eq_some_iff.mp h
      refine ⟨[], .nil, fun more hs => @Scan.pi _ (['x', 'm', 'l', c] ++ body) _ _ ?_ hs⟩
      have hnot : '?' ∉ ['x', 'm', 'l', c] := by
        have hc : c ≠ '?' := by
          rintro rfl
          exact absurd hspace (by decide)
        simp [Ne.symm hc]
      have hbreak' := @breakOn_append_of_notMem '?' ['>'] _ rest₁ hnot
      rw [hbreak] at hbreak'
      exact hbreak'
    · cases h
      exact ⟨[], .nil, fun more hs => hs⟩
  · cases h
    exact ⟨[], .nil, fun more hs => hs⟩

/-- The tags that a scanner finds in a text that can be read are those of the document. -/
theorem exists_scan_of_parse {s : Str} {doc : Document} (h : parse s = some doc) :
    ∃ tags, TagsOf doc.children tags ∧ Scan (normalizeEol s) tags := by
  unfold parse at h
  split at h
  · rename_i cs hcs
    split at h
    · cases h
      unfold readDocument at hcs
      split at hcs
      · cases hcs
      · rename_i s₁ hdecl
        split at hcs
        · rename_i before rest hbefore
          split at hcs
          · rename_i e rest₁ helement
            split at hcs
            · rename_i after hafter
              cases hcs
              have hall := ((readsTags_xmlDecl hdecl).trans (readsTags_misc hbefore)).trans
                (((readsTags_aux _).1 _ _ _ helement).trans (readsTags_misc hafter))
              obtain ⟨tags, htags, hscan⟩ := hall
              refine ⟨tags, by simpa using htags, ?_⟩
              simpa using hscan [] .nil
            · cases hcs
          · cases hcs
        · cases hcs
    · cases h
  · cases h

end Xml
