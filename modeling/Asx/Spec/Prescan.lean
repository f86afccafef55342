import Asx.Native.XmlParse
import Asx.Spec.C14nDocument
import Asx.Xml.Nodes
import Asx.Xml.Tags

/-!
# The scan before the parser

`prescan` runs over the bytes of a text and bounds what its tags open and carry. Here it is
compared with the document that the text has. The scan finds the tags of the document, so it
counts the attributes of every start tag and the depth of every element, except that it never
checks the depth of an element that closes itself: such an element may stand one level below
the limit, and one level below what the C14N serializer takes.

## Main results
- `prescanLoop_eq_checkTags`: what `prescan` does with the tags of a text
- `prescan_eq_ok_iff`: which documents it accepts
- `limits_agree_iff`: when the limits agree with the document and with the C14N serializer
-/

namespace Asx

open Xml

/-! ## Bytes and characters

The reader sees the text after line ends are normalized, the scan sees its bytes. Every
character of the one stands for a block of bytes of the other: an ASCII character other than a
line feed for its own byte, any other character for bytes that mean nothing to the scan. -/

/-- A character that is one byte of its own. -/
def Exact (c : Char) : Prop := c.toNat < 128 ∧ c ≠ '\n' ∧ c ≠ '\r'

instance (c : Char) : Decidable (Exact c) := inferInstanceAs (Decidable (_ ∧ _))

theorem exact_of_all {s : Str} (h : s.all (fun c => decide (Exact c)) = true) :
    ∀ c ∈ s, Exact c := by
  intro c hc
  exact of_decide_eq_true (List.all_eq_true.mp h c hc)

/-- A byte that is no markup. -/
def Inert (b : UInt8) : Prop := 128 ≤ b.toNat ∨ b = 10 ∨ b = 13

/-- The bytes that a character stands for. -/
def Block (c : Char) (bs : Bytes) : Prop :=
  if Exact c then bs = [byte c] else bs ≠ [] ∧ ∀ b ∈ bs, Inert b

/-- The bytes that a text stands for. -/
inductive Expands : Str → Bytes → Prop
  | nil : Expands [] []
  | cons {c : Char} {bs b : Bytes} {s : Str} (hc : Block c bs) (hs : Expands s b) :
      Expands (c :: s) (bs ++ b)

theorem byte_toNat {c : Char} (h : c.toNat < 128) : (byte c).toNat = c.toNat := by
  simp only [byte, UInt8.toNat_ofNat']
  omega

/-- Characters that are bytes of their own are told apart by them. -/
theorem byte_inj {c d : Char} (hc : Exact c) (hd : Exact d) (h : byte c = byte d) : c = d := by
  have hnat : c.toNat = d.toNat := by rw [← byte_toNat hc.1, ← byte_toNat hd.1, h]
  exact Char.toNat_inj.mp hnat

/-- The byte of such a character may be markup; the others never are. -/
theorem not_inert_byte {c : Char} (hc : Exact c) : ¬ Inert (byte c) := by
  have hnat := byte_toNat hc.1
  rintro (h | h | h)
  · have := hc.1
    omega
  · rw [h] at hnat
    exact hc.2.1 (Char.toNat_inj.mp hnat.symm)
  · rw [h] at hnat
    exact hc.2.2 (Char.toNat_inj.mp hnat.symm)

/-- The bytes of a character that is not ASCII are not ASCII either. -/
theorem le_of_mem_utf8EncodeChar {c : Char} (hc : 128 ≤ c.toNat) :
    ∀ b ∈ String.utf8EncodeChar c, 128 ≤ b.toNat := by
  intro b hb
  unfold String.utf8EncodeChar at hb
  rw [show c.val.toNat = c.toNat from rfl] at hb
  generalize c.toNat = n at hc hb
  dsimp only at hb
  rw [if_neg (by omega)] at hb
  split at hb
  · simp only [List.mem_cons, List.not_mem_nil, or_false] at hb
    rcases hb with rfl | rfl <;> simp only [UInt8.toNat_ofNat'] <;> omega
  · split at hb
    · simp only [List.mem_cons, List.not_mem_nil, or_false] at hb
      rcases hb with rfl | rfl | rfl <;> simp only [UInt8.toNat_ofNat'] <;> omega
    · simp only [List.mem_cons, List.not_mem_nil, or_false] at hb
      rcases hb with rfl | rfl | rfl | rfl <;> simp only [UInt8.toNat_ofNat'] <;> omega

theorem utf8EncodeChar_ascii {c : Char} (hc : c.toNat < 128) :
    String.utf8EncodeChar c = [byte c] := by
  unfold String.utf8EncodeChar
  rw [show c.val.toNat = c.toNat from rfl]
  dsimp only
  rw [if_pos (by omega)]
  rfl

/-- A character stands for its UTF-8 bytes. -/
theorem block_utf8 (c : Char) : Block c (String.utf8EncodeChar c) := by
  unfold Block
  split
  · rename_i hexact
    exact utf8EncodeChar_ascii hexact.1
  · rename_i hexact
    refine ⟨String.utf8EncodeChar_ne_nil, fun b hb => ?_⟩
    by_cases hc : c.toNat < 128
    · rw [utf8EncodeChar_ascii hc, List.mem_singleton] at hb
      subst hb
      have hend : c = '\n' ∨ c = '\r' := by
        by_contra hnot
        exact hexact ⟨hc, fun h => hnot (.inl h), fun h => hnot (.inr h)⟩
      rcases hend with rfl | rfl
      · exact .inr (.inl rfl)
      · exact .inr (.inr rfl)
    · exact .inl (le_of_mem_utf8EncodeChar (by omega) b hb)

/-- A line feed stands for any line end of the source. -/
theorem block_lineEnd {bs : Bytes} (hne : bs ≠ []) (h : ∀ b ∈ bs, b = 10 ∨ b = 13) :
    Block '\n' bs := by
  rw [Block, if_neg (by decide)]
  exact ⟨hne, fun b hb => .inr (h b hb)⟩

/-- The normalized text stands for the bytes of the text. -/
theorem expands_utf8 (s : Str) : Expands (normalizeEol s) (Str.utf8 s) := by
  induction s using normalizeEol.induct with
  | case1 s ih =>
    have hblock : Block '\n' [13, 10] := block_lineEnd (by simp) (by simp)
    have hbytes : Str.utf8 ('\r' :: '\n' :: s) = [13, 10] ++ Str.utf8 s := rfl
    rw [hbytes]
    exact .cons hblock ih
  | case2 s hs ih =>
    have hblock : Block '\n' [13] := block_lineEnd (by simp) (by simp)
    have heq : normalizeEol ('\r' :: s) = '\n' :: normalizeEol s := by
      rw [normalizeEol]
      exact hs
    rw [heq]
    exact .cons hblock ih
  | case3 c s h₁ h₂ ih =>
    have heq : normalizeEol (c :: s) = c :: normalizeEol s := by
      rw [normalizeEol]
      · exact h₁
      · exact h₂
    rw [heq]
    exact .cons (block_utf8 c) ih
  | case4 => exact .nil

/-! ## The jumps of the scan -/

/-- A character that is a byte of its own is the first of the bytes. -/
theorem Expands.cons_exact {c : Char} {s : Str} {b : Bytes} (hc : Exact c)
    (h : Expands (c :: s) b) : ∃ b', b = byte c :: b' ∧ Expands s b' := by
  cases h with
  | cons hblock hs =>
    rw [Block, if_pos hc] at hblock
    subst hblock
    exact ⟨_, rfl, hs⟩

/-- A block has no byte of another character. -/
theorem Block.ne_byte {c d : Char} {bs : Bytes} (h : Block c bs) (hd : Exact d) (hne : c ≠ d) :
    ∀ b ∈ bs, b ≠ byte d := by
  unfold Block at h
  split at h
  · rename_i hc
    subst h
    intro b hb heq
    rw [List.mem_singleton] at hb
    exact hne (byte_inj hc hd (hb ▸ heq))
  · rintro b hb rfl
    exact not_inert_byte hd (h.2 _ hb)

theorem Block.ne_nil {c : Char} {bs : Bytes} (h : Block c bs) : bs ≠ [] := by
  unfold Block at h
  split at h
  · simp [h]
  · exact h.1

/-- A marker of such characters is found in the bytes where it is in the text, and the rest behind
    it stands for the rest. -/
theorem Expands.isPrefixOf {needle s : Str} {b : Bytes} (hn : ∀ c ∈ needle, Exact c)
    (h : Expands s b) :
    (needle.map byte).isPrefixOf b = needle.isPrefixOf s ∧
      (needle.isPrefixOf s = true → Expands (s.drop needle.length) (b.drop needle.length)) := by
  induction needle generalizing s b with
  | nil => simpa using h
  | cons d needle ih =>
    have hd := hn d List.mem_cons_self
    cases h with
    | nil => simp
    | @cons c bs b s hc hs =>
      by_cases hcd : c = d
      · subst hcd
        rw [Block, if_pos hd] at hc
        subst hc
        have := ih (fun c hc => hn c (List.mem_cons_of_mem _ hc)) hs
        simpa using this
      · obtain ⟨x, bs', rfl⟩ := List.exists_cons_of_ne_nil hc.ne_nil
        have hx := hc.ne_byte hd hcd x List.mem_cons_self
        have hbyte : (byte d == x) = false := beq_false_of_ne (Ne.symm hx)
        have hchar : (d == c) = false := beq_false_of_ne (Ne.symm hcd)
        simp [List.isPrefixOf, hbyte, hchar]

/-- A search skips bytes that cannot begin what it looks for. -/
theorem skipTo_append {x : UInt8} {needle bs b : Bytes} (h : ∀ y ∈ bs, y ≠ x) :
    skipTo (x :: needle) (bs ++ b) = skipTo (x :: needle) b := by
  induction bs with
  | nil => rfl
  | cons y bs ih =>
    have hxy : (x == y) = false := beq_false_of_ne (Ne.symm (h y List.mem_cons_self))
    have hpre : (x :: needle).isPrefixOf (y :: (bs ++ b)) = false := by
      simp [List.isPrefixOf, hxy]
    rw [List.cons_append, skipTo, hpre]
    exact ih fun y hy => h y (List.mem_cons_of_mem _ hy)

/-- Where the scan jumps to is where the reader goes on. -/
theorem Expands.skipTo {d : Char} {needle s body rest : Str} {b : Bytes}
    (hn : ∀ c ∈ d :: needle, Exact c) (h : Expands s b)
    (hbreak : breakOn (d :: needle) s = some (body, rest)) :
    Expands rest (skipTo ((d :: needle).map byte) b) := by
  induction h generalizing body with
  | nil => cases hbreak
  | @cons c bs b s hc hs ih =>
    have hpre := (Expands.cons hc hs).isPrefixOf hn
    rw [breakOn] at hbreak
    split at hbreak
    · rename_i hprefix
      simp only [Option.some.injEq, Prod.mk.injEq] at hbreak
      obtain ⟨-, rfl⟩ := hbreak
      obtain ⟨x, bs', rfl⟩ := List.exists_cons_of_ne_nil hc.ne_nil
      rw [List.cons_append, Asx.skipTo, ← List.cons_append, hpre.1, if_pos hprefix,
        List.length_map]
      exact hpre.2 hprefix
    · rename_i hprefix
      obtain ⟨⟨body', rest'⟩, hs', heq⟩ := Option.map_eq_some_iff.mp hbreak
      simp only [Prod.mk.injEq] at heq
      obtain ⟨-, rfl⟩ := heq
      -- no byte of the block starts the delimiter
      have hblock : Asx.skipTo ((d :: needle).map byte) (bs ++ b) =
          Asx.skipTo ((d :: needle).map byte) b := by
        by_cases hcd : c = d
        · subst hcd
          rw [Block, if_pos (hn c List.mem_cons_self)] at hc
          subst hc
          rw [List.singleton_append] at hpre ⊢
          rw [Asx.skipTo, hpre.1, if_neg hprefix]
        · exact skipTo_append (hc.ne_byte (hn d List.mem_cons_self) hcd)
      rw [hblock]
      exact ih hs'

theorem length_skipTo_le (needle b : Bytes) : (skipTo needle b).length ≤ b.length := by
  induction b with
  | nil => exact Nat.le_refl 0
  | cons x b ih =>
    rw [skipTo]
    split
    · simp
    · exact ih.trans (by simp)

/-! ## Start tags -/

theorem byte_eq_iff {c d : Char} (hc : Exact c) (hd : Exact d) : byte c = byte d ↔ c = d :=
  ⟨byte_inj hc hd, fun h => h ▸ rfl⟩

theorem ne_byte_of_inert {b : UInt8} {d : Char} (hb : Inert b) (hd : Exact d) : b ≠ byte d := by
  rintro rfl
  exact not_inert_byte hd hb

/-- The walk of the scan goes over bytes that are no markup. -/
theorem scanStartTag_append {prev : UInt8} {quote : Option Char} {n : Nat} {bs b : Bytes}
    (hne : bs ≠ []) (hbs : ∀ x ∈ bs, Inert x) (hquote : ∀ q ∈ quote, Exact q) :
    ∃ p, Inert p ∧ scanStartTag prev (quote.map byte) n (bs ++ b) =
      scanStartTag p (quote.map byte) n b := by
  induction bs generalizing prev with
  | nil => exact absurd rfl hne
  | cons x bs ih =>
    have hx := hbs x List.mem_cons_self
    have hstep : scanStartTag prev (quote.map byte) n (x :: (bs ++ b)) =
        scanStartTag x (quote.map byte) n (bs ++ b) := by
      cases quote with
      | some q => simp [scanStartTag, ne_byte_of_inert hx (hquote q rfl)]
      | none =>
        have hdq := ne_byte_of_inert hx (d := '"') (by decide)
        have hsq := ne_byte_of_inert hx (d := '\'') (by decide)
        have heq := ne_byte_of_inert hx (d := '=') (by decide)
        have hgt := ne_byte_of_inert hx (d := '>') (by decide)
        simp [scanStartTag, hdq, hsq, heq, hgt]
    rw [List.cons_append, hstep]
    cases bs with
    | nil => exact ⟨x, hx, rfl⟩
    | cons y bs => exact ih (by simp) fun z hz => hbs z (List.mem_cons_of_mem _ hz)

/-- The walks over a start tag go alike. -/
theorem Expands.scanStartTag {s rest : Str} {b : Bytes} {prev : Char} {prevByte : UInt8}
    {quote : Option Char} {n m : Nat} {selfClosing : Bool} (h : Expands s b)
    (hprev : prev = '/' ↔ prevByte = byte '/') (hquote : ∀ q ∈ quote, Exact q)
    (hscan : scanTag prev quote n s = (m, selfClosing, rest)) :
    ∃ rest', scanStartTag prevByte (quote.map byte) n b = (m, selfClosing, rest') ∧
      Expands rest rest' ∧ rest'.length ≤ b.length := by
  induction h generalizing prev prevByte quote n with
  | nil =>
    simp only [scanTag, Prod.mk.injEq] at hscan
    obtain ⟨rfl, rfl, rfl⟩ := hscan
    exact ⟨[], by simp [Asx.scanStartTag], .nil, Nat.le_refl 0⟩
  | @cons c bs b s hc hs ih =>
    by_cases hexact : Exact c
    · rw [Block, if_pos hexact] at hc
      subst hc
      have hslash : c = '/' ↔ byte c = byte '/' := (byte_eq_iff hexact (by decide)).symm
      -- one character, one byte: the same branch is taken
      have hlift : ∀ (quote' : Option Char) {n' : Nat}, (∀ q ∈ quote', Exact q) →
          scanTag c quote' n' s = (m, selfClosing, rest) →
          Asx.scanStartTag prevByte (quote.map byte) n (byte c :: b) =
            Asx.scanStartTag (byte c) (quote'.map byte) n' b →
          ∃ rest', Asx.scanStartTag prevByte (quote.map byte) n ([byte c] ++ b) =
              (m, selfClosing, rest') ∧ Expands rest rest' ∧
            rest'.length ≤ ([byte c] ++ b).length := by
        intro quote' n' hquote' hscan' hstep
        obtain ⟨rest', hrest, hexp, hlen⟩ := ih hslash hquote' hscan'
        refine ⟨rest', by rw [List.singleton_append, hstep, hrest], hexp, ?_⟩
        rw [List.singleton_append, List.length_cons]
        omega
      cases quote with
      | some q =>
        have hq := hquote q rfl
        rw [scanTag] at hscan
        by_cases hcq : c = q
        · rw [if_pos hcq] at hscan
          exact hlift none (by simp) hscan (by simp [Asx.scanStartTag, hcq])
        · rw [if_neg hcq] at hscan
          refine hlift (some q) hquote hscan ?_
          simp [Asx.scanStartTag, byte_eq_iff hexact hq, hcq]
      | none =>
        have hdq := byte_eq_iff hexact (d := '"') (by decide)
        have hsq := byte_eq_iff hexact (d := '\'') (by decide)
        have heq := byte_eq_iff hexact (d := '=') (by decide)
        have hgt := byte_eq_iff hexact (d := '>') (by decide)
        rw [scanTag] at hscan
        split at hscan
        · rename_i h
          refine hlift (some c) (by simpa using hexact) hscan ?_
          simp [Asx.scanStartTag, hdq, hsq, h]
        · rename_i hnq
          have hnq' : ¬ (byte c = byte '"' ∨ byte c = byte '\'') := by rwa [hdq, hsq]
          split at hscan
          · rename_i h
            refine hlift none (by simp) hscan ?_
            rw [Option.map_none, Asx.scanStartTag, if_neg hnq', if_pos (heq.mpr h)]
          · rename_i hne
            split at hscan
            · rename_i h
              simp only [Prod.mk.injEq] at hscan
              obtain ⟨rfl, rfl, rfl⟩ := hscan
              refine ⟨b, ?_, hs, by simp⟩
              rw [Option.map_none, List.singleton_append, Asx.scanStartTag, if_neg hnq',
                if_neg (heq.not.mpr hne), if_pos (hgt.mpr h)]
              simp [hprev]
            · rename_i hngt
              refine hlift none (by simp) hscan ?_
              rw [Option.map_none, Asx.scanStartTag, if_neg hnq', if_neg (heq.not.mpr hne),
                if_neg (hgt.not.mpr hngt)]
    · rw [Block, if_neg hexact] at hc
      have hne : ∀ {d : Char}, Exact d → c ≠ d := by
        rintro d hd rfl
        exact hexact hd
      have hstep : scanTag prev quote n (c :: s) = scanTag c quote n s := by
        cases quote with
        | some q => simp [scanTag, hne (hquote q rfl)]
        | none =>
          simp [scanTag, hne (d := '"') (by decide), hne (d := '\'') (by decide),
            hne (d := '=') (by decide), hne (d := '>') (by decide)]
      rw [hstep] at hscan
      obtain ⟨p, hp, hbytes⟩ := @scanStartTag_append prevByte quote n bs b hc.1 hc.2 hquote
      have hslash : c = '/' ↔ p = byte '/' :=
        ⟨fun h => absurd h (hne (by decide)),
          fun h => absurd h (ne_byte_of_inert hp (by decide))⟩
      obtain ⟨rest', hrest, hexp, hlen⟩ := ih hslash hquote hscan
      refine ⟨rest', by rw [hbytes, hrest], hexp, ?_⟩
      rw [List.length_append]
      omega

/-! ## The loop of the scan -/

/-- What `prescan` does with a list of tags. -/
def checkTags (limits : XmlLimits) (stage : Str) : Nat → List Tag → Result Unit
  | _, [] => .ok ()
  | depth, .close :: tags => checkTags limits stage (depth - 1) tags
  | depth, .empty n :: tags =>
    if n > limits.maxAttributes then
      .error (xmlError stage ("XML element has more than " ++ showNat limits.maxAttributes ++
        " attributes (attribute limit)"))
    else checkTags limits stage depth tags
  | depth, .start n :: tags =>
    if n > limits.maxAttributes then
      .error (xmlError stage ("XML element has more than " ++ showNat limits.maxAttributes ++
        " attributes (attribute limit)"))
    else if depth + 1 > limits.maxDepth then
      .error (xmlError stage ("XML nesting exceeds the depth limit of " ++
        showNat limits.maxDepth ++ " levels"))
    else checkTags limits stage (depth + 1) tags

theorem utf8_eq_map_byte {s : Str} (h : ∀ c ∈ s, Exact c) : Str.utf8 s = s.map byte := by
  induction s with
  | nil => rfl
  | cons c s ih =>
    rw [Str.utf8, List.flatMap_cons, utf8EncodeChar_ascii (h c List.mem_cons_self).1,
      List.map_cons, ← ih fun c hc => h c (List.mem_cons_of_mem _ hc)]
    rfl

/-- The scan recognizes markup by the characters it starts with. -/
theorem Expands.isPrefixOf_utf8 {s : Str} {b : Bytes} (h : Expands s b) (needle : Str)
    (hn : needle.all (fun c => decide (Exact c)) = true) :
    (Str.utf8 needle).isPrefixOf b = needle.isPrefixOf s := by
  rw [utf8_eq_map_byte (exact_of_all hn)]
  exact (h.isPrefixOf (exact_of_all hn)).1

/-- The scan jumps over what does not open markup. -/
theorem prescanLoop_append (limits : XmlLimits) (stage : Str) (rounds depth : Nat) {bs b : Bytes}
    (h : ∀ x ∈ bs, x ≠ byte '<') :
    prescanLoop limits stage rounds depth (bs ++ b) = prescanLoop limits stage rounds depth b := by
  cases rounds with
  | zero => rfl
  | succ rounds =>
    have hdrop : (bs ++ b).dropWhile (· ≠ byte '<') = b.dropWhile (· ≠ byte '<') :=
      List.dropWhile_append_of_pos fun x hx => by simpa using h x hx
    simp only [prescanLoop, hdrop]

variable {limits : XmlLimits} {stage : Str}

/-- One round of the scan, at a `<`. -/
theorem prescanLoop_markup {s : Str} {b : Bytes} {rounds depth : Nat} (hb : Expands ('<' :: s) b) :
    prescanLoop limits stage (rounds + 1) depth b =
      if ['<', '!', '-', '-'].isPrefixOf ('<' :: s) then
        prescanLoop limits stage rounds depth (skipTo (Str.utf8 "-->") (b.drop 4))
      else if ['<', '!', '[', 'C', 'D', 'A', 'T', 'A', '['].isPrefixOf ('<' :: s) then
        prescanLoop limits stage rounds depth (skipTo (Str.utf8 "]]>") (b.drop 9))
      else if ['<', '?'].isPrefixOf ('<' :: s) then
        prescanLoop limits stage rounds depth (skipTo (Str.utf8 "?>") (b.drop 2))
      else if ['<', '!'].isPrefixOf ('<' :: s) then
        .error (xmlError stage "XML document type declarations (DOCTYPE) are not allowed")
      else if ['<', '/'].isPrefixOf ('<' :: s) then
        prescanLoop limits stage rounds (depth - 1) (skipTo (Str.utf8 ">") (b.drop 2))
      else
        let tag := scanStartTag (byte '<') none 0 (b.drop 1)
        if tag.1 > limits.maxAttributes then
          .error (xmlError stage ("XML element has more than " ++ showNat limits.maxAttributes ++
            " attributes (attribute limit)"))
        else if tag.2.1 then prescanLoop limits stage rounds depth tag.2.2
        else if depth + 1 > limits.maxDepth then
          .error (xmlError stage ("XML nesting exceeds the depth limit of " ++
            showNat limits.maxDepth ++ " levels"))
        else prescanLoop limits stage rounds (depth + 1) tag.2.2 := by
  obtain ⟨b', rfl, -⟩ := hb.cons_exact (by decide)
  have hdrop : (byte '<' :: b').dropWhile (· ≠ byte '<') = byte '<' :: b' := by simp
  have hne : byte '<' :: b' ≠ [] := by simp
  rw [prescanLoop, hdrop]
  simp only [hne, if_false]
  rw [hb.isPrefixOf_utf8 "<!--" (by decide), hb.isPrefixOf_utf8 "<![CDATA[" (by decide),
    hb.isPrefixOf_utf8 "<?" (by decide), hb.isPrefixOf_utf8 "<!" (by decide),
    hb.isPrefixOf_utf8 "</" (by decide)]
  rfl

/-- Where a round has jumped to, the scan goes on. -/
theorem Expands.jump (opening : Str) {d : Char} {needle s body rest : Str} {b : Bytes}
    (ho : opening.all (fun c => decide (Exact c)) = true)
    (hn : (d :: needle).all (fun c => decide (Exact c)) = true)
    (h : Expands (opening ++ s) b) (hbreak : breakOn (d :: needle) s = some (body, rest)) :
    Expands rest (Asx.skipTo (Str.utf8 (d :: needle)) (b.drop opening.length)) ∧
      (Asx.skipTo (Str.utf8 (d :: needle)) (b.drop opening.length)).length ≤
        b.length - opening.length := by
  have hpre : opening.isPrefixOf (opening ++ s) = true := by simp
  have hdrop := (h.isPrefixOf (exact_of_all ho)).2 hpre
  rw [List.drop_left] at hdrop
  rw [utf8_eq_map_byte (exact_of_all hn)]
  refine ⟨hdrop.skipTo (exact_of_all hn) hbreak, (length_skipTo_le _ _).trans ?_⟩
  rw [List.length_drop]

/-- The bytes left suffice for another round. -/
theorem Expands.exists_rounds {s : Str} {b : Bytes} {rounds : Nat} (hb : Expands ('<' :: s) b)
    (hr : b.length ≤ rounds) : ∃ r, rounds = r + 1 ∧ b.length - 1 ≤ r := by
  obtain ⟨b', rfl, -⟩ := hb.cons_exact (by decide)
  rw [List.length_cons] at hr ⊢
  exact ⟨rounds - 1, by omega, by omega⟩

theorem ne_of_isNameStart {c d : Char} (h : isNameStart c = true) (hd : isNameStart d = false) :
    d ≠ c := by
  rintro rfl
  rw [hd] at h
  cases h

/-- What `prescan` does with the tags of a text. -/
theorem prescanLoop_eq_checkTags {s : Str} {tags : List Tag} {b : Bytes} {rounds depth : Nat}
    (h : Scan s tags) (hb : Expands s b) (hr : b.length ≤ rounds) :
    prescanLoop limits stage rounds depth b = checkTags limits stage depth tags := by
  induction h generalizing b rounds depth with
  | nil =>
    cases hb
    cases rounds with
    | zero => rfl
    | succ rounds => rfl
  | char hc hs ih =>
    cases hb with
    | cons hblock hrest =>
      rw [prescanLoop_append _ _ _ _ (hblock.ne_byte (by decide) hc)]
      refine ih hrest ?_
      rw [List.length_append] at hr
      omega
  | @comment s body rest tags hbreak hs ih =>
    obtain ⟨hexp, hlen⟩ := Expands.jump ['<', '!', '-', '-'] (by decide) (by decide)
      hb hbreak
    obtain ⟨rounds, rfl, hrounds⟩ := hb.exists_rounds hr
    rw [prescanLoop_markup hb, if_pos (by simp [List.isPrefixOf])]
    exact ih hexp (hlen.trans ((Nat.sub_le_sub_left (by decide) _).trans hrounds))
  | @cdata s body rest tags hbreak hs ih =>
    obtain ⟨hexp, hlen⟩ := Expands.jump ['<', '!', '[', 'C', 'D', 'A', 'T', 'A', '[']
      (by decide) (by decide) hb hbreak
    obtain ⟨rounds, rfl, hrounds⟩ := hb.exists_rounds hr
    rw [prescanLoop_markup hb, if_neg (by simp [List.isPrefixOf]),
      if_pos (by simp [List.isPrefixOf])]
    exact ih hexp (hlen.trans ((Nat.sub_le_sub_left (by decide) _).trans hrounds))
  | @pi s body rest tags hbreak hs ih =>
    obtain ⟨hexp, hlen⟩ := Expands.jump ['<', '?'] (by decide) (by decide) hb hbreak
    obtain ⟨rounds, rfl, hrounds⟩ := hb.exists_rounds hr
    rw [prescanLoop_markup hb, if_neg (by simp [List.isPrefixOf]),
      if_neg (by simp [List.isPrefixOf]), if_pos (by simp [List.isPrefixOf])]
    exact ih hexp (hlen.trans ((Nat.sub_le_sub_left (by decide) _).trans hrounds))
  | @close s body rest tags hbreak hs ih =>
    obtain ⟨hexp, hlen⟩ := Expands.jump ['<', '/'] (by decide) (by decide) hb hbreak
    obtain ⟨rounds, rfl, hrounds⟩ := hb.exists_rounds hr
    rw [prescanLoop_markup hb, if_neg (by simp [List.isPrefixOf]),
      if_neg (by simp [List.isPrefixOf]), if_neg (by simp [List.isPrefixOf]),
      if_neg (by simp [List.isPrefixOf]), if_pos (by simp [List.isPrefixOf]), checkTags]
    exact ih hexp (hlen.trans ((Nat.sub_le_sub_left (by decide) _).trans hrounds))
  | @start s rest attributes selfClosing tags hn ht hs ih =>
    obtain ⟨rounds, rfl, hrounds⟩ := hb.exists_rounds hr
    rw [prescanLoop_markup hb]
    obtain ⟨b', rfl, hb'⟩ := hb.cons_exact (by decide)
    obtain ⟨rest', hscan, hexp, hlen⟩ := @Expands.scanStartTag _ _ _ '<' (byte '<') none _ _ _ hb'
      (by decide) (by simp) ht
    have hlen' : rest'.length ≤ rounds := by
      rw [List.length_cons] at hrounds
      omega
    cases s with
    | nil => cases hn
    | cons c s =>
      -- a name follows, so this is a start tag
      have hbang := ne_of_isNameStart (d := '!') hn (by decide)
      have hquestion := ne_of_isNameStart (d := '?') hn (by decide)
      have hslash := ne_of_isNameStart (d := '/') hn (by decide)
      rw [if_neg (by simp [List.isPrefixOf, hbang]), if_neg (by simp [List.isPrefixOf, hbang]),
        if_neg (by simp [List.isPrefixOf, hquestion]), if_neg (by simp [List.isPrefixOf, hbang]),
        if_neg (by simp [List.isPrefixOf, hslash])]
      rw [Option.map_none] at hscan
      simp only [List.drop_one, List.tail_cons, hscan]
      cases selfClosing with
      | true => simp only [Tag.ofScan, if_true, checkTags, ih hexp hlen']
      | false =>
        simp only [Tag.ofScan, Bool.false_eq_true, if_false, checkTags, ih hexp hlen']

/-! ## Depth -/

/-- The number of attributes that a tag carries. -/
def tagAttributes : Tag → Nat
  | .start n => n
  | .empty n => n
  | .close => 0

/-- The start tags, each with the depth of its element; `depth` elements are open. -/
def nesting : Nat → List Tag → List (Tag × Nat)
  | _, [] => []
  | depth, .start n :: tags => (.start n, depth + 1) :: nesting (depth + 1) tags
  | depth, .empty n :: tags => (.empty n, depth + 1) :: nesting depth tags
  | depth, .close :: tags => nesting (depth - 1) tags

/-- What `prescan` asks of a start tag: its attributes are few, and it is not too deep unless it
    closes itself. -/
def TagFits (limits : XmlLimits) (p : Tag × Nat) : Prop :=
  tagAttributes p.1 ≤ limits.maxAttributes ∧ ∀ n, p.1 = .start n → p.2 ≤ limits.maxDepth

/-- The loop over the tags succeeds iff each start tag fits the limits at its depth. -/
theorem checkTags_eq_ok_iff {tags : List Tag} {depth : Nat} :
    checkTags limits stage depth tags = .ok () ↔ ∀ p ∈ nesting depth tags, TagFits limits p := by
  induction tags generalizing depth with
  | nil => simp [checkTags, nesting]
  | cons tag tags ih =>
    cases tag with
    | close => rw [checkTags, nesting, ih]
    | empty n =>
      rw [checkTags, nesting, List.forall_mem_cons, ← ih]
      split
      · simp only [TagFits, tagAttributes, reduceCtorEq, false_iff]
        omega
      · simp only [TagFits, tagAttributes, reduceCtorEq, false_implies, implies_true, and_true]
        rw [and_iff_right (by omega)]
    | start n =>
      rw [checkTags, nesting, List.forall_mem_cons, ← ih]
      have hfits : TagFits limits (.start n, depth + 1) ↔
          n ≤ limits.maxAttributes ∧ depth + 1 ≤ limits.maxDepth := by
        simp [TagFits, tagAttributes]
      rw [hfits]
      split
      · simp only [reduceCtorEq, false_iff]
        omega
      · split
        · simp only [reduceCtorEq, false_iff]
          omega
        · rw [and_iff_right (by omega)]

/-- The tags of a list of trees leave as many elements open as they found. -/
theorem nesting_append {ts : List Tree} {tags : List Tag} (h : TagsOf ts tags) (depth : Nat)
    (more : List Tag) : nesting depth (tags ++ more) = nesting depth tags ++ nesting depth more := by
  induction h generalizing depth more with
  | nil => rfl
  | text _ ih => exact ih depth more
  | comment _ ih => exact ih depth more
  | pi _ ih => exact ih depth more
  | empty _ ih => rw [List.cons_append, nesting, nesting, ih, List.cons_append]
  | element _ _ ihcs ih =>
    rw [List.cons_append, nesting, nesting, List.append_assoc, List.cons_append, ihcs, ihcs]
    simp only [nesting, Nat.add_sub_cancel, ih, List.cons_append, List.append_assoc]

/-- The depths of the tags are those of the elements. -/
theorem forall_nesting_le_iff {ts : List Tree} {tags : List Tag} (h : TagsOf ts tags)
    {depth m : Nat} (hm : depth ≤ m) :
    (∀ p ∈ nesting depth tags, p.2 ≤ m) ↔ depth + elementDepthList ts ≤ m := by
  induction h generalizing depth with
  | nil => simp [nesting, elementDepthList, hm]
  | text _ ih | comment _ ih | pi _ ih =>
    rw [ih hm]
    simp [elementDepthList, Tree.elementDepth]
  | empty _ ih =>
    rw [nesting, List.forall_mem_cons, ih hm, elementDepthList, Tree.elementDepth,
      elementDepthList]
    dsimp only
    omega
  | @element q as cs ts inner tags hcs _ ihcs ih =>
    rw [nesting, nesting_append hcs, List.forall_mem_cons, List.forall_mem_append, nesting,
      Nat.add_sub_cancel, ih hm, elementDepthList, Tree.elementDepth]
    dsimp only
    by_cases hlt : depth + 1 ≤ m
    · rw [ihcs hlt]
      omega
    · constructor
      · rintro ⟨hle, -⟩
        omega
      · intro hle
        omega

/-! ## Canonicalization -/

/-- A list of trees is as deep as its deepest tree. -/
theorem elementDepth_le_of_mem {t : Tree} {ts : List Tree} (h : t ∈ ts) :
    t.elementDepth ≤ elementDepthList ts := by
  induction ts with
  | nil => cases h
  | cons u ts ih =>
    rw [elementDepthList]
    rcases List.mem_cons.mp h with rfl | h
    · exact Nat.le_max_left _ _
    · exact (ih h).trans (Nat.le_max_right _ _)

/-- A child is no deeper than its parent. -/
theorem elementDepth_le_of_mem_children {n c : Node} (h : c ∈ n.children) :
    c.tree.elementDepth ≤ n.tree.elementDepth := by
  have hmem : c.tree ∈ n.tree.children := by
    simp only [Node.children, List.mem_mapIdx] at h
    obtain ⟨i, hi, rfl⟩ := h
    exact List.getElem_mem hi
  have hle := elementDepth_le_of_mem hmem
  cases htree : n.tree with
  | root cs =>
    rw [htree] at hle
    exact hle
  | element q ds as cs =>
    rw [htree] at hle
    exact hle.trans (Nat.le_succ _)
  | text | comment | pi =>
    rw [htree] at hmem
    cases hmem

/-- No node nests deeper than the document. -/
theorem elementDepth_le_root {doc : Document} {n : Node} (hn : n ∈ doc.descendants) :
    n.tree.elementDepth ≤ doc.root.tree.elementDepth := by
  induction h : n.up.length using Nat.strong_induction_on generalizing n with
  | _ k ih =>
    subst h
    obtain rfl | ⟨p, hp, hc⟩ := eq_or_mem_children_of_mem_descendants hn
    · exact Nat.le_refl _
    · have hlt := length_up_parent? (parent?_of_mem_children hc)
      exact (elementDepth_le_of_mem_children hc).trans (ih _ hlt hp rfl)

/-- The serializer fails on elements nested deeper than its limit, and on nothing else. -/
theorem trySerializeNodeWithInclusiveNs_eq_none_iff (profile : WsSecCanonicalizationProfile)
    (override : Option (List Str)) (n : Node) :
    trySerializeNodeWithInclusiveNs profile override n = none ↔
      maxC14nDepth < n.tree.elementDepth := by
  have h := (serializeSubtree_eq_none_iff profile override).1 n.tree .empty 0 n.up n.path
    (Nat.zero_le _)
  rwa [Nat.zero_add] at h

/-- Every node of a document can be canonicalized exactly when the document does not nest
    deeper than the serializer goes. -/
theorem canonicalizable_iff (doc : Document) :
    (∀ profile override, ∀ n ∈ doc.descendants,
        trySerializeNodeWithInclusiveNs profile override n ≠ none) ↔
      doc.root.tree.elementDepth ≤ maxC14nDepth := by
  constructor
  · intro h
    have hroot := h .exclusive none doc.root (self_mem_descendants doc.root)
    rw [Ne, trySerializeNodeWithInclusiveNs_eq_none_iff] at hroot
    omega
  · intro h profile override n hn
    rw [Ne, trySerializeNodeWithInclusiveNs_eq_none_iff]
    have := elementDepth_le_root hn
    omega

/-! ## The limits -/

/-- `prescan` accepts a document exactly when every start tag has few attributes and no element
    that is not self-closing is too deep. -/
theorem prescan_eq_ok_iff {text : Str} {tags : List Tag} (h : Scan (normalizeEol text) tags) :
    prescan (Str.utf8 text) limits stage = .ok () ↔
      ∀ p ∈ nesting 0 tags, TagFits limits p := by
  rw [prescan, prescanLoop_eq_checkTags h (expands_utf8 text) (Nat.le_refl _),
    checkTags_eq_ok_iff]

/-- The text after a byte order mark, which `roxmltree` skips. -/
def afterByteOrderMark (text : Str) : Str := (Str.stripPrefix ['\uFEFF'] text).getD text

/-- The limits agree with the document and with the C14N serializer: `prescan` accepts exactly
    the documents within the limits, self-closing elements included, and what is accepted can
    be canonicalized, as a whole and from every element on. -/
structure LimitsAgree (roxmltree : Roxmltree) (text : Str) (limits : XmlLimits) (stage : Str)
    (doc : Document) (tags : List Tag) : Prop where
  prescan : prescan (Str.utf8 text) limits stage = .ok () ↔
    doc.root.tree.elementDepth ≤ limits.maxDepth ∧
      ∀ tag ∈ tags, tagAttributes tag ≤ limits.maxAttributes
  c14n : ∀ accepted, parseXml roxmltree text limits stage = .ok accepted →
    ∀ profile override, ∀ n ∈ accepted.descendants,
      trySerializeNodeWithInclusiveNs profile override n ≠ none

/-- The tags whose depth `prescan` does not see: they close themselves, one level below the
    limit. -/
def SelfClosingBelow (limits : XmlLimits) (tags : List Tag) : Prop :=
  ∃ n, (.empty n, limits.maxDepth + 1) ∈ nesting 0 tags

/-- A tag that is refused wherever self-closing elements stand. -/
def RefusedAnyway (limits : XmlLimits) (tags : List Tag) : Prop :=
  ∃ p ∈ nesting 0 tags, ¬ TagFits limits p

/-- Each start tag has a depth. -/
theorem mem_nesting_of_mem {tag : Tag} {tags : List Tag} (h : tag ∈ tags) (hne : tag ≠ .close)
    (depth : Nat) : ∃ d, (tag, d) ∈ nesting depth tags := by
  induction tags generalizing depth with
  | nil => cases h
  | cons t tags ih =>
    rcases List.mem_cons.mp h with rfl | htail
    · cases tag with
      | close => exact absurd rfl hne
      | start n => exact ⟨depth + 1, List.mem_cons_self⟩
      | empty n => exact ⟨depth + 1, List.mem_cons_self⟩
    · cases t with
      | close => exact ih htail (depth - 1)
      | start n =>
        obtain ⟨d, hd⟩ := ih htail (depth + 1)
        exact ⟨d, List.mem_cons_of_mem _ hd⟩
      | empty n =>
        obtain ⟨d, hd⟩ := ih htail depth
        exact ⟨d, List.mem_cons_of_mem _ hd⟩

/-- Only start tags have one. -/
theorem mem_of_mem_nesting {p : Tag × Nat} {tags : List Tag} {depth : Nat}
    (h : p ∈ nesting depth tags) : p.1 ∈ tags ∧ p.1 ≠ .close := by
  induction tags generalizing depth with
  | nil => cases h
  | cons t tags ih =>
    cases t with
    | close =>
      obtain ⟨hmem, hne⟩ := ih h
      exact ⟨List.mem_cons_of_mem _ hmem, hne⟩
    | start n | empty n =>
      rcases List.mem_cons.mp h with rfl | htail
      · exact ⟨List.mem_cons_self, by simp⟩
      · obtain ⟨hmem, hne⟩ := ih htail
        exact ⟨List.mem_cons_of_mem _ hmem, hne⟩

/-- The attributes of all tags are those of the start tags. -/
theorem forall_tagAttributes_le_iff {tags : List Tag} {m : Nat} (depth : Nat) :
    (∀ tag ∈ tags, tagAttributes tag ≤ m) ↔
      ∀ p ∈ nesting depth tags, tagAttributes p.1 ≤ m := by
  constructor
  · intro h p hp
    exact h _ (mem_of_mem_nesting hp).1
  · intro h tag hmem
    by_cases hclose : tag = .close
    · subst hclose
      exact Nat.zero_le _
    · obtain ⟨d, hd⟩ := mem_nesting_of_mem hmem hclose depth
      exact h _ hd

/-- Where every start tag fits, a self-closing element is at most one level too deep. -/
theorem nesting_le_succ {tags : List Tag} {depth : Nat} (hd : depth ≤ limits.maxDepth)
    (h : ∀ p ∈ nesting depth tags, TagFits limits p) :
    ∀ p ∈ nesting depth tags, p.2 ≤ limits.maxDepth + 1 := by
  induction tags generalizing depth with
  | nil => simp [nesting]
  | cons tag tags ih =>
    cases tag with
    | close =>
      rw [nesting] at h ⊢
      exact ih (by omega) h
    | empty n =>
      rw [nesting, List.forall_mem_cons] at h ⊢
      exact ⟨Nat.succ_le_succ hd, ih hd h.2⟩
    | start n =>
      rw [nesting, List.forall_mem_cons] at h ⊢
      have hle : depth + 1 ≤ limits.maxDepth := h.1.2 n rfl
      exact ⟨hle.trans (Nat.le_succ _), ih hle h.2⟩

/-- The tags within the limits are those that fit, with no self-closing element below. -/
theorem forall_nesting_within_iff {tags : List Tag} :
    (∀ p ∈ nesting 0 tags, p.2 ≤ limits.maxDepth ∧ tagAttributes p.1 ≤ limits.maxAttributes) ↔
      (∀ p ∈ nesting 0 tags, TagFits limits p) ∧ ¬ SelfClosingBelow limits tags := by
  constructor
  · intro h
    refine ⟨fun p hp => ⟨(h p hp).2, fun _ _ => (h p hp).1⟩, ?_⟩
    rintro ⟨n, hn⟩
    have hle := (h _ hn).1
    dsimp only at hle
    omega
  · rintro ⟨hfits, hnone⟩ ⟨tag, d⟩ hp
    have hattrs := (hfits _ hp).1
    have hsucc := nesting_le_succ (Nat.zero_le _) hfits _ hp
    refine ⟨?_, hattrs⟩
    cases tag with
    | close => exact absurd rfl (mem_of_mem_nesting hp).2
    | start n => exact (hfits _ hp).2 n rfl
    | empty n =>
      by_contra hlt
      have hd : d = limits.maxDepth + 1 := by
        dsimp only at hsucc hlt
        omega
      exact hnone ⟨n, hd ▸ hp⟩

/-- The elements of a document within the limits. -/
theorem within_limits_iff {doc : Document} {tags : List Tag} (h : TagsOf doc.children tags) :
    (doc.root.tree.elementDepth ≤ limits.maxDepth ∧
        ∀ tag ∈ tags, tagAttributes tag ≤ limits.maxAttributes) ↔
      (∀ p ∈ nesting 0 tags, TagFits limits p) ∧ ¬ SelfClosingBelow limits tags := by
  have hdepth := forall_nesting_le_iff h (Nat.zero_le limits.maxDepth)
  rw [Nat.zero_add] at hdepth
  have hroot : doc.root.tree.elementDepth = elementDepthList doc.children := rfl
  rw [hroot, ← hdepth, forall_tagAttributes_le_iff 0, ← forall_nesting_within_iff]
  exact forall₂_and.symm

/-- A byte order mark is no tag. -/
theorem scan_of_scan_afterByteOrderMark {text : Str} {tags : List Tag}
    (h : Scan (normalizeEol (afterByteOrderMark text)) tags) : Scan (normalizeEol text) tags := by
  unfold afterByteOrderMark Str.stripPrefix at h
  split at h
  · rename_i hbom
    obtain ⟨rest, rfl⟩ := List.isPrefixOf_iff_prefix.mp hbom
    have heq : normalizeEol ('\uFEFF' :: rest) = '\uFEFF' :: normalizeEol rest := by
      rw [normalizeEol]
      · simp
      · simp
    rw [List.singleton_append, heq]
    exact .char (by decide) h
  · exact h

/-- The limits agree with the document and the C14N serializer unless an element that closes
    itself stands one level below the limit; only a text that is refused for another tag makes
    up for that. The classes are those whose depth the serializer reaches. Of `roxmltree` it is
    used that the elements it reads nest as deep as those of the XML standard's document. -/
theorem limits_agree_iff (roxmltree : Roxmltree) (text : Str) (limits : XmlLimits) (stage : Str)
    (hclass : limits = .envelope ∨ limits = .smp ∨ ∃ maxBytes, limits = .payload maxBytes)
    (doc : Document) (hdoc : Xml.parse (afterByteOrderMark text) = some doc)
    (hrox : ∀ nodes accepted, roxmltree text nodes = .ok accepted →
      accepted.root.tree.elementDepth = doc.root.tree.elementDepth) :
    ∃ tags, TagsOf doc.children tags ∧ Scan (normalizeEol text) tags ∧
      (LimitsAgree roxmltree text limits stage doc tags ↔
        ¬ SelfClosingBelow limits tags ∨ RefusedAnyway limits tags) := by
  obtain ⟨tags, htags, hscan⟩ := exists_scan_of_parse hdoc
  have hscan' := scan_of_scan_afterByteOrderMark hscan
  refine ⟨tags, htags, hscan', ?_⟩
  have hwithin := @within_limits_iff limits _ _ htags
  have hprescan := @prescan_eq_ok_iff limits stage _ _ hscan'
  constructor
  · intro hagree
    by_cases hfits : ∀ p ∈ nesting 0 tags, TagFits limits p
    · exact .inl (hwithin.mp (hagree.prescan.mp (hprescan.mpr hfits))).2
    · right
      push Not at hfits
      exact hfits
  · intro hcond
    have hiff : prescan (Str.utf8 text) limits stage = .ok () ↔
        doc.root.tree.elementDepth ≤ limits.maxDepth ∧
          ∀ tag ∈ tags, tagAttributes tag ≤ limits.maxAttributes := by
      rw [hprescan, hwithin]
      refine ⟨fun hfits => ⟨hfits, ?_⟩, And.left⟩
      rcases hcond with hnone | ⟨p, hp, hnot⟩
      · exact hnone
      · exact absurd (hfits p hp) hnot
    refine ⟨hiff, fun accepted haccepted => ?_⟩
    obtain ⟨hscanned, hread⟩ := parseXml_ok haccepted
    have hmax : limits.maxDepth ≤ maxC14nDepth := by
      rcases hclass with rfl | rfl | ⟨maxBytes, rfl⟩
      · decide
      · decide
      · exact Nat.le_refl _
    refine (canonicalizable_iff accepted).mpr (le_trans ?_ hmax)
    rw [hrox _ _ hread]
    exact (hiff.mp hscanned).1

/-- `roxmltree` as far as it is needed here. -/
def roxmltreeReads : Roxmltree := fun text _ =>
  match Xml.parse (afterByteOrderMark text) with
  | some doc => .ok doc
  | none => .error (.other [])

/-- What the example parser accepts is what the XML standard reads. -/
theorem parse_of_roxmltreeReads {text : Str} {nodes : Nat} {accepted : Document}
    (h : roxmltreeReads text nodes = .ok accepted) :
    Xml.parse (afterByteOrderMark text) = some accepted := by
  unfold roxmltreeReads at h
  split at h
  · rename_i hparse
    rw [hparse, Except.ok.inj h]
  · cases h

/-- Elements in one another, the innermost of them self-closing. -/
def nestedText (n : Nat) : Str :=
  (List.replicate n (Str.lit "<a>")).flatten ++ (Str.lit "<a/>" ++
    (List.replicate n (Str.lit "</a>")).flatten)

/-- An empty element inside two others, in the class of envelopes. -/
theorem limits_agree_nested : ∃ doc, Xml.parse (afterByteOrderMark (nestedText 2)) = some doc ∧
    ∃ tags, TagsOf doc.children tags ∧ Scan (normalizeEol (nestedText 2)) tags ∧
      (LimitsAgree roxmltreeReads (nestedText 2) .envelope (Str.lit "xml") doc tags ↔
        ¬ SelfClosingBelow .envelope tags ∨ RefusedAnyway .envelope tags) := by
  have hsome : (Xml.parse (afterByteOrderMark (nestedText 2))).isSome := by decide +kernel
  obtain ⟨doc, hdoc⟩ := Option.isSome_iff_exists.mp hsome
  have hrox : ∀ nodes accepted, roxmltreeReads (nestedText 2) nodes = .ok accepted →
      accepted.root.tree.elementDepth = doc.root.tree.elementDepth := by
    intro nodes accepted h
    rw [Option.some.inj ((parse_of_roxmltreeReads h).symm.trans hdoc)]
  exact ⟨doc, hdoc, limits_agree_iff roxmltreeReads (nestedText 2) .envelope _ (.inl rfl) doc hdoc
    hrox⟩

/-- With 256 elements open, a self-closing element passes the scan and is too deep for the
    serializer. -/
theorem self_closing_accepted_not_canonicalized :
    ∃ doc, Xml.parse (afterByteOrderMark (nestedText 256)) = some doc ∧
      parseXml roxmltreeReads (nestedText 256) (.payload 4096) (Str.lit "xml") = .ok doc ∧
      (XmlLimits.payload 4096).maxDepth < doc.root.tree.elementDepth ∧
      trySerializeNodeWithInclusiveNs .exclusive none doc.root = none := by
  have hdeep : (Xml.parse (afterByteOrderMark (nestedText 256))).any
      (fun doc => doc.root.tree.elementDepth = 257) := by decide +kernel
  have hscan : prescan (Str.utf8 (nestedText 256)) (.payload 4096) (Str.lit "xml") = .ok () := by
    decide +kernel
  have hbytes : ¬ (Str.utf8 (nestedText 256)).length > (XmlLimits.payload 4096).maxBytes := by
    decide +kernel
  obtain ⟨doc, hdoc, hdepth⟩ := (Option.any_eq_true _ _).mp hdeep
  have hdepth' : doc.root.tree.elementDepth = 257 := of_decide_eq_true hdepth
  refine ⟨doc, hdoc, ?_, ?_, ?_⟩
  · have hread : roxmltreeReads (nestedText 256) 4000000 = .ok doc := by
      unfold roxmltreeReads
      rw [hdoc]
    simp only [parseXml, Except.bind_eq_ok, Except.rejectIf_eq_ok, Except.mapError_eq_ok]
    exact ⟨(), hbytes, (), hscan, hread⟩
  · rw [hdepth']
    decide
  · rw [trySerializeNodeWithInclusiveNs_eq_none_iff, hdepth']
    decide

end Asx
