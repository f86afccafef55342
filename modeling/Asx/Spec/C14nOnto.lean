import Asx.ForStd.Ascii
import Asx.Spec.C14nRender

/-!
# Serializing in one pass

The serializer joins the texts of the children of an element and then sets its tags around them.
Here every piece is written in front of what follows it instead, and a character that needs no
escape is kept as it is: the text is the same, and the kernel evaluates it in time linear in its
length.

## Key results
- `serializeSubtree_append`: what is serialized, with something after it, written in one pass
- `utf8_append_eq`: the bytes of a text in front of others
-/

namespace Asx

open Xml

/-- Neither the escapes nor the encoding changes such a character. -/
def plainChar (c : Char) : Bool :=
  (Nat.ble 39 c.toNat && Nat.ble c.toNat 59) || (Nat.ble 63 c.toNat && Nat.ble c.toNat 126)

/-- A text in front of what follows, with each character that is not plain encoded. -/
def ontoChars {α : Type} (plain : Char → α) (enc : Char → List α) (s : Str) (rest : List α) :
    List α :=
  s.foldr (fun c r => bif plainChar c then plain c :: r else enc c ++ r) rest

/-- Written in front of a rest, a list is written from its end. -/
theorem flatMap_append_eq {α β : Type} (f : α → List β) (g : α → List β → List β)
    (h : ∀ a r, f a ++ r = g a r) (l : List α) (rest : List β) :
    l.flatMap f ++ rest = l.foldr g rest := by
  induction l with
  | nil => rfl
  | cons a l ih => rw [List.flatMap_cons, List.append_assoc, ih, h, List.foldr_cons]

/-- The same for characters, most of which are written as they are. -/
theorem flatMap_append_ontoChars {α : Type} {plain : Char → α} {enc : Char → List α}
    (h : ∀ c, plainChar c = true → enc c = [plain c]) (s : Str) (rest : List α) :
    s.flatMap enc ++ rest = ontoChars plain enc s rest := by
  refine flatMap_append_eq enc _ (fun c r => ?_) s rest
  cases hc : plainChar c with
  | true => rw [h c hc, cond_true, List.singleton_append]
  | false => rw [cond_false]

theorem plainChar_iff {c : Char} :
    plainChar c = true ↔ 39 ≤ c.toNat ∧ c.toNat ≤ 59 ∨ 63 ≤ c.toNat ∧ c.toNat ≤ 126 := by
  simp [plainChar, Nat.ble_eq]

/-! ## Escapes -/

theorem escapeTextChar_plain (c : Char) (hc : plainChar c = true) : escapeTextChar c = [c] := by
  unfold escapeTextChar
  split
  -- none of the escaped characters is plain
  iterate 4 exact absurd hc (by decide)
  rfl

theorem escapeAttrChar_plain (c : Char) (hc : plainChar c = true) : escapeAttrChar c = [c] := by
  unfold escapeAttrChar
  split
  iterate 6 exact absurd hc (by decide)
  rfl

/-- `escape_text`, in front of what follows. -/
def textOnto : Str → Str → Str := ontoChars id escapeTextChar

/-- `escape_attr_value`, in front of what follows. -/
def attrValueOnto : Str → Str → Str := ontoChars id escapeAttrChar

/-- An escaped text, written in front of a rest. -/
theorem escapeText_append (s rest : Str) : escapeText s ++ rest = textOnto s rest :=
  flatMap_append_ontoChars escapeTextChar_plain s rest

/-- An attribute value, written in front of a rest. -/
theorem escapeAttrValue_append (s rest : Str) :
    escapeAttrValue s ++ rest = attrValueOnto s rest :=
  flatMap_append_ontoChars escapeAttrChar_plain s rest

/-! ## UTF-8 -/

/-- The bytes of a text, in front of others. -/
def utf8Onto : Str → Bytes → Bytes := ontoChars (fun c => UInt8.ofNat c.toNat) String.utf8EncodeChar

theorem utf8EncodeChar_plain (c : Char) (hc : plainChar c = true) :
    String.utf8EncodeChar c = [UInt8.ofNat c.toNat] := by
  rw [plainChar_iff] at hc
  rw [String.utf8EncodeChar, if_pos (show c.val.toNat ≤ 0x7F from (by omega : c.toNat ≤ 0x7F))]
  rfl

/-- The octets of a text, written in front of a rest. -/
theorem utf8_append_eq (s : Str) (rest : Bytes) : Str.utf8 s ++ rest = utf8Onto s rest :=
  flatMap_append_ontoChars utf8EncodeChar_plain s rest

theorem utf8_eq (s : Str) : Str.utf8 s = utf8Onto s [] := by
  rw [← utf8_append_eq, List.append_nil]

/-- A literal is the text of its string. -/
theorem lit_eq_toList (s : String) (chars : { l : Str // s.toList = l }) :
    Str.lit s chars = s.toList :=
  chars.2.symm

/-! ## Tags -/

/-- A character that ends no name, and no colon. -/
def letter (c : Char) : Bool := Nat.ble 65 c.toNat && Nat.ble c.toNat 122

/-- `element_source_prefix`, without a look at the source where that cannot matter. -/
def sourcePrefix (q : QName) : Str :=
  bif q.pre.all letter && q.loc.all letter then q.pre else elementSourcePrefix q

private theorem nameContinues_of_letter {c : Char} (h : letter c = true) :
    nameContinues c = true := by
  simp only [letter, Bool.and_eq_true, Nat.ble_eq] at h
  have hgt : c ≠ '>' := by rintro rfl; exact absurd h.1 (by decide)
  have hslash : c ≠ '/' := by rintro rfl; exact absurd h.1 (by decide)
  have hspace : Str.isWhitespace c = false := by
    simp only [Str.isWhitespace, Bool.or_eq_false_iff, Bool.and_eq_false_iff, decide_eq_false_iff_not,
      beq_eq_false_iff_ne]
    omega
  simp [nameContinues, hgt, hslash, hspace]

theorem elementSourcePrefix_eq (q : QName) : elementSourcePrefix q = sourcePrefix q := by
  rw [sourcePrefix]
  cases h : q.pre.all letter && q.loc.all letter with
  | false => rfl
  | true =>
    rw [Bool.and_eq_true, List.all_eq_true, List.all_eq_true] at h
    refine elementSourcePrefix_eq_pre (fun hcolon => ?_) fun c hc => nameContinues_of_letter (h.1 c hc)
    exact absurd (h.2 _ hcolon) (by decide)

/-- `write_start_tag`'s declarations, in front of what follows. -/
def declOnto (b : Str × Str) (rest : Str) : Str :=
  if b.1 = [] then Str.lit " xmlns=\"" ++ attrValueOnto b.2 ('"' :: rest)
  else Str.lit " xmlns:" ++ (b.1 ++ '=' :: '"' :: attrValueOnto b.2 ('"' :: rest))

/-- A declaration, written in front of a rest. -/
theorem writeDecl_append (b : Str × Str) (rest : Str) : writeDecl b ++ rest = declOnto b rest := by
  rw [writeDecl, declOnto]
  split <;> simp [Str.lit, Str.written, ← escapeAttrValue_append]

/-- An attribute, in front of what follows. -/
def attrOnto (row : AttrRow) (rest : Str) : Str :=
  ' ' :: (row.qname ++ '=' :: '"' :: attrValueOnto row.value ('"' :: rest))

/-- An attribute, written in front of a rest. -/
theorem writeAttr_append (row : AttrRow) (rest : Str) :
    writeAttr row ++ rest = attrOnto row rest := by
  simp [writeAttr, attrOnto, ← escapeAttrValue_append]

/-- A start tag, in front of what follows. -/
def startTagOnto (qname : Str) (emitted : List (Str × Str)) (rows : List AttrRow) (rest : Str) :
    Str :=
  '<' :: (qname ++ emitted.foldr declOnto (rows.foldr attrOnto ('>' :: rest)))

/-! ## Subtrees -/

mutual

/-- `serializeSubtree`, in front of what follows. -/
def subtreeOnto (profile : WsSecCanonicalizationProfile) (override : Option (List Str))
    (omitted : Option (List Nat)) (parentNs : NsMap) (depth : Nat)
    (up : List Tree) (path : List Nat) (t : Tree) (rest : Str) : Option Str :=
  match t with
  | .element q ds as cs =>
    if omitted = some path then some rest
    else if depth ≥ maxC14nDepth then none
    else
      let chain := .element q ds as cs :: up
      let tagQname := qnameText (sourcePrefix q) q.loc
      let emitted := nsEmitted parentNs (utilizedNamespaces profile override chain q as)
      (childrenOnto profile override omitted (parentNs.extend emitted) (depth + 1)
        chain path 0 cs ('<' :: '/' :: (tagQname ++ '>' :: rest))).map
        (startTagOnto tagQname emitted (attrRows profile chain as (depth == 0)))
  | .text s => if omitted = some path then some rest else some (textOnto s rest)
  | .comment s => if omitted = some path then some rest else some (writeComment profile s ++ rest)
  | .pi target data => if omitted = some path then some rest else some (writePi target data ++ rest)
  | .root cs =>
    if omitted = some path then some rest
    else childrenOnto profile override omitted parentNs depth (.root cs :: up) path 0 cs rest

/-- `serializeChildren`, in front of what follows. -/
def childrenOnto (profile : WsSecCanonicalizationProfile) (override : Option (List Str))
    (omitted : Option (List Nat)) (parentNs : NsMap) (depth : Nat)
    (up : List Tree) (path : List Nat) (i : Nat) (ts : List Tree) (rest : Str) : Option Str :=
  match ts with
  | [] => some rest
  | t :: ts =>
    (childrenOnto profile override omitted parentNs depth up path (i + 1) ts rest).bind
      (subtreeOnto profile override omitted parentNs depth up (i :: path) t)

end

variable {profile : WsSecCanonicalizationProfile} {override : Option (List Str)}
  {omitted : Option (List Nat)}

/-- A subtree in front of a rest: each part is written in front of those behind it, so that
    nothing is copied. -/
theorem serializeSubtree_append :
    (∀ (t : Tree) (parentNs : NsMap) (depth : Nat) (up : List Tree) (path : List Nat) (rest : Str),
      (serializeSubtree profile override omitted parentNs depth up path t).map (· ++ rest) =
        subtreeOnto profile override omitted parentNs depth up path t rest) ∧
    ∀ (ts : List Tree) (parentNs : NsMap) (depth : Nat) (up : List Tree) (path : List Nat)
      (i : Nat) (rest : Str),
      (serializeChildren profile override omitted parentNs depth up path i ts).map (· ++ rest) =
        childrenOnto profile override omitted parentNs depth up path i ts rest := by
  apply Tree.induction
  case root =>
    intro cs ih parentNs depth up path rest
    rw [serializeSubtree, subtreeOnto]
    split
    · rfl
    · exact ih _ _ _ _ _ _
  case element =>
    intro q ds as cs ih parentNs depth up path rest
    rw [serializeSubtree, subtreeOnto]
    split
    · rfl
    · split
      · rfl
      · simp only [← ih, Option.map_map, writeStartTag, elementSourcePrefix_eq]
        congr 1
        funext content
        simp [startTagOnto, ← flatMap_append_eq writeDecl declOnto writeDecl_append,
          ← flatMap_append_eq writeAttr attrOnto writeAttr_append]
  case text =>
    intro s parentNs depth up path rest
    rw [serializeSubtree, subtreeOnto]
    split
    · rfl
    · simp [escapeText_append]
  case comment =>
    intro s parentNs depth up path rest
    rw [serializeSubtree, subtreeOnto]
    split <;> rfl
  case pi =>
    intro target data parentNs depth up path rest
    rw [serializeSubtree, subtreeOnto]
    split <;> rfl
  case nil =>
    intro parentNs depth up path i rest
    rw [serializeChildren, childrenOnto]
    rfl
  case cons =>
    intro t ts iht ihts parentNs depth up path i rest
    rw [serializeChildren, childrenOnto, ← ihts]
    cases ht : serializeSubtree profile override omitted parentNs depth up (i :: path) t with
    | none =>
      cases hts : serializeChildren profile override omitted parentNs depth up path (i + 1) ts with
      | none => rfl
      | some content => simp [← iht, ht]
    | some s =>
      cases hts : serializeChildren profile override omitted parentNs depth up path (i + 1) ts with
      | none => rfl
      | some content => simp [← iht, ht]

/-- A node serialized in one pass. -/
theorem trySerializeNode_eq (profile : WsSecCanonicalizationProfile) (n : Node) :
    trySerializeNode profile n = subtreeOnto profile none none .empty 0 n.up n.path n.tree [] := by
  rw [← serializeSubtree_append.1]
  simp [trySerializeNode, trySerializeNodeWithInclusiveNs, trySerializeNodeOmitting]

end Asx
