import Asx.Spec.MediaType
import Asx.Spec.MimeLines

/-!
# Packaging and reading back

A `multipart/related` body that the builder has written is read back part by part. The builder
writes a Content-ID in brackets, and the reader takes off the brackets and a `cid:` scheme; so
a Content-ID that itself starts with one, which `validate_content_id` lets pass, comes back
without it.

## Main results
- `nextPartSlice_written`: one part
- `payloadParts_written`: all parts after the root
- `extractMultipartRelatedPayloadIfPresent_build_iff`: when the package comes back as it was
-/

namespace Asx

/-! ## Header lines -/

/-- A suffix that was appended is cut off again. -/
theorem stripSuffixBytes_append (s t : Bytes) : stripSuffixBytes t (s ++ t) = some s := by
  rw [stripSuffixBytes, if_pos (List.isSuffixOf_iff_suffix.mpr (List.suffix_append s t))]
  simp

/-- A line without a carriage return has none to cut off. -/
theorem stripSuffixBytes_cr {line : Bytes} (h : (0x0D : UInt8) ∉ line) :
    stripSuffixBytes [0x0D] line = none := by
  rw [stripSuffixBytes, if_neg]
  intro hsuffix
  obtain ⟨t, rfl⟩ := List.isSuffixOf_iff_suffix.mp hsuffix
  exact h (by simp)

/-- Reading the lines of a header block is reading the lines it was written from. -/
theorem headerValueFromLines_joinLines {lines : List Bytes} (hne : lines ≠ [])
    (h : ∀ line ∈ lines, IsLine line) (name : Bytes) :
    headerValueFromLines name (splitByte 0x0A (joinLines lines)) =
      headerValueFromLines name lines := by
  induction lines with
  | nil => exact absurd rfl hne
  | cons line lines ih =>
    have hline := h line List.mem_cons_self
    cases lines with
    | nil =>
      rw [joinLines, splitByte_of_not_mem hline.lf]
    | cons next rest =>
      have hsplit : joinLines (line :: next :: rest) =
          line ++ [0x0D] ++ 0x0A :: joinLines (next :: rest) := by
        simp [joinLines, crlf]
      have hmem : (0x0A : UInt8) ∉ line ++ [0x0D] := by
        simpa using hline.lf
      rw [hsplit, splitByte_append hmem, headerValueFromLines, headerValueFromLines,
        stripSuffixBytes_append, stripSuffixBytes_cr hline.cr,
        ih (by simp) fun l hl => h l (List.mem_cons_of_mem _ hl)]
      rfl

/-! ## Header fields -/

/-- `name: value`. -/
def headerField (name value : Str) : Bytes := Str.utf8 name ++ 0x3A :: 0x20 :: Str.utf8 value

/-- There is nothing to trim where neither end is white space. -/
theorem trimAsciiWhitespace_of_ends {s : Bytes} (hhead : ∀ b ∈ s.head?, isAsciiWhitespaceByte b = false)
    (hlast : ∀ b ∈ s.getLast?, isAsciiWhitespaceByte b = false) : trimAsciiWhitespace s = s := by
  have hdrop : ∀ t : Bytes, (∀ b ∈ t.head?, isAsciiWhitespaceByte b = false) →
      t.dropWhile isAsciiWhitespaceByte = t := by
    intro t ht
    cases t with
    | nil => rfl
    | cons b t => rw [List.dropWhile_cons_of_neg (by simpa using ht b rfl)]
  rw [trimAsciiWhitespace, hdrop s hhead, hdrop, List.reverse_reverse]
  intro b hb
  rw [List.head?_reverse] at hb
  exact hlast b hb

/-- Only what follows the colon of a header field is trimmed. -/
theorem trimAsciiWhitespace_field {name : Bytes} (post : Bytes)
    (hhead : ∃ b, name.head? = some b ∧ isAsciiWhitespaceByte b = false) :
    ∃ post', trimAsciiWhitespace (name ++ 0x3A :: post) = name ++ 0x3A :: post' := by
  obtain ⟨b, hb, hws⟩ := hhead
  obtain ⟨name, rfl⟩ := List.head?_eq_some_iff.mp hb
  refine ⟨(post.reverse.dropWhile isAsciiWhitespaceByte).reverse, ?_⟩
  have hcolon : ((0x3A :: (b :: name).reverse : Bytes)).dropWhile isAsciiWhitespaceByte =
      0x3A :: (b :: name).reverse := List.dropWhile_cons_of_neg (by decide)
  rw [trimAsciiWhitespace, List.cons_append, List.dropWhile_cons_of_neg (by simpa using hws),
    ← List.cons_append, List.reverse_append, List.reverse_cons, List.append_assoc,
    List.singleton_append, List.dropWhile_append, hcolon]
  split
  · rename_i hempty
    rw [List.isEmpty_iff.mp hempty]
    simp
  · simp

/-- The name of a header field, as the reader compares it. -/
structure IsName (name : Str) : Prop where
  head : ∃ b, (Str.utf8 name).head? = some b ∧ isAsciiWhitespaceByte b = false
  trim : trimAsciiWhitespace (Str.utf8 name) = Str.utf8 name
  colon : (0x3A : UInt8) ∉ Str.utf8 name

theorem headerField_ne_nil (name value : Str) : headerField name value ≠ [] := by
  simp [headerField]

/-- The name of a header field ends at its first colon. -/
theorem cutAt_colon {name : Bytes} (h : (0x3A : UInt8) ∉ name) (post : Bytes) :
    cutAt (Str.utf8 ":") (name ++ 0x3A :: post) = some (name, 0x3A :: post) := by
  change cutAt (0x3A :: []) _ = _
  rw [cutAt_append h, cutAt_at_front (by simp)]
  simp

/-- A field with another name is passed over. -/
theorem headerValueFromLines_skip {name target : Str} (hname : IsName name)
    (hne : eqIgnoreAsciiCaseBytes (Str.utf8 name) (Str.utf8 target) = false) (value : Str)
    (rest : List Bytes) (hcr : (0x0D : UInt8) ∉ headerField name value) :
    headerValueFromLines (Str.utf8 target) (headerField name value :: rest) =
      headerValueFromLines (Str.utf8 target) rest := by
  obtain ⟨post', hpost⟩ := trimAsciiWhitespace_field (0x20 :: Str.utf8 value) hname.head
  have hline : trimAsciiWhitespace (headerField name value) = Str.utf8 name ++ 0x3A :: post' := hpost
  rw [headerValueFromLines, stripSuffixBytes_cr hcr, Option.getD_none, hline]
  rw [if_neg (by simp), cutAt_colon hname.colon]
  dsimp only
  rw [hname.trim, hne, if_neg Bool.false_ne_true]

/-- A field is found, and its value is what was written. -/
theorem headerValueFromLines_hit {name target : Str} (hname : IsName name)
    (heq : eqIgnoreAsciiCaseBytes (Str.utf8 name) (Str.utf8 target) = true) {value : Str}
    (rest : List Bytes) (hcr : (0x0D : UInt8) ∉ headerField name value)
    (hvalue : Str.utf8 value ≠ [])
    (hhead : ∀ b ∈ (Str.utf8 value).head?, isAsciiWhitespaceByte b = false)
    (hlast : ∀ b ∈ (Str.utf8 value).getLast?, isAsciiWhitespaceByte b = false) :
    headerValueFromLines (Str.utf8 target) (headerField name value :: rest) = .ok (some value) := by
  have hline : trimAsciiWhitespace (headerField name value) = headerField name value := by
    refine trimAsciiWhitespace_of_ends (fun b hb => ?_) fun b hb => ?_
    · obtain ⟨b', hb', hws⟩ := hname.head
      rw [headerField, List.head?_append, hb', Option.mem_def, Option.some_or, Option.some.injEq]
        at hb
      exact hb ▸ hws
    · have hend : (headerField name value).getLast? = (Str.utf8 value).getLast? := by
        obtain ⟨x, xs, hx⟩ := List.exists_cons_of_ne_nil hvalue
        rw [headerField, hx]
        simp [List.getLast?_append, List.getLast?_cons]
      rw [hend] at hb
      exact hlast b hb
  have htrim : trimAsciiWhitespace (0x20 :: Str.utf8 value) = Str.utf8 value := by
    have h := trimAsciiWhitespace_of_ends hhead hlast
    rw [trimAsciiWhitespace, List.dropWhile_cons_of_pos (by decide)]
    exact h
  rw [headerValueFromLines, stripSuffixBytes_cr hcr, Option.getD_none, hline]
  rw [if_neg (headerField_ne_nil name value), headerField, cutAt_colon hname.colon]
  dsimp only
  rw [hname.trim, heq, if_pos rfl, List.drop_one, List.tail_cons, htrim, Str.fromUtf8_utf8]
  rfl

/-! ## Content-IDs -/

/-- Printable ASCII without spaces. -/
structure IsContentId (id : Str) : Prop where
  ascii : ∀ c ∈ id, 0x21 ≤ c.toNat ∧ c.toNat < 0x7F
  ne_nil : id ≠ []

/-- What `validate_content_id` accepts is a Content-ID that the reader can give back. -/
theorem validateContentId_ok {value field : Str} (h : validateContentId value field = .ok ()) :
    IsContentId value := by
  simp only [validateContentId, Except.bind_eq_ok, Except.rejectIf_eq_ok] at h
  obtain ⟨_, hlen, h⟩ := h
  split at h
  · cases h
  · rename_i hnone
    have hbytes : ∀ b ∈ Str.utf8 value, 0x21 ≤ b.toNat ∧ b.toNat < 0x7F := by
      intro b hb
      have := List.find?_eq_none.mp hnone b hb
      simp only [isBadContentIdByte, Bool.not_eq_true, Bool.or_eq_false_iff, Bool.not_eq_false',
        Bool.and_eq_true, decide_eq_true_eq, UInt8.le_iff_toNat_le] at this
      exact ⟨this.1.1.1.1.1, Nat.lt_succ_of_le this.1.1.1.1.2⟩
    obtain ⟨hascii, hmap⟩ := Str.utf8_eq_map fun b hb => Nat.lt_succ_of_lt (hbytes b hb).2
    refine ⟨fun c hc => ?_, ?_⟩
    · have := hbytes (.ofNat c.toNat) (hmap ▸ List.mem_map_of_mem hc)
      rwa [Str.toNat_ofNat_ascii (hascii c hc)] at this
    · rintro rfl
      exact hlen (.inl rfl)

/-- A Content-ID that starts with a `cid:` scheme, in any case. -/
def HasCidScheme (id : Str) : Prop :=
  (Str.utf8 id).length ≥ 4 ∧ eqIgnoreAsciiCaseBytes ((Str.utf8 id).take 4) (Str.utf8 "cid:") = true

instance (id : Str) : Decidable (HasCidScheme id) := inferInstanceAs (Decidable (_ ∧ _))

/-- The reader takes the brackets off a Content-ID, and a `cid:` scheme. -/
theorem normalizedCidBytes_written {id : Str} (h : IsContentId id) :
    normalizedCidBytes (Str.utf8 ("<" ++ id ++ ">")) =
      Str.utf8 (if HasCidScheme id then id.drop 4 else id) := by
  have hmap := Str.utf8_of_ascii fun c hc => Nat.lt_succ_of_lt (h.ascii c hc).2
  have hwritten : Str.utf8 ("<" ++ id ++ ">") = 0x3C :: (Str.utf8 id ++ [0x3E]) := by
    rw [Str.utf8_append, Str.utf8_append]
    rfl
  have htrim : trimAsciiWhitespace (0x3C :: (Str.utf8 id ++ [0x3E])) =
      0x3C :: (Str.utf8 id ++ [0x3E]) := by
    rw [trimAsciiWhitespace, List.dropWhile_cons_of_neg (by decide), List.reverse_cons,
      List.reverse_append]
    simp only [List.reverse_cons, List.reverse_nil, List.nil_append, List.cons_append]
    rw [List.dropWhile_cons_of_neg (by decide)]
    simp
  have hopening : stripPrefixBytes (Str.utf8 "<") (0x3C :: (Str.utf8 id ++ [0x3E])) =
      some (Str.utf8 id ++ [0x3E]) := rfl
  have hclosing : stripSuffixBytes (Str.utf8 ">") (Str.utf8 id ++ [0x3E]) = some (Str.utf8 id) := by
    change stripSuffixBytes [0x3E] _ = _
    rw [stripSuffixBytes, if_pos (List.isSuffixOf_iff_suffix.mpr (List.suffix_append _ _))]
    simp
  unfold normalizedCidBytes
  simp only [hwritten, htrim, hopening, hclosing, Option.getD_some]
  by_cases hscheme : HasCidScheme id
  · have hdrop : Str.utf8 (id.drop 4) = (Str.utf8 id).drop 4 := by
      rw [hmap, Str.utf8_of_ascii fun c hc => Nat.lt_succ_of_lt
        (h.ascii c (List.mem_of_mem_drop hc)).2, List.map_drop]
    rw [if_pos hscheme, hdrop]
    exact if_pos hscheme
  · rw [if_neg hscheme]
    exact if_neg hscheme

/-! ## Clean lines -/

/-- A text without control characters. -/
def Clean (s : Str) : Prop := ∀ b ∈ Str.utf8 s, ¬ (b < 0x20 || b == 0x7F) = true

instance (s : Str) : Decidable (Clean s) :=
  decidable_of_iff ((Str.utf8 s).all fun b => decide (¬ (b < 0x20 || b == 0x7F) = true))
    ⟨List.forall_mem_of_all, fun h => List.all_eq_true.mpr fun b hb => decide_eq_true (h b hb)⟩

/-- `write_crlf_line` writes a clean line as it is. -/
theorem writeCrlfLine_of_clean {line : Str} (h : Clean line) (stage : Str) :
    writeCrlfLine line stage = .ok (Str.utf8 line ++ crlf) := by
  unfold writeCrlfLine
  rw [List.find?_eq_none.mpr h]

/-- `write_crlf_line` refuses a line that is not clean. -/
theorem clean_of_writeCrlfLine {line stage : Str} {r : Bytes} (h : writeCrlfLine line stage = .ok r) :
    Clean line := by
  unfold writeCrlfLine at h
  split at h
  · cases h
  · rename_i hnone
    exact List.find?_eq_none.mp hnone

/-- A text is clean when its pieces are. -/
theorem clean_append {s t : Str} : Clean (s ++ t) ↔ Clean s ∧ Clean t := by
  simp only [Clean, Str.utf8_append, List.mem_append]
  constructor
  · exact fun h => ⟨fun b hb => h b (.inl hb), fun b hb => h b (.inr hb)⟩
  · rintro ⟨hs, ht⟩ b (hb | hb)
    · exact hs b hb
    · exact ht b hb

/-- Printable ASCII is clean. -/
theorem clean_of_ascii {s : Str} (h : ∀ c ∈ s, 0x20 ≤ c.toNat ∧ c.toNat < 0x7F) : Clean s := by
  intro b hb
  rw [Str.utf8_of_ascii fun c hc => Nat.lt_succ_of_lt (h c hc).2] at hb
  obtain ⟨c, hc, rfl⟩ := List.mem_map.mp hb
  have hnat := Str.toNat_ofNat_ascii (c := c) (Nat.lt_succ_of_lt (h c hc).2)
  simp only [Bool.or_eq_true, decide_eq_true_eq, beq_iff_eq, UInt8.lt_iff_toNat_lt,
    ← UInt8.toNat_inj, hnat, not_or]
  have := h c hc
  constructor
  · change ¬ c.toNat < 0x20
    omega
  · change ¬ c.toNat = 0x7F
    omega

/-- A clean text has no line break in it. -/
theorem Clean.not_mem {s : Str} (h : Clean s) :
    (0x0D : UInt8) ∉ Str.utf8 s ∧ (0x0A : UInt8) ∉ Str.utf8 s :=
  ⟨fun hmem => h _ hmem (by decide), fun hmem => h _ hmem (by decide)⟩

/-- The octets of a header field. -/
theorem utf8_fieldText (name value : Str) : Str.utf8 (fieldText name value) = headerField name value := by
  rw [fieldText, Str.utf8_append, Str.utf8_append, headerField, List.append_assoc]
  rfl

/-- A clean header field is one line of the block. -/
theorem isLine_of_clean {name value : Str} (h : Clean (fieldText name value)) :
    IsLine (headerField name value) := by
  have hmem := h.not_mem
  rw [utf8_fieldText] at hmem
  exact ⟨headerField_ne_nil name value, hmem.1, hmem.2⟩

/-! ## Parts -/

/-- The header lines of a part. -/
def partTexts (a : MimeAttachment) : List Str :=
  [fieldText "Content-Type" a.contentType,
    fieldText "Content-Transfer-Encoding" a.transferEncoding,
    fieldText "Content-ID" ("<" ++ a.contentId ++ ">")] ++
      a.disposition.toList.map (fieldText "Content-Disposition")

@[inherit_doc partTexts]
def partLines (a : MimeAttachment) : List Bytes := (partTexts a).map Str.utf8

/-- No header line of the part has a control character. -/
def CleanPart (a : MimeAttachment) : Prop := ∀ text ∈ partTexts a, Clean text

/-- A part as the builder writes it. -/
def partBytes (a : MimeAttachment) : Bytes := endLines (partLines a) ++ (crlf ++ (a.body ++ crlf))

/-- A part is clean when its values are: the field names are constants. -/
theorem cleanPart_iff {a : MimeAttachment} :
    CleanPart a ↔ Clean a.contentType ∧ Clean a.transferEncoding ∧ Clean a.contentId ∧
      ∀ d ∈ a.disposition, Clean d := by
  have hfield : ∀ {name value : Str}, Clean name → (Clean (fieldText name value) ↔ Clean value) := by
    intro name value hname
    rw [fieldText, clean_append, clean_append]
    exact ⟨And.right, fun h => ⟨⟨hname, by decide⟩, h⟩⟩
  have hbrackets : Clean ("<" ++ a.contentId ++ ">") ↔ Clean a.contentId := by
    rw [clean_append, clean_append]
    exact ⟨fun h => h.1.2, fun h => ⟨⟨by decide, h⟩, by decide⟩⟩
  have htype : Clean "Content-Type" := by decide
  have hencoding : Clean "Content-Transfer-Encoding" := by decide
  have hid : Clean "Content-ID" := by decide
  have hdisposition : Clean "Content-Disposition" := by decide
  simp only [CleanPart, partTexts, List.forall_mem_append, List.forall_mem_cons, hfield htype,
    hfield hencoding, hfield hid, hbrackets, List.forall_mem_map, hfield hdisposition,
    Option.mem_toList]
  simp [and_assoc]

/-- The header lines of a clean part are lines of its block. -/
theorem CleanPart.isLine {a : MimeAttachment} (h : CleanPart a) :
    ∀ line ∈ partLines a, IsLine line := by
  intro line hline
  obtain ⟨text, htext, rfl⟩ := List.mem_map.mp hline
  have hclean := h text htext
  simp only [partTexts, List.cons_append, List.nil_append, List.mem_cons, List.mem_map] at htext
  rcases htext with rfl | rfl | rfl | ⟨_, -, rfl⟩ <;>
    · rw [utf8_fieldText]
      exact isLine_of_clean hclean

theorem partLines_ne_nil (a : MimeAttachment) : partLines a ≠ [] := by
  simp [partLines, partTexts]

private theorem fieldText_contentType (v : Str) :
    fieldText "Content-Type" v = "Content-Type: " ++ v := by
  simp [fieldText]

private theorem fieldText_encoding (v : Str) :
    fieldText "Content-Transfer-Encoding" v = "Content-Transfer-Encoding: " ++ v := by
  simp [fieldText]

private theorem fieldText_contentId (v : Str) :
    fieldText "Content-ID" ("<" ++ v ++ ">") = "Content-ID: <" ++ v ++ ">" := by
  simp [fieldText]

private theorem fieldText_disposition (v : Str) :
    fieldText "Content-Disposition" v = "Content-Disposition: " ++ v := by
  simp [fieldText]

/-- A clean part is written as its header lines, an empty line and its body. -/
theorem writeAttachment_of_clean {a : MimeAttachment} (h : CleanPart a) :
    writeAttachment a = .ok (partBytes a) := by
  have htype := writeCrlfLine_of_clean (h (fieldText "Content-Type" a.contentType)
    (by simp [partTexts])) "mime_packaging"
  have hencoding := writeCrlfLine_of_clean (h (fieldText "Content-Transfer-Encoding"
    a.transferEncoding) (by simp [partTexts])) "mime_packaging"
  have hid := writeCrlfLine_of_clean (h (fieldText "Content-ID" ("<" ++ a.contentId ++ ">"))
    (by simp [partTexts])) "mime_packaging"
  rw [fieldText_contentType] at htype
  rw [fieldText_encoding] at hencoding
  rw [fieldText_contentId] at hid
  rw [writeAttachment, Except.bind_eq_ok]
  refine ⟨_, htype, ?_⟩
  rw [Except.bind_eq_ok]
  refine ⟨_, hencoding, ?_⟩
  rw [Except.bind_eq_ok]
  refine ⟨_, hid, ?_⟩
  cases hdisposition : a.disposition with
  | none => simp [Except.pure_eq_ok, partBytes, endLines, partLines, partTexts, hdisposition, fieldText]
  | some d =>
    have hd := writeCrlfLine_of_clean (h (fieldText "Content-Disposition" d)
      (by simp [partTexts, hdisposition])) "mime_packaging"
    rw [fieldText_disposition] at hd
    dsimp only
    rw [Except.bind_eq_ok]
    refine ⟨_, hd, ?_⟩
    simp [Except.pure_eq_ok, partBytes, endLines, partLines, partTexts, hdisposition, fieldText]

/-- A part that is written is clean. -/
theorem cleanPart_of_writeAttachment {a : MimeAttachment} {r : Bytes}
    (h : writeAttachment a = .ok r) : CleanPart a := by
  simp only [writeAttachment, Except.bind_eq_ok] at h
  obtain ⟨_, htype, _, hencoding, _, hid, hrest⟩ := h
  intro text htext
  simp only [partTexts, List.cons_append, List.nil_append, List.mem_cons, List.mem_map,
    Option.mem_toList] at htext
  rcases htext with rfl | rfl | rfl | ⟨d, hd, rfl⟩
  · rw [fieldText_contentType]
    exact clean_of_writeCrlfLine htype
  · rw [fieldText_encoding]
    exact clean_of_writeCrlfLine hencoding
  · rw [fieldText_contentId]
    exact clean_of_writeCrlfLine hid
  · rw [Option.mem_def.mp hd] at hrest
    obtain ⟨_, hdisposition, -⟩ := Except.bind_eq_ok.mp hrest
    rw [fieldText_disposition]
    exact clean_of_writeCrlfLine hdisposition

/-! ## The body -/

open StreamingMimeParser

/-- What follows a part: the other parts with their delimiters, and the closing delimiter. -/
def remainingParts (boundary : Bytes) : List MimeAttachment → Bytes
  | [] => boundaryEnd boundary ++ crlf
  | a :: attachments =>
    boundaryStart boundary ++ (crlf ++ (partBytes a ++ remainingParts boundary attachments))

/-- The parser before these parts. -/
def parserAt (boundary : Bytes) : List MimeAttachment → StreamingMimeParser
  | [] => ⟨boundary, remainingParts boundary [], true⟩
  | a :: attachments => ⟨boundary, partBytes a ++ remainingParts boundary attachments, false⟩

/-- What is left of a body begins with a delimiter: of the next part, or the closing one. -/
theorem boundaryStart_prefix_remainingParts (boundary : Bytes) (attachments : List MimeAttachment) :
    ∃ rest, remainingParts boundary attachments = boundaryStart boundary ++ rest := by
  cases attachments with
  | nil => exact ⟨Str.utf8 "--" ++ crlf, by simp [remainingParts, boundaryEnd]⟩
  | cons a attachments => exact ⟨_, rfl⟩

/-- A part is read as it was written: its header block, and its body up to the delimiter. -/
theorem nextPartSlice_written {boundary : Bytes} {a : MimeAttachment}
    (attachments : List MimeAttachment) (hcr : (0x0D : UInt8) ∉ boundary) (ha : CleanPart a)
    (hbody : ¬ boundaryCrlf boundary <:+: a.body) :
    (parserAt boundary (a :: attachments)).nextPartSlice =
      .ok (some (⟨joinLines (partLines a), a.body⟩, parserAt boundary attachments)) := by
  have hheaders : cutHeaders (partBytes a ++ remainingParts boundary attachments) =
      some (joinLines (partLines a),
        a.body ++ (crlf ++ remainingParts boundary attachments)) := by
    have hcut := cutAt_blankLine (partLines_ne_nil a) ha.isLine
      (a.body ++ (crlf ++ remainingParts boundary attachments))
    rw [cutHeaders, partBytes]
    simp only [List.append_assoc] at hcut ⊢
    rw [hcut]
    simp [crlf]
  have hdelimiter : cutAt (boundaryCrlf boundary)
      (a.body ++ (crlf ++ remainingParts boundary attachments)) =
        some (a.body, crlf ++ remainingParts boundary attachments) := by
    obtain ⟨rest, hrest⟩ := boundaryStart_prefix_remainingParts boundary attachments
    have hneedle : (0x0D : UInt8) ∉ (0x0A :: boundaryStart boundary : Bytes) := by
      have : (0x0D : UInt8) ∉ Str.utf8 "--" := by decide
      simp only [boundaryStart, List.mem_cons, List.mem_append, not_or]
      exact ⟨by decide, this, hcr⟩
    rw [hrest]
    exact cutAt_needle hneedle hbody rest
  simp only [parserAt, nextPartSlice, Bool.false_eq_true, if_false, hheaders, Except.okOr, bind,
    Except.bind, hdelimiter, stripPrefixBytes_append]
  cases attachments with
  | nil =>
    have hend : (boundaryEnd boundary).isPrefixOf (remainingParts boundary []) = true :=
      List.isPrefixOf_iff_prefix.mpr (List.prefix_append _ _)
    simp only [hend, if_true]
    rfl
  | cons next rest =>
    have hend : (boundaryEnd boundary).isPrefixOf (remainingParts boundary (next :: rest)) =
        false := by
      rw [Bool.eq_false_iff, ne_eq, List.isPrefixOf_iff_prefix, boundaryEnd, remainingParts,
        List.prefix_append_right_inj]
      intro hprefix
      have := hprefix.head (by decide)
      revert this
      simp [crlf]
      decide
    have hstart : (boundaryStart boundary).isPrefixOf (remainingParts boundary (next :: rest)) =
        true := List.isPrefixOf_iff_prefix.mpr (List.prefix_append _ _)
    simp only [hend, hstart, Bool.false_eq_true, if_false, if_true]
    rw [remainingParts, List.drop_left, stripPrefixBytes_append]
    rfl

/-! ## What a part's headers say -/

theorem isName_contentType : IsName "Content-Type" := by
  refine ⟨⟨0x43, ?_, ?_⟩, ?_, ?_⟩ <;> decide

theorem isName_contentTransferEncoding : IsName "Content-Transfer-Encoding" := by
  refine ⟨⟨0x43, ?_, ?_⟩, ?_, ?_⟩ <;> decide

theorem isName_contentId : IsName "Content-ID" := by
  refine ⟨⟨0x43, ?_, ?_⟩, ?_, ?_⟩ <;> decide

/-- A header block is read line by line as it was written. -/
theorem headerValueFromBlock_written {a : MimeAttachment} (ha : CleanPart a) (name : Str) :
    headerValueFromBlock (joinLines (partLines a)) name =
      headerValueFromLines (Str.utf8 name) (headerField "Content-Type" a.contentType ::
        headerField "Content-Transfer-Encoding" a.transferEncoding ::
        headerField "Content-ID" ("<" ++ a.contentId ++ ">") ::
        a.disposition.toList.map (headerField "Content-Disposition")) := by
  have hlines : partLines a = headerField "Content-Type" a.contentType ::
      headerField "Content-Transfer-Encoding" a.transferEncoding ::
      headerField "Content-ID" ("<" ++ a.contentId ++ ">") ::
      a.disposition.toList.map (headerField "Content-Disposition") := by
    cases hd : a.disposition with
    | none => simp [partLines, partTexts, utf8_fieldText, hd]
    | some d => simp [partLines, partTexts, utf8_fieldText, hd]
  rw [headerValueFromBlock, headerValueFromLines_joinLines (partLines_ne_nil a) ha.isLine, hlines]

/-- The line of the media type of a clean part holds no carriage return. -/
theorem contentType_cr {a : MimeAttachment} (ha : CleanPart a) :
    (0x0D : UInt8) ∉ headerField "Content-Type" a.contentType := by
  have h := (ha (fieldText "Content-Type" a.contentType) (by simp [partTexts])).not_mem.1
  rwa [utf8_fieldText] at h

/-- The Content-ID of a part, without its brackets and without a scheme. -/
theorem contentIdFromBlock_written {a : MimeAttachment} (ha : CleanPart a)
    (hid : IsContentId a.contentId) :
    contentIdFromBlock (joinLines (partLines a)) =
      .ok ((some (if HasCidScheme a.contentId then a.contentId.drop 4 else a.contentId)).filter
        (· ≠ [])) := by
  have hencoding := (ha (fieldText "Content-Transfer-Encoding" a.transferEncoding)
    (by simp [partTexts])).not_mem.1
  have hcr := (ha (fieldText "Content-ID" ("<" ++ a.contentId ++ ">"))
    (by simp [partTexts])).not_mem.1
  rw [utf8_fieldText] at hencoding hcr
  have hvalue : headerValueFromBlock (joinLines (partLines a)) "Content-ID" =
      .ok (some ("<" ++ a.contentId ++ ">")) := by
    rw [headerValueFromBlock_written ha,
      headerValueFromLines_skip isName_contentType (by decide) _ _ (contentType_cr ha),
      headerValueFromLines_skip isName_contentTransferEncoding (by decide) _ _ hencoding]
    refine headerValueFromLines_hit isName_contentId (by decide) _ hcr ?_ ?_ ?_
    · rw [Str.utf8_append]
      simp [Str.utf8]
    · intro b hb
      rw [Str.utf8_append, Str.utf8_append] at hb
      cases hb
      decide
    · intro b hb
      rw [Str.utf8_append, List.getLast?_append_of_ne_nil _ (by decide)] at hb
      have hbracket : ∀ b ∈ (Str.utf8 ">").getLast?, isAsciiWhitespaceByte b = false :=
        Option.forall_mem_of_all (by decide)
      exact hbracket b hb
  have hascii : ¬ ¬ (("<" ++ a.contentId ++ ">" : Str).all Str.isAscii) = true := by
    rw [not_not, List.all_eq_true]
    intro c hc
    simp only [List.mem_append] at hc
    rcases hc with (hc | hc) | hc
    · exact List.all_eq_true.mp (by decide) c hc
    · exact decide_eq_true (Nat.lt_succ_of_lt (hid.ascii c hc).2)
    · exact List.all_eq_true.mp (by decide) c hc
  rw [contentIdFromBlock, hvalue]
  simp only [bind, Except.bind, Except.rejectIf, if_neg hascii, normalizedCidBytes_written hid,
    Str.fromUtf8_utf8]
  rfl

/-- Texts with CR LF between them. -/
def joinTexts : List Str → Str
  | [] => []
  | [text] => text
  | text :: texts => text ++ '\r' :: '\n' :: joinTexts texts

/-- Lines may be joined before or after they are encoded. -/
theorem joinLines_utf8 (texts : List Str) :
    joinLines (texts.map Str.utf8) = Str.utf8 (joinTexts texts) := by
  induction texts with
  | nil => rfl
  | cons text texts ih =>
    cases texts with
    | nil => rfl
    | cons next rest =>
      change Str.utf8 text ++ crlf ++ joinLines ((next :: rest).map Str.utf8) =
        Str.utf8 (text ++ '\r' :: '\n' :: joinTexts (next :: rest))
      rw [ih, Str.utf8_append, List.append_assoc]
      rfl

/-- A clean text has no newline. -/
theorem Clean.newline {s : Str} (h : Clean s) : '\n' ∉ s := by
  intro hmem
  exact h.not_mem.2 (List.mem_flatMap.mpr ⟨'\n', hmem, by decide⟩)

/-- The media type of a part. -/
theorem contentTypeFromBlock_written {a : MimeAttachment} (ha : CleanPart a)
    (ht : Str.IsVisible a.contentType) :
    contentTypeFromBlock (joinLines (partLines a)) = some a.contentType := by
  have hclean := ha (fieldText "Content-Type" a.contentType) (by simp [partTexts])
  have hsplit : Str.splitOnce ':' (fieldText "Content-Type" a.contentType) =
      some (Str.lit "Content-Type", ' ' :: a.contentType) := rfl
  rw [partLines, joinLines_utf8, contentTypeFromBlock, Str.fromUtf8_utf8]
  change ((Str.lines (fieldText "Content-Type" a.contentType ++ '\r' :: '\n' :: joinTexts _)).findSome?
    _) = _
  rw [Str.lines_append hclean.newline, List.findSome?_cons, hsplit]
  have hname : Str.eqIgnoreAsciiCase (Str.trim (Str.lit "Content-Type")) "content-type" = true := by
    decide
  simp only [Option.bind_eq_bind, Option.bind_some, hname, if_true, Str.trim_space_visible ht]

/-! ## All parts -/

/-- What the reader makes of a part after the root. -/
def readPart (session : SessionContext) (stage : Str) (a : MimeAttachment) :
    Result InboundAttachment := do
  let id := if HasCidScheme a.contentId then a.contentId.drop 4 else a.contentId
  let contentId ← Except.okOr ((some id).filter (· ≠ [])) ⟨.parseFailed,
    "an AS4 MIME part carries no Content-ID; it cannot be tied to eb:PartInfo",
    .forSession stage session⟩
  pure ⟨contentId, some a.contentType, a.body⟩

/-- What the round trip needs of a part. -/
structure IsPart (boundary : Bytes) (a : MimeAttachment) : Prop where
  id : IsContentId a.contentId
  type : Str.IsVisible a.contentType
  clean : CleanPart a
  body : ¬ boundaryCrlf boundary <:+: a.body

/-- The loop over the parts reads each part that was written, as far as its room allows. -/
theorem payloadParts_written (session : SessionContext) (stage : Str) {boundary : Bytes}
    (hcr : (0x0D : UInt8) ∉ boundary) {attachments : List MimeAttachment}
    (h : ∀ a ∈ attachments, IsPart boundary a) {room : Nat} (hroom : attachments.length ≤ room) :
    payloadParts session stage room (parserAt boundary attachments) =
      attachments.mapM (readPart session stage) := by
  -- each round reads one part and leaves the parser at the parts behind it
  induction attachments generalizing room with
  | nil =>
    rw [payloadParts]
    rfl
  | cons a attachments ih =>
    have ha := h a List.mem_cons_self
    obtain ⟨room, rfl⟩ : ∃ n, room = n + 1 := Nat.exists_eq_succ_of_ne_zero (by
      rw [List.length_cons] at hroom
      omega)
    have ih := @ih (fun b hb => h b (List.mem_cons_of_mem a hb)) room (by
      rw [List.length_cons] at hroom
      omega)
    rw [payloadParts, nextPartSlice_written attachments hcr ha.clean ha.body, List.mapM_cons]
    simp only [bind, Except.bind, contentIdFromBlock_written ha.clean ha.id,
      contentTypeFromBlock_written ha.clean ha.type, readPart]
    -- a Content-ID of which nothing is left without its scheme is refused on both sides
    cases Except.okOr ((some (if HasCidScheme a.contentId then a.contentId.drop 4
        else a.contentId)).filter (· ≠ [])) (⟨.parseFailed,
      "an AS4 MIME part carries no Content-ID; it cannot be tied to eb:PartInfo",
      .forSession stage session⟩ : AsxError) with
    | error e => rfl
    | ok id =>
      rw [ih]
      rfl

/-- A part comes back as it was when its Content-ID has no scheme. -/
theorem readPart_eq_ok_iff {session : SessionContext} {stage : Str} {a : MimeAttachment}
    (hid : IsContentId a.contentId) :
    readPart session stage a = .ok ⟨a.contentId, some a.contentType, a.body⟩ ↔
      ¬ HasCidScheme a.contentId := by
  by_cases hscheme : HasCidScheme a.contentId
  · simp only [readPart, hscheme, if_true, not_true, iff_false]
    intro h
    rw [Except.bind_eq_ok] at h
    obtain ⟨id, hsome, heq⟩ := h
    rw [Except.okOr_eq_ok, Option.filter_eq_some_iff, Option.some.injEq] at hsome
    rw [Except.pure_eq_ok, InboundAttachment.mk.injEq] at heq
    have hlen := congrArg List.length (hsome.1.trans heq.1)
    rw [List.length_drop] at hlen
    have := List.length_pos_iff.mpr hid.ne_nil
    omega
  · simp only [readPart, hscheme, if_false, not_false_eq_true, iff_true]
    have : (some a.contentId).filter (· ≠ []) = some a.contentId := by
      simp [Option.filter, hid.ne_nil]
    rw [this]
    rfl

/-! ## The boundary -/

/-- Letters, digits and hyphens, with no hyphen at the end. -/
structure IsBoundary (boundary : Str) : Prop where
  chars : ∀ c ∈ boundary, Str.isAsciiAlphanumeric c = true ∨ c = '-'
  last : ∃ c, boundary.getLast? = some c ∧ Str.isAsciiAlphanumeric c = true

/-- A hexadecimal digit is a letter or a digit of ASCII. -/
theorem isAsciiAlphanumeric_toDigits {n : Nat} :
    ∀ c ∈ Nat.toDigits 16 n, Str.isAsciiAlphanumeric c = true := by
  have hdigit : ∀ d < 16, Str.isAsciiAlphanumeric (Nat.digitChar d) = true := by decide
  induction n using Nat.strong_induction_on with
  | _ n ih =>
    intro c hc
    rw [Nat.toDigits_eq_if (by decide)] at hc
    split at hc
    · rename_i hlt
      rw [List.mem_singleton.mp hc]
      exact hdigit n hlt
    · rename_i hge
      rcases List.mem_append.mp hc with hc | hc
      · exact ih (n / 16) (by omega) c hc
      · rw [List.mem_singleton.mp hc]
        exact hdigit _ (Nat.mod_lt _ (by decide))

/-- So are the sixteen digits of a random number in a boundary. -/
theorem isAsciiAlphanumeric_hex16 {n : UInt64} {c : Char} (hc : c ∈ MimePackageBuilder.hex16 n) :
    Str.isAsciiAlphanumeric c = true := by
  rw [MimePackageBuilder.hex16, List.leftpad, List.mem_append] at hc
  rcases hc with hc | hc
  · rw [List.eq_of_mem_replicate hc]
    decide
  · exact isAsciiAlphanumeric_toDigits c hc

/-- A builder's boundary is one that the reader accepts in a `Content-Type`. -/
theorem isBoundary_new (random counter : UInt64) :
    IsBoundary (MimePackageBuilder.new random counter).boundary := by
  have hhex : ∀ c ∈ MimePackageBuilder.hex16 (random + counter),
      Str.isAsciiAlphanumeric c = true := fun c => isAsciiAlphanumeric_hex16
  have hne : MimePackageBuilder.hex16 (random + counter) ≠ [] := by
    rw [MimePackageBuilder.hex16, List.leftpad, ne_eq, List.append_eq_nil_iff]
    exact fun h => Nat.toDigits_ne_nil h.2
  have hprefix : ∀ c ∈ mimeBoundaryPrefix, Str.isAsciiAlphanumeric c = true ∨ c = '-' :=
    List.forall_mem_of_all (by decide)
  refine ⟨fun c hc => ?_, _, ?_, hhex _ (List.getLast_mem hne)⟩
  · rcases List.mem_append.mp hc with hc | hc
    · exact hprefix c hc
    · exact .inl (hhex c hc)
  · change (mimeBoundaryPrefix ++ MimePackageBuilder.hex16 (random + counter)).getLast? = _
    rw [List.getLast?_append_of_ne_nil _ hne, List.getLast?_eq_getLast_of_ne_nil hne]

/-- What a boundary is made of. -/
theorem IsBoundary.char {boundary : Str} (h : IsBoundary boundary) {c : Char} (hc : c ∈ boundary) :
    0x2D ≤ c.toNat ∧ c.toNat < 0x7F ∧ c ≠ ';' ∧ c ≠ '"' := by
  rcases h.chars c hc with halnum | rfl
  · have hnum : 0x30 ≤ c.toNat ∧ c.toNat < 0x7F ∧ c.toNat ≠ 0x3B := by
      simp only [Str.isAsciiAlphanumeric, Str.isAsciiAlphabetic, Str.isAsciiDigit, Bool.or_eq_true,
        Bool.and_eq_true, decide_eq_true_eq, Char.le_def, UInt32.le_iff_toNat_le] at halnum
      change _ ≤ c.val.toNat ∧ c.val.toNat < _ ∧ c.val.toNat ≠ _
      rcases halnum with (⟨h₁, h₂⟩ | ⟨h₁, h₂⟩) | ⟨h₁, h₂⟩
      · have h₁ : 0x61 ≤ c.val.toNat := h₁
        have h₂ : c.val.toNat ≤ 0x7A := h₂
        omega
      · have h₁ : 0x41 ≤ c.val.toNat := h₁
        have h₂ : c.val.toNat ≤ 0x5A := h₂
        omega
      · have h₁ : 0x30 ≤ c.val.toNat := h₁
        have h₂ : c.val.toNat ≤ 0x39 := h₂
        omega
    refine ⟨by omega, hnum.2.1, ?_, ?_⟩
    · rintro rfl
      exact hnum.2.2 rfl
    · rintro rfl
      have := hnum.1
      revert this
      decide
  · decide

/-- A boundary is not empty. -/
theorem IsBoundary.ne_nil {boundary : Str} (h : IsBoundary boundary) : boundary ≠ [] := by
  rintro rfl
  obtain ⟨c, hc, -⟩ := h.last
  cases hc

/-- A boundary is visible text: it neither begins nor ends with a space. -/
theorem IsBoundary.visible {boundary : Str} (h : IsBoundary boundary) : Str.IsVisible boundary := by
  refine ⟨fun c hc => ?_, h.ne_nil, fun hhead => ?_, fun hlast => ?_⟩
  · have := h.char hc
    omega
  · have := (h.char (List.mem_of_head? hhead)).1
    revert this
    decide
  · have := (h.char (List.mem_of_getLast? hlast)).1
    revert this
    decide

/-- A boundary is clean. -/
theorem IsBoundary.clean {boundary : Str} (h : IsBoundary boundary) : Clean boundary :=
  clean_of_ascii h.visible.ascii

/-- The reader finds the boundary in the `Content-Type` of the package. -/
theorem parseMultipartBoundaryFromContentType_written {boundary : Str} (h : IsBoundary boundary) :
    parseMultipartBoundaryFromContentType ("multipart/related; boundary=\"" ++ boundary ++
      "\"; type=\"" ++ Str.lit "application/soap+xml" ++ "\"") = .ok (some boundary) := by
  have hquoted : Str.IsVisible ('"' :: (boundary ++ ['"'])) := by
    refine ⟨fun c hc => ?_, by simp, by simp, ?_⟩
    · simp only [List.mem_cons, List.mem_append, List.not_mem_nil, or_false] at hc
      rcases hc with rfl | hc | rfl
      · decide
      · exact h.visible.ascii c hc
      · decide
    · rw [← List.cons_append, List.getLast?_append_of_ne_nil _ (by simp)]
      decide
  have hparameter : Str.IsVisible ("boundary=" ++ '"' :: (boundary ++ ['"'])) := by
    have hname : ∀ c ∈ Str.lit "boundary=", 0x20 ≤ c.toNat ∧ c.toNat < 0x7F :=
      List.forall_mem_of_all (by decide)
    refine ⟨fun c hc => ?_, by simp, by simp, ?_⟩
    · rcases List.mem_append.mp hc with hc | hc
      · exact hname c hc
      · exact hquoted.ascii c hc
    · rw [List.getLast?_append_of_ne_nil _ (by simp)]
      exact hquoted.last
  have htext : ("multipart/related; boundary=\"" ++ boundary ++ "\"; type=\"" ++
      Str.lit "application/soap+xml" ++ "\"" : Str) = Str.lit "multipart/related" ++ ';' ::
        ((' ' :: ("boundary=" ++ '"' :: (boundary ++ ['"']))) ++ ';' ::
          (Str.lit " type=\"application/soap+xml\"")) := by
    simp [Str.lit, Str.written]
  have hsemicolon : ';' ∉ (' ' :: ("boundary=" ++ '"' :: (boundary ++ ['"'])) : Str) := by
    have hname : ';' ∉ Str.lit "boundary=" := by decide
    simp only [List.mem_cons, List.mem_append, List.not_mem_nil, or_false, not_or]
    exact ⟨by decide, hname, by decide, fun hc => (h.char hc).2.2.1 rfl, by decide⟩
  have hrelated : Str.eqIgnoreAsciiCase (Str.trim (Str.lit "multipart/related"))
      "multipart/related" = true := by decide
  have hboundary : Str.eqIgnoreAsciiCase (Str.trim (Str.lit "boundary")) "boundary" = true := by
    decide
  have hsplit : Str.splitOnce '=' ("boundary=" ++ '"' :: (boundary ++ ['"'])) =
      some (Str.lit "boundary", '"' :: (boundary ++ ['"'])) := rfl
  have hstrip : (Str.stripPrefix "\"" ('"' :: (boundary ++ ['"']))).bind (Str.stripSuffix "\"") =
      some boundary := by
    change Str.stripSuffix ['"'] (boundary ++ ['"']) = _
    rw [Str.stripSuffix, if_pos (List.isSuffixOf_iff_suffix.mpr (List.suffix_append _ _))]
    simp
  have hdashes : ¬ ("--" : Str).isSuffixOf boundary = true := by
    intro hsuffix
    obtain ⟨t, rfl⟩ := List.isSuffixOf_iff_suffix.mp hsuffix
    obtain ⟨c, hc, halnum⟩ := h.last
    rw [List.getLast?_append_of_ne_nil _ (by decide)] at hc
    cases hc
    revert halnum
    decide
  rw [htext, parseMultipartBoundaryFromContentType, Str.splitChar_append (by decide),
    Str.splitChar_append hsemicolon]
  simp only [hrelated, if_true, boundaryParameter, Str.trim_space_visible hparameter, hsplit,
    Option.getD_some, hboundary, Str.trim_visible hquoted, hstrip, Str.trim_visible h.visible,
    Except.rejectIf, if_neg h.ne_nil, if_neg hdashes, bind, Except.bind]
  rfl

/-! ## The package -/

/-- The root part. -/
def soapPart (soapXml : Bytes) : MimeAttachment where
  contentId := "soap-body@example.com"
  contentType := "application/soap+xml; charset=UTF-8"
  transferEncoding := "8bit"
  body := soapXml

/-- The builder with a SOAP body and attachments. -/
def packageOf (random counter : UInt64) (soapXml : Bytes) (attachments : List MimeAttachment) :
    MimePackageBuilder :=
  ((MimePackageBuilder.new random counter).withSoapBody soapXml).addAttachments attachments

/-- The delimiter of a package that starts a line. -/
def MimePackageBuilder.delimiter (b : MimePackageBuilder) : Bytes :=
  boundaryCrlf (Str.utf8 b.boundary)

/-- The part of the SOAP envelope is clean, whatever the envelope holds. -/
theorem cleanPart_soapPart (soapXml : Bytes) : CleanPart (soapPart soapXml) := by
  have htype : Clean "application/soap+xml; charset=UTF-8" :=
    clean_of_ascii (List.forall_mem_of_all (by decide))
  have hencoding : Clean "8bit" := by decide
  have hid : Clean "soap-body@example.com" := clean_of_ascii (List.forall_mem_of_all (by decide))
  have hdisposition : ∀ d ∈ (soapPart soapXml).disposition, Clean d := by
    intro d hd
    cases hd
  exact cleanPart_iff.mpr ⟨htype, hencoding, hid, hdisposition⟩

/-- The parts of a package, one after the other with their delimiters. -/
theorem flatten_parts (boundary : Bytes) (attachments : List MimeAttachment) :
    (attachments.map fun a => boundaryStart boundary ++ crlf ++ partBytes a).flatten ++
      (boundaryEnd boundary ++ crlf) = remainingParts boundary attachments := by
  induction attachments with
  | nil => rfl
  | cons a attachments ih =>
    rw [List.map_cons, List.flatten_cons, List.append_assoc, ih, remainingParts]
    simp

section

variable {random counter : UInt64} {soapXml : Bytes} {attachments : List MimeAttachment}

/-- `write_part` writes the delimiter and the clean part behind it. -/
theorem writePart_of_clean {b : MimePackageBuilder} (hb : IsBoundary b.boundary)
    {a : MimeAttachment} (ha : CleanPart a) :
    b.writePart a = .ok (boundaryStart (Str.utf8 b.boundary) ++ crlf ++ partBytes a) := by
  have hline : Clean ("--" ++ b.boundary) := clean_append.mpr ⟨by decide, hb.clean⟩
  rw [MimePackageBuilder.writePart, writeCrlfLine_of_clean hline, writeAttachment_of_clean ha,
    Str.utf8_append]
  rfl

/-- `build` with clean attachments succeeds; the SOAP part comes first. -/
theorem build_of_clean (h : ∀ a ∈ attachments, CleanPart a) :
    (packageOf random counter soapXml attachments).build = .ok (remainingParts
      (Str.utf8 (packageOf random counter soapXml attachments).boundary)
      (soapPart soapXml :: attachments)) := by
  have hb : IsBoundary (packageOf random counter soapXml attachments).boundary :=
    isBoundary_new random counter
  have hclosing : Clean ("--" ++ (packageOf random counter soapXml attachments).boundary ++ "--") :=
    clean_append.mpr ⟨clean_append.mpr ⟨by decide, hb.clean⟩, by decide⟩
  have hparts : attachments.mapM (packageOf random counter soapXml attachments).writePart =
      .ok (attachments.map fun a => boundaryStart
        (Str.utf8 (packageOf random counter soapXml attachments).boundary) ++ crlf ++
          partBytes a) := by
    rw [Except.mapM_eq_ok, List.forall₂_map_right_iff, List.forall₂_same]
    exact fun a ha => writePart_of_clean hb (h a ha)
  have hroot : (packageOf random counter soapXml attachments).soapAttachment =
    some (soapPart soapXml) := rfl
  have hattachments : (packageOf random counter soapXml attachments).attachments = attachments :=
    rfl
  rw [MimePackageBuilder.build, hroot, hattachments]
  simp only [Except.okOr, bind, Except.bind, writePart_of_clean hb (cleanPart_soapPart soapXml),
    hparts, writeCrlfLine_of_clean hclosing]
  rw [← flatten_parts, List.map_cons, List.flatten_cons, Str.utf8_append, Str.utf8_append]
  simp [boundaryEnd, boundaryStart, pure, Except.pure]

/-- `build` succeeds with clean attachments only. -/
theorem clean_of_build {body : Bytes}
    (h : (packageOf random counter soapXml attachments).build = .ok body) :
    ∀ a ∈ attachments, CleanPart a := by
  simp only [MimePackageBuilder.build, Except.bind_eq_ok] at h
  obtain ⟨_, -, _, -, parts, hparts, -⟩ := h
  intro a ha
  obtain ⟨part, -, hpart⟩ := (Except.mapM_eq_ok.mp hparts).exists_right ha
  simp only [MimePackageBuilder.writePart, Except.bind_eq_ok] at hpart
  obtain ⟨_, -, _, hwrite, -⟩ := hpart
  exact cleanPart_of_writeAttachment hwrite

/-- Reading a package: the SOAP body, and what is made of each attachment. -/
theorem extract_written (session : SessionContext) (stage : Str)
    (hcount : attachments.length ≤ maxInboundPayloads)
    (hsoap : ¬ (packageOf random counter soapXml attachments).delimiter <:+: soapXml)
    (h : ∀ a ∈ attachments, IsPart
      (Str.utf8 (packageOf random counter soapXml attachments).boundary) a) :
    extractMultipartRelatedPayloadIfPresent (remainingParts
        (Str.utf8 (packageOf random counter soapXml attachments).boundary)
        (soapPart soapXml :: attachments))
        (packageOf random counter soapXml attachments).contentType session stage =
      (attachments.mapM (readPart session stage)).map fun payloads => some ⟨soapXml, payloads⟩ := by
  have hb : IsBoundary (packageOf random counter soapXml attachments).boundary :=
    isBoundary_new random counter
  revert hsoap h
  unfold MimePackageBuilder.delimiter
  have hcontentType : (packageOf random counter soapXml attachments).contentType =
      "multipart/related; boundary=\"" ++ (packageOf random counter soapXml attachments).boundary ++
        "\"; type=\"" ++ Str.lit "application/soap+xml" ++ "\"" := rfl
  rw [hcontentType]
  generalize (packageOf random counter soapXml attachments).boundary = boundary at hb
  intro hsoap h
  have hcr : (0x0D : UInt8) ∉ Str.utf8 boundary := hb.clean.not_mem.1
  have hclean := cleanPart_soapPart soapXml
  have hnew : StreamingMimeParser.new
      (remainingParts (Str.utf8 boundary) (soapPart soapXml :: attachments)) boundary =
        .ok (parserAt (Str.utf8 boundary) (soapPart soapXml :: attachments)) := by
    have hprefix : (boundaryStart (Str.utf8 boundary)).isPrefixOf
        (remainingParts (Str.utf8 boundary) (soapPart soapXml :: attachments)) = true :=
      List.isPrefixOf_iff_prefix.mpr (List.prefix_append _ _)
    simp only [StreamingMimeParser.new, hprefix, if_true, bind, Except.bind, pure, Except.pure]
    rw [remainingParts, List.drop_left, stripPrefixBytes_append]
    rfl
  have htype : headerValueFromBlock (joinLines (partLines (soapPart soapXml))) "Content-Type" =
      .ok (some "application/soap+xml; charset=UTF-8") := by
    rw [headerValueFromBlock_written hclean]
    have hvalue : Str.utf8 "application/soap+xml; charset=UTF-8" ≠ [] := by decide
    have hhead : ∀ b ∈ (Str.utf8 "application/soap+xml; charset=UTF-8").head?,
        isAsciiWhitespaceByte b = false := Option.forall_mem_of_all (by decide)
    have hlast : ∀ b ∈ (Str.utf8 "application/soap+xml; charset=UTF-8").getLast?,
        isAsciiWhitespaceByte b = false := Option.forall_mem_of_all (by decide)
    exact headerValueFromLines_hit isName_contentType (by decide) _ (contentType_cr hclean) hvalue
      hhead hlast
  have hsoapType : Str.eqIgnoreAsciiCase (Str.trim ((Str.splitChar ';'
      "application/soap+xml; charset=UTF-8").headD [])) "application/soap+xml" = true := by decide
  unfold extractMultipartRelatedPayloadIfPresent
  simp only [parseMultipartBoundaryFromContentType_written hb, bind, Except.bind, hnew,
    nextPartSlice_written attachments hcr hclean hsoap, Except.okOr, htype, hsoapType, not_true,
    false_and, Except.rejectIf, if_false, payloadParts_written session stage hcr h hcount]
  cases attachments.mapM (readPart session stage) with
  | error e => rfl
  | ok payloads => rfl

/-- Content-ID and Content-Type of a part that passed their checks have no control character, so
    only the other header values decide whether the builder writes it. -/
theorem cleanPart_checked {a : MimeAttachment} (hid : IsContentId a.contentId)
    (htype : Str.IsVisible a.contentType) :
    CleanPart a ↔ Clean a.transferEncoding ∧ ∀ d ∈ a.disposition, Clean d := by
  have hcleanId : Clean a.contentId :=
    clean_of_ascii fun c hc => ⟨Nat.le_of_succ_le (hid.ascii c hc).1, (hid.ascii c hc).2⟩
  have hcleanType : Clean a.contentType := clean_of_ascii htype.ascii
  rw [cleanPart_iff]
  exact ⟨fun h => ⟨h.2.1, h.2.2.2⟩, fun h => ⟨hcleanType, h.1, hcleanId, h.2⟩⟩

end

/-- Packaging and reading back gives the SOAP body and the attachments, in order and unchanged,
    exactly when no Content-ID has a `cid:` scheme of its own and the builder accepts the header
    values that are not checked before it. -/
theorem extractMultipartRelatedPayloadIfPresent_build_iff (random counter : UInt64)
    (soapXml : Bytes) (attachments : List MimeAttachment) (session : SessionContext)
    (stage idField typeField : Str) (hcount : attachments.length ≤ maxInboundPayloads)
    (hids : ∀ a ∈ attachments, validateContentId a.contentId idField = .ok ())
    (htypes : ∀ a ∈ attachments, validateMediaType a.contentType typeField = .ok ())
    (hsoap : ¬ (packageOf random counter soapXml attachments).delimiter <:+: soapXml)
    (hbodies : ∀ a ∈ attachments,
      ¬ (packageOf random counter soapXml attachments).delimiter <:+: a.body) :
    ((packageOf random counter soapXml attachments).build >>= fun body =>
        extractMultipartRelatedPayloadIfPresent body
          (packageOf random counter soapXml attachments).contentType session stage) =
      .ok (some ⟨soapXml, attachments.map fun a => ⟨a.contentId, some a.contentType, a.body⟩⟩) ↔
    ∀ a ∈ attachments, ¬ HasCidScheme a.contentId ∧ Clean a.transferEncoding ∧
      ∀ d ∈ a.disposition, Clean d := by
  have hid : ∀ a ∈ attachments, IsContentId a.contentId := fun a ha => validateContentId_ok (hids a ha)
  have htype : ∀ a ∈ attachments, Str.IsVisible a.contentType :=
    fun a ha => validateMediaType_ok (htypes a ha)
  -- Once every part is clean, the package is the one that the reader's lemma is about.
  have hread : (∀ a ∈ attachments, CleanPart a) →
      (((packageOf random counter soapXml attachments).build >>= fun body =>
          extractMultipartRelatedPayloadIfPresent body
            (packageOf random counter soapXml attachments).contentType session stage) =
        .ok (some ⟨soapXml, attachments.map fun a => ⟨a.contentId, some a.contentType, a.body⟩⟩) ↔
      ∀ a ∈ attachments, ¬ HasCidScheme a.contentId) := by
    intro hclean
    have hparts : ∀ a ∈ attachments, IsPart
        (Str.utf8 (packageOf random counter soapXml attachments).boundary) a :=
      fun a ha => ⟨hid a ha, htype a ha, hclean a ha, hbodies a ha⟩
    simp only [build_of_clean hclean, Except.bind_eq_ok, Except.ok.injEq, exists_eq_left']
    rw [extract_written session stage hcount hsoap hparts, Except.map_eq_ok]
    constructor
    · rintro ⟨payloads, hpayloads, heq⟩ a ha
      cases heq
      rw [Except.mapM_eq_ok, List.forall₂_map_right_iff, List.forall₂_same] at hpayloads
      exact (readPart_eq_ok_iff (hid a ha)).mp (hpayloads a ha)
    · intro h
      refine ⟨_, ?_, rfl⟩
      rw [Except.mapM_eq_ok, List.forall₂_map_right_iff, List.forall₂_same]
      exact fun a ha => (readPart_eq_ok_iff (hid a ha)).mpr (h a ha)
  constructor
  · intro h a ha
    obtain ⟨body, hbuild, -⟩ := Except.bind_eq_ok.mp h
    have hclean := clean_of_build hbuild
    exact ⟨(hread hclean).mp h a ha, (cleanPart_checked (hid a ha) (htype a ha)).mp (hclean a ha)⟩
  · intro h
    have hclean : ∀ a ∈ attachments, CleanPart a :=
      fun a ha => (cleanPart_checked (hid a ha) (htype a ha)).mpr (h a ha).2
    exact (hread hclean).mpr fun a ha => (h a ha).1

/-- A package of one attachment. -/
def invoicePart : MimeAttachment where
  contentId := "p@x"
  contentType := "application/xml"
  transferEncoding := "binary"
  body := Str.utf8 "<a/>"

/-- A package with an invoice. -/
theorem extractMultipartRelatedPayloadIfPresent_build_invoicePart :
    ((packageOf 0 0 (Str.utf8 "<s/>") [invoicePart]).build >>= fun body =>
        extractMultipartRelatedPayloadIfPresent body
          (packageOf 0 0 (Str.utf8 "<s/>") [invoicePart]).contentType ⟨"s", "p", true⟩ "t") =
      .ok (some ⟨Str.utf8 "<s/>", [⟨"p@x", some "application/xml", Str.utf8 "<a/>"⟩]⟩) :=
  (extractMultipartRelatedPayloadIfPresent_build_iff 0 0 (Str.utf8 "<s/>") [invoicePart]
    ⟨"s", "p", true⟩ "t" "id" "type" (by decide) (by decide +kernel) (by decide +kernel) (by decide +kernel)
    (by decide +kernel)).mpr (by decide +kernel)

/-- A Content-ID that the check accepts, and that the reader takes a scheme off. -/
def schemePart : MimeAttachment := { invoicePart with contentId := "cid:x" }

/-- A Content-ID with a scheme passes both checks and comes back without it. -/
theorem extractMultipartRelatedPayloadIfPresent_build_schemePart :
    validateContentId schemePart.contentId "payload.content_id" = .ok () ∧
    validateMediaType schemePart.contentType "payload.content_type" = .ok () ∧
    ((packageOf 0 0 (Str.utf8 "<s/>") [schemePart]).build >>= fun body =>
        extractMultipartRelatedPayloadIfPresent body
          (packageOf 0 0 (Str.utf8 "<s/>") [schemePart]).contentType ⟨"s", "p", true⟩ "t") =
      .ok (some ⟨Str.utf8 "<s/>", [⟨"x", some "application/xml", Str.utf8 "<a/>"⟩]⟩) := by
  decide +kernel

end Asx
