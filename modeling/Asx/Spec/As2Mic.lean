import Asx.Spec.MediaType
import Asx.Spec.MimeLines

/-!
# The octets of an AS2 entity

Sender and receiver digest the same octets when MIME line-ending canonicalization leaves the
entity alone. Content that is sent as base64 always has this property. Content that is sent as it
is has it when its line ends are CRLF pairs, and `content_requires_base64` does not look at that.

## Main results
- `canonicalLineEnds_eq_self_iff`: the fixed points of canonicalization
- `content_written`, `headerValue_written`: a written entity is read back
- `buildOutboundEntity_canonical_iff`: which contents give a fixed point
-/

namespace Asx

/-! ## Line ends -/

/-- MIME line-ending canonicalization: a bare CR or LF becomes a CRLF pair. -/
def canonicalLineEnds : Bytes → Bytes
  | [] => []
  | 0x0D :: 0x0A :: s => 0x0D :: 0x0A :: canonicalLineEnds s
  | 0x0D :: s => 0x0D :: 0x0A :: canonicalLineEnds s
  | 0x0A :: s => 0x0D :: 0x0A :: canonicalLineEnds s
  | b :: s => b :: canonicalLineEnds s

/-- Every CR and every LF stands in a CRLF pair. -/
def CrlfPaired : Bytes → Prop
  | [] => True
  | 0x0D :: 0x0A :: s => CrlfPaired s
  | b :: s => b ≠ 0x0D ∧ b ≠ 0x0A ∧ CrlfPaired s

theorem crlfPaired_cons {b : UInt8} {s : Bytes} (h : ∀ s', b = 0x0D → s = 0x0A :: s' → False) :
    CrlfPaired (b :: s) ↔ b ≠ 0x0D ∧ b ≠ 0x0A ∧ CrlfPaired s := by
  rw [CrlfPaired]
  exact fun s' hb hs => h s' hb hs

/-- The normalization changes nothing where each line end is a pair. -/
theorem canonicalLineEnds_eq_self_iff (s : Bytes) : canonicalLineEnds s = s ↔ CrlfPaired s := by
  fun_induction canonicalLineEnds s with
  | case1 => simp [CrlfPaired]
  | case2 s ih => simp [CrlfPaired, ih]
  | case3 s hnot ih =>
    rw [crlfPaired_cons fun s' _ hs => hnot s' hs]
    simp only [List.cons.injEq, true_and, ne_eq, not_true, false_and, iff_false]
    exact fun heq => hnot _ heq.symm
  | case4 s ih =>
    rw [crlfPaired_cons (by simp)]
    simp
  | case5 b s hpair hcr hlf ih =>
    rw [crlfPaired_cons hpair, List.cons.injEq, ih]
    exact ⟨fun h => ⟨hcr, hlf, h.2⟩, fun h => ⟨rfl, h.2.2⟩⟩

/-- Paired text may stand in front of any other. -/
theorem crlfPaired_append {s t : Bytes} (h : CrlfPaired s) : CrlfPaired (s ++ t) ↔ CrlfPaired t := by
  fun_induction CrlfPaired s with
  | case1 => rfl
  | case2 s ih => exact ih h
  | case3 b s hpair ih =>
    rw [List.cons_append, crlfPaired_cons fun _ hb _ => h.1 hb, ih h.2.2]
    exact ⟨fun h' => h'.2.2, fun h' => ⟨h.1, h.2.1, h'⟩⟩

theorem crlfPaired_of_not_mem {s : Bytes} (hcr : (0x0D : UInt8) ∉ s) (hlf : (0x0A : UInt8) ∉ s) :
    CrlfPaired s := by
  induction s with
  | nil => trivial
  | cons b s ih =>
    rw [List.mem_cons, not_or] at hcr hlf
    rw [crlfPaired_cons fun _ hb _ => hcr.1 hb.symm]
    exact ⟨Ne.symm hcr.1, Ne.symm hlf.1, ih hcr.2 hlf.2⟩

/-- Printable text has no line end. -/
theorem crlfPaired_utf8 {s : Str} (h : ∀ c ∈ s, 0x20 ≤ c.toNat ∧ c.toNat < 0x7F) :
    CrlfPaired (Str.utf8 s) := by
  exact crlfPaired_of_not_mem (fun hm => absurd (Str.toNat_of_mem_utf8 h _ hm) (by decide))
    fun hm => absurd (Str.toNat_of_mem_utf8 h _ hm) (by decide)

/-- Folded base64 has no bare line end. -/
theorem crlfPaired_wrapBase64Lines (content : Bytes) :
    CrlfPaired (Str.utf8 (wrapBase64Lines (Base64.encode content))) := by
  refine List.intercalate_induction (P := fun s => CrlfPaired (Str.utf8 s)) trivial ?_ ?_ ?_
  · intro s t hs ht
    rw [Str.utf8_append, crlfPaired_append hs]
    exact ht
  · change CrlfPaired [0x0D, 0x0A]
    trivial
  · intro piece hpiece
    refine crlfPaired_utf8 fun c hc => ?_
    have hmem : c ∈ Base64.encode content := by
      have hflat : ((Base64.encode content).chunks 76).flatten = Base64.encode content :=
        List.flatten_chunks (by decide) _
      rw [← hflat]
      exact List.mem_flatten.mpr ⟨piece, hpiece, hc⟩
    have := Base64.visible_of_mem_encode hmem
    omega

/-! ## The header block -/

/-- Paired text has no empty line of bare line feeds. -/
theorem not_lfLf_of_crlfPaired {s : Bytes} (h : CrlfPaired s) : ¬ [0x0A, 0x0A] <:+: s := by
  fun_induction CrlfPaired s with
  | case1 => simp
  | case2 s ih =>
    rw [List.infix_cons_iff, List.infix_cons_iff, not_or, not_or]
    refine ⟨by simp, fun hprefix => ?_, ih h⟩
    obtain ⟨t, ht⟩ := hprefix
    cases ht
    exact ((crlfPaired_cons (by simp)).mp h).2.1 rfl
  | case3 b s hpair ih =>
    rw [List.infix_cons_iff, not_or]
    refine ⟨fun hprefix => ?_, ih h.2.2⟩
    obtain ⟨t, ht⟩ := hprefix
    cases ht
    exact h.2.1 rfl

/-- Header lines are paired. -/
theorem crlfPaired_endLines {lines : List Bytes} (h : ∀ line ∈ lines, IsLine line) :
    CrlfPaired (endLines lines) := by
  induction lines with
  | nil => trivial
  | cons line lines ih =>
    have hline := h line List.mem_cons_self
    change CrlfPaired (line ++ crlf ++ endLines lines)
    rw [List.append_assoc, crlfPaired_append (crlfPaired_of_not_mem hline.cr hline.lf)]
    exact ih fun l hl => h l (List.mem_cons_of_mem line hl)

theorem length_endLines {lines : List Bytes} (hne : lines ≠ []) :
    (endLines lines).length = (joinLines lines).length + 2 := by
  induction lines with
  | nil => exact absurd rfl hne
  | cons line lines ih =>
    cases lines with
    | nil => simp [endLines, joinLines, crlf]
    | cons next rest =>
      change (line ++ crlf ++ endLines (next :: rest)).length = _
      have hjoin : joinLines (line :: next :: rest) = line ++ crlf ++ joinLines (next :: rest) := rfl
      simp only [List.length_append, ih (by simp), hjoin]
      omega

/-- The content of an entity starts after the blank line, whatever it starts with. -/
theorem findMimeHeaderBreak_written {lines : List Bytes} (hne : lines ≠ [])
    (h : ∀ line ∈ lines, IsLine line) (content : Bytes) :
    findMimeHeaderBreak (endLines lines ++ (crlf ++ content)) =
      some (endLines lines ++ crlf).length := by
  have hcrlf : (cutAt [0x0D, 0x0A, 0x0D, 0x0A] (endLines lines ++ (crlf ++ content))).map
      (fun r => r.1.length + 4) = some (endLines lines ++ crlf).length := by
    change (cutAt (crlf ++ crlf) _).map _ = _
    rw [cutAt_blankLine hne h, Option.map_some, List.length_append, length_endLines hne]
    rfl
  unfold findMimeHeaderBreak
  rw [hcrlf]
  cases hlf : cutAt [0x0A, 0x0A] (endLines lines ++ (crlf ++ content)) with
  | none => rfl
  | some r =>
    have hpaired : CrlfPaired (endLines lines ++ crlf) :=
      (crlfPaired_append (crlfPaired_endLines h)).mpr trivial
    rw [← List.append_assoc] at hlf
    have hlt := length_lt_of_cutAt (not_lfLf_of_crlfPaired hpaired) hlf
    rw [Option.map_some]
    dsimp only
    rw [Nat.min_eq_left]
    exact Nat.le_of_lt hlt

/-! ## Reading an entity back -/

/-- The two lines of an outbound entity. -/
def outboundLines (contentType encoding : Str) : List Str :=
  [fieldText (Str.lit "Content-Type") contentType,
    fieldText (Str.lit "Content-Transfer-Encoding") encoding]

/-- An entity is its header lines, an empty line and its content. -/
theorem buildMimeEntity_eq (contentType encoding : Str) (content : Bytes) :
    buildMimeEntity contentType (some encoding) content =
      endLines ((outboundLines contentType encoding).map Str.utf8) ++ (crlf ++ content) := by
  simp only [buildMimeEntity, outboundLines, fieldText, endLines, List.map_cons, List.map_nil,
    List.flatMap_cons, List.flatMap_nil, Str.utf8_append, List.append_assoc, List.append_nil]
  rfl

section

variable {contentType encoding : Str} (htype : Str.IsVisible contentType)
  (hencoding : Str.IsVisible encoding)

include htype hencoding

/-- The header lines of an outbound entity are printable. -/
theorem outboundLines_visible :
    ∀ line ∈ outboundLines contentType encoding, ∀ c ∈ line, 0x20 ≤ c.toNat ∧ c.toNat < 0x7F := by
  have hvalue : ∀ {name value : Str}, (∀ c ∈ name, 0x20 ≤ c.toNat ∧ c.toNat < 0x7F) →
      Str.IsVisible value → ∀ c ∈ fieldText name value, 0x20 ≤ c.toNat ∧ c.toNat < 0x7F := by
    intro name value hname hvalue c hc
    have hcolon : ∀ c ∈ Str.lit ": ", 0x20 ≤ c.toNat ∧ c.toNat < 0x7F :=
      List.forall_mem_of_all (by decide)
    simp only [fieldText, List.mem_append] at hc
    rcases hc with (hc | hc) | hc
    · exact hname c hc
    · exact hcolon c hc
    · exact hvalue.ascii c hc
  intro line hline
  simp only [outboundLines, List.mem_cons, List.not_mem_nil, or_false] at hline
  rcases hline with rfl | rfl
  · exact hvalue (List.forall_mem_of_all (by decide)) htype
  · exact hvalue (List.forall_mem_of_all (by decide)) hencoding

theorem outboundLines_isLine :
    ∀ line ∈ (outboundLines contentType encoding).map Str.utf8, IsLine line := by
  intro line hline
  obtain ⟨text, htext, rfl⟩ := List.mem_map.mp hline
  have hvisible := outboundLines_visible htype hencoding text htext
  have hbyte := Str.toNat_of_mem_utf8 hvisible
  refine ⟨?_, fun hm => absurd (hbyte _ hm) (by decide), fun hm => absurd (hbyte _ hm) (by decide)⟩
  simp only [outboundLines, List.mem_cons, List.not_mem_nil, or_false] at htext
  rcases htext with rfl | rfl
  · rw [fieldText, Str.utf8_append]
    simp [Str.utf8]
  · rw [fieldText, Str.utf8_append]
    simp [Str.utf8]

/-- The header block as the reader splits it. -/
theorem unfolded_written :
    (Str.splitChar '\n' (Str.fromUtf8Lossy
      (endLines ((outboundLines contentType encoding).map Str.utf8) ++ crlf))).foldl
        unfoldHeaderLine [] = outboundLines contentType encoding := by
  have htext : endLines ((outboundLines contentType encoding).map Str.utf8) ++ crlf =
      Str.utf8 (fieldText (Str.lit "Content-Type") contentType ++ (['\r', '\n'] ++
        (fieldText (Str.lit "Content-Transfer-Encoding") encoding ++
          ['\r', '\n', '\r', '\n']))) := by
    simp only [outboundLines, endLines, List.map_cons, List.map_nil, List.flatMap_cons,
      List.flatMap_nil, Str.utf8_append, List.append_assoc, List.append_nil, crlf]
    rfl
  have hshape : fieldText (Str.lit "Content-Type") contentType ++ (['\r', '\n'] ++
      (fieldText (Str.lit "Content-Transfer-Encoding") encoding ++ ['\r', '\n', '\r', '\n'])) =
        (fieldText (Str.lit "Content-Type") contentType ++ ['\r']) ++ '\n' ::
          ((fieldText (Str.lit "Content-Transfer-Encoding") encoding ++ ['\r']) ++
            '\n' :: ['\r', '\n']) := by simp
  have hbreak : ∀ line ∈ outboundLines contentType encoding, '\n' ∉ line ++ ['\r'] := by
    intro line hline hmem
    rcases List.mem_append.mp hmem with hmem | hmem
    · exact absurd (outboundLines_visible htype hencoding line hline _ hmem) (by decide)
    · exact absurd hmem (by decide)
  have hstep : ∀ (lines : List Str) (line : Str), line.head? = some 'C' →
      unfoldHeaderLine lines (line ++ ['\r']) = lines ++ [line] := by
    intro lines line hhead
    have hne : line ≠ [] := by
      rintro rfl
      cases hhead
    have hspace : line.head? ≠ some ' ' := by simp [hhead]
    have htab : line.head? ≠ some '\t' := by simp [hhead]
    have hstrip : Str.stripSuffix ['\r'] (line ++ ['\r']) = some line := by
      rw [Str.stripSuffix, if_pos (List.isSuffixOf_iff_suffix.mpr (List.suffix_append _ _))]
      simp
    simp only [unfoldHeaderLine, hstrip, Option.getD_some, if_neg hne, hspace, htab, or_self,
      if_false]
    cases lines.getLast? <;> rfl
  rw [htext, Str.fromUtf8Lossy_utf8, hshape, Str.splitChar_append (hbreak _ List.mem_cons_self),
    Str.splitChar_append (hbreak _ (List.mem_cons_of_mem _ List.mem_cons_self)), List.foldl_cons,
    List.foldl_cons, hstep _ _ rfl, hstep _ _ rfl]
  rfl

/-- The two header values of an outbound entity. -/
theorem headerValue_written {name value : Str}
    (h : (name, value) ∈ [(Str.lit "content-type", contentType),
      (Str.lit "content-transfer-encoding", encoding)]) :
    headerValue (endLines ((outboundLines contentType encoding).map Str.utf8) ++ crlf) name =
      some value := by
  have hsplit : ∀ (line value : Str), ':' ∉ line →
      Str.splitOnce ':' (fieldText line value) = some (line, ' ' :: value) := by
    intro line value hline
    induction line with
    | nil => rfl
    | cons c line ih =>
      rw [List.mem_cons, not_or] at hline
      change Str.splitOnce ':' (c :: fieldText line value) = _
      rw [Str.splitOnce, if_neg (Ne.symm hline.1), ih hline.2]
      rfl
  have htypeName : ':' ∉ Str.lit "Content-Type" := by decide
  have hencodingName : ':' ∉ Str.lit "Content-Transfer-Encoding" := by decide
  unfold headerValue
  dsimp only
  rw [unfolded_written htype hencoding]
  simp only [List.mem_cons, List.not_mem_nil, or_false, Prod.mk.injEq] at h
  rcases h with ⟨rfl, rfl⟩ | ⟨rfl, rfl⟩
  · have hname : Str.eqIgnoreAsciiCase (Str.trim (Str.lit "Content-Type"))
        (Str.lit "content-type") = true := by decide
    rw [outboundLines, List.findSome?_cons, hsplit _ _ htypeName]
    simp only [Option.bind_some, hname, if_true, Str.trim_space_visible htype]
  · have hother : Str.eqIgnoreAsciiCase (Str.trim (Str.lit "Content-Type"))
        (Str.lit "content-transfer-encoding") = false := by decide
    have hname : Str.eqIgnoreAsciiCase (Str.trim (Str.lit "Content-Transfer-Encoding"))
        (Str.lit "content-transfer-encoding") = true := by decide
    rw [outboundLines, List.findSome?_cons, hsplit _ _ htypeName, List.findSome?_cons,
      hsplit _ _ hencodingName]
    simp only [Option.bind_some, hother, hname, if_true, Bool.false_eq_true, if_false,
      Str.trim_space_visible hencoding]

/-- An entity that was written is split where its header block ends. -/
theorem fromEntityBytes_written (content : Bytes) :
    (VerifiedSmimeEntity.fromEntityBytes
        (buildMimeEntity contentType (some encoding) content)).headers =
      endLines ((outboundLines contentType encoding).map Str.utf8) ++ crlf ∧
    (VerifiedSmimeEntity.fromEntityBytes
        (buildMimeEntity contentType (some encoding) content)).content = content := by
  have hstart := findMimeHeaderBreak_written (by simp [outboundLines])
    (outboundLines_isLine htype hencoding) content
  unfold VerifiedSmimeEntity.headers VerifiedSmimeEntity.content VerifiedSmimeEntity.contentStart
    VerifiedSmimeEntity.fromEntityBytes
  dsimp only
  rw [buildMimeEntity_eq, hstart, Option.getD_some, ← List.append_assoc]
  exact ⟨List.take_left, List.drop_left⟩

/-- The media type is read back. -/
theorem contentType_written (content : Bytes) :
    (VerifiedSmimeEntity.fromEntityBytes
      (buildMimeEntity contentType (some encoding) content)).contentType = some contentType := by
  rw [VerifiedSmimeEntity.contentType, (fromEntityBytes_written htype hencoding content).1]
  exact headerValue_written htype hencoding List.mem_cons_self

end

/-! ## The outbound entity -/

/-- Content in lines of base64 is decoded again. -/
theorem decode_wrapBase64Lines (content : Bytes) :
    Base64.decodeBytes ((Str.utf8 (wrapBase64Lines (Base64.encode content))).filter
      fun b => !isAsciiWhitespaceByte b) = some content := by
  have hflat : ((Base64.encode content).chunks 76).flatten = Base64.encode content :=
    List.flatten_chunks (by decide) _
  have hascii : ∀ c ∈ wrapBase64Lines (Base64.encode content), c.toNat < 0x80 := by
    refine List.intercalate_induction (P := fun s : Str => ∀ c ∈ s, c.toNat < 0x80)
      (by simp) (fun s t hs ht => List.forall_mem_append.mpr ⟨hs, ht⟩)
      (List.forall_mem_of_all (by decide)) fun piece hpiece c hc => ?_
    have hmem : c ∈ Base64.encode content := by
      rw [← hflat]
      exact List.mem_flatten.mpr ⟨piece, hpiece, hc⟩
    exact Nat.lt_succ_of_lt (Base64.visible_of_mem_encode hmem).2
  -- In ASCII the reader may drop the line breaks before or after it takes bytes for characters.
  have hbytes : ((Str.utf8 (wrapBase64Lines (Base64.encode content))).filter
      fun b => !isAsciiWhitespaceByte b).map (fun x => Char.ofNat x.toNat) =
        (wrapBase64Lines (Base64.encode content)).filter fun c => !Str.isAsciiWhitespace c := by
    have hspace : ∀ n < 0x80,
        isAsciiWhitespaceByte (.ofNat n) = Str.isAsciiWhitespace (Char.ofNat n) := by decide
    rw [Str.utf8_of_ascii hascii, List.filter_map, List.map_map]
    refine (List.map_congr_left (g := id) fun c hc => ?_).trans ?_
    · have hc := hascii c (List.mem_of_mem_filter hc)
      rw [Function.comp_apply, Str.toNat_ofNat_ascii hc, Char.ofNat_toNat, id]
    · rw [List.map_id]
      refine List.filter_congr fun c hc => ?_
      rw [Function.comp_apply, hspace c.toNat (hascii c hc), Char.ofNat_toNat]
  have hkeep : (Base64.encode content).filter (fun c => !Str.isAsciiWhitespace c) =
      Base64.encode content := by
    refine List.filter_eq_self.mpr fun c hc => ?_
    have hspace : ∀ n < 0x7F, 0x21 ≤ n → Str.isAsciiWhitespace (Char.ofNat n) = false := by decide
    have hvisible := Base64.visible_of_mem_encode hc
    have := hspace c.toNat hvisible.2 hvisible.1
    rw [Char.ofNat_toNat] at this
    rw [this]
    rfl
  rw [Base64.decodeBytes, hbytes, wrapBase64Lines, List.filter_intercalate (by decide), hflat, hkeep,
    Base64.decode_encode]

/-- Which encoding the content is sent in, and the bytes it becomes. -/
theorem buildOutboundEntity_cases (contentType : Str) (content : Bytes) :
    ∃ encoding body, Str.IsVisible encoding ∧
      buildOutboundEntity contentType content = buildMimeEntity contentType (some encoding) body ∧
      ((contentRequiresBase64 content = true ∧ encoding = Str.lit "base64" ∧
          body = Str.utf8 (wrapBase64Lines (Base64.encode content))) ∨
        (contentRequiresBase64 content = false ∧ encoding = Str.lit "binary" ∧ body = content)) := by
  have hvisible : ∀ s : Str, s = Str.lit "base64" ∨ s = Str.lit "binary" → Str.IsVisible s := by
    rintro s (rfl | rfl)
    · exact ⟨List.forall_mem_of_all (by decide), by decide, by decide, by decide⟩
    · exact ⟨List.forall_mem_of_all (by decide), by decide, by decide, by decide⟩
  cases h : contentRequiresBase64 content with
  | true =>
    refine ⟨_, _, hvisible _ (.inl rfl), ?_, .inl ⟨rfl, rfl, rfl⟩⟩
    rw [buildOutboundEntity, if_pos h]
    rfl
  | false =>
    refine ⟨_, _, hvisible _ (.inr rfl), ?_, .inr ⟨rfl, rfl, rfl⟩⟩
    rw [buildOutboundEntity, if_neg (by rw [h]; exact Bool.false_ne_true)]
    rfl

/-- So the content is read back. -/
theorem decodedContent_written {contentType : Str} (htype : Str.IsVisible contentType)
    (content : Bytes) :
    (VerifiedSmimeEntity.fromEntityBytes (buildOutboundEntity contentType content)).decodedContent =
      .ok content := by
  obtain ⟨encoding, body, hencoding, hentity, hcases⟩ := buildOutboundEntity_cases contentType content
  obtain ⟨hheaders, hcontent⟩ := fromEntityBytes_written htype hencoding body
  have hvalue := headerValue_written htype hencoding (List.mem_cons_of_mem _ List.mem_cons_self)
  rw [hentity, VerifiedSmimeEntity.decodedContent, hheaders, hcontent, hvalue, Option.getD_some]
  rcases hcases with ⟨-, rfl, rfl⟩ | ⟨-, rfl, rfl⟩
  · rw [if_pos (by decide)]
    dsimp only
    rw [decode_wrapBase64Lines]
    rfl
  · rw [if_neg (by decide)]

/-- The entity is a fixed point of canonicalization and is read back as it was given, exactly
    when its content is sent as base64 or has no bare line end. -/
theorem buildOutboundEntity_canonical_iff (contentType : Str) (content : Bytes)
    (hascii : ∀ c ∈ contentType, 0x20 ≤ c.toNat ∧ c.toNat < 0x7F)
    (hvalid : validMediaType contentType = true) :
    (canonicalLineEnds (buildOutboundEntity contentType content) =
        buildOutboundEntity contentType content ∧
      (VerifiedSmimeEntity.fromEntityBytes (buildOutboundEntity contentType content)).contentType =
        some contentType ∧
      (VerifiedSmimeEntity.fromEntityBytes
        (buildOutboundEntity contentType content)).decodedContent = .ok content) ↔
    contentRequiresBase64 content = true ∨ CrlfPaired content := by
  have htype := visible_of_validMediaType hascii hvalid
  obtain ⟨encoding, body, hencoding, hentity, hcases⟩ := buildOutboundEntity_cases contentType content
  have hpaired : CrlfPaired (buildOutboundEntity contentType content) ↔ CrlfPaired body := by
    rw [hentity, buildMimeEntity_eq,
      crlfPaired_append (crlfPaired_endLines (outboundLines_isLine htype hencoding))]
    exact crlfPaired_append (s := crlf) trivial
  have hbody : CrlfPaired body ↔ contentRequiresBase64 content = true ∨ CrlfPaired content := by
    rcases hcases with ⟨hneeds, -, rfl⟩ | ⟨hneeds, -, rfl⟩
    · exact ⟨fun _ => .inl hneeds, fun _ => crlfPaired_wrapBase64Lines content⟩
    · simp [hneeds]
  rw [canonicalLineEnds_eq_self_iff, hpaired, hbody]
  refine ⟨And.left, fun h => ⟨h, ?_, decodedContent_written htype content⟩⟩
  rw [hentity]
  exact contentType_written htype hencoding body

/-- Two lines of text with a CRLF pair between them. -/
theorem buildOutboundEntity_canonical_crlf :
    canonicalLineEnds (buildOutboundEntity "text/plain" (Str.utf8 "a\r\nb")) =
      buildOutboundEntity "text/plain" (Str.utf8 "a\r\nb") :=
  ((buildOutboundEntity_canonical_iff "text/plain" (Str.utf8 "a\r\nb")
    (List.forall_mem_of_all (by decide)) (by decide)).mpr (.inr (by
      change CrlfPaired [0x61, 0x0D, 0x0A, 0x62]
      simp [CrlfPaired]))).1

/-- The same text with a bare LF: canonicalization would change what was digested. -/
theorem buildOutboundEntity_not_canonical_lf :
    validMediaType "text/plain" = true ∧
    canonicalLineEnds (buildOutboundEntity "text/plain" (Str.utf8 "a\nb")) ≠
      buildOutboundEntity "text/plain" (Str.utf8 "a\nb") := by
  decide +kernel

end Asx
