import Asx.ForStd.Ascii
import Asx.ForStd.Except
import Asx.Native.As2Send
import Asx.Spec.As2Delivery

/-!
# AS2 identifiers as header values

An identifier that `is_as2_id` admits is quoted when it has to be, and is read back unchanged from
its header. The send path checks the bare identifier instead, as if it were already a header value.

## Main results
- `parseHeaderId_headerId`: an admitted identifier is read back
- `outboundEntity_sendView`: the identifiers for which a client builds an entity
-/

namespace Asx

/-! ## Admitted identifiers -/

/-- What `is_as2_id` says of the characters. -/
structure IsIdentifier (id : Str) : Prop where
  ne_nil : id ≠ []
  length_le : id.length ≤ 128
  printable : ∀ c ∈ id, 0x20 ≤ c.toNat ∧ c.toNat < 0x7F

theorem length_utf8_of_ascii {s : Str} (h : ∀ c ∈ s, c.toNat < 0x80) :
    (Str.utf8 s).length = s.length := by
  rw [Str.utf8_of_ascii h, List.length_map]

/-- What the builder admits as an identifier is printable ASCII of the right length. -/
theorem isIdentifier_of_isAs2Id {id : Str} (h : isAs2Id id = true) : IsIdentifier id := by
  rw [isAs2Id, Bool.and_eq_true, decide_eq_true_eq, List.all_eq_true] at h
  obtain ⟨⟨hpos, hlength⟩, hbytes⟩ := h
  have hrange : ∀ b ∈ Str.utf8 id, 0x20 ≤ b.toNat ∧ b.toNat < 0x7F := by
    intro b hb
    have := hbytes b hb
    rw [Bool.and_eq_true, decide_eq_true_eq, decide_eq_true_eq] at this
    exact this
  obtain ⟨hascii, hmap⟩ := Str.utf8_eq_map fun b hb => Nat.lt_succ_of_lt (hrange b hb).2
  rw [length_utf8_of_ascii hascii] at hpos hlength
  refine ⟨List.length_pos_iff.mp hpos, hlength, fun c hc => ?_⟩
  have hbyte := hrange (.ofNat c.toNat) (by rw [hmap]; exact List.mem_map_of_mem hc)
  rwa [Str.toNat_ofNat_ascii (hascii c hc)] at hbyte

/-! ## Quoting -/

/-- The two replacements of `header_id`. -/
def escapeId (id : Str) : Str :=
  Str.replaceChar '"' ['\\', '"'] (Str.replaceChar '\\' ['\\', '\\'] id)

theorem escapeId_cons (c : Char) (id : Str) :
    escapeId (c :: id) =
      (if c = '\\' then ['\\', '\\'] else if c = '"' then ['\\', '"'] else [c]) ++ escapeId id := by
  rw [escapeId, Str.replaceChar, Str.replaceChar, List.flatMap_cons, List.flatMap_append]
  congr 1
  by_cases hslash : c = '\\'
  · rw [if_pos hslash, if_pos hslash]
    rfl
  · rw [if_neg hslash, if_neg hslash, List.flatMap_singleton]

/-- What was escaped is unescaped again. -/
theorem unescapeHeaderId_escapeId (id : Str) : unescapeHeaderId false (escapeId id) = id := by
  induction id with
  | nil => rfl
  | cons c id ih =>
    rw [escapeId_cons]
    by_cases hslash : c = '\\'
    · subst hslash
      simp [unescapeHeaderId, ih]
    · by_cases hquote : c = '"'
      · subst hquote
        simp [unescapeHeaderId, ih]
      · simp [unescapeHeaderId, hslash, hquote, ih]

/-- Escaping adds backslashes only. -/
theorem escapeId_printable {id : Str} (h : ∀ c ∈ id, 0x20 ≤ c.toNat ∧ c.toNat < 0x7F) :
    ∀ c ∈ escapeId id, 0x20 ≤ c.toNat ∧ c.toNat < 0x7F := by
  induction id with
  | nil => exact fun c hc => absurd hc List.not_mem_nil
  | cons x id ih =>
    intro c hc
    rw [escapeId_cons, List.mem_append] at hc
    obtain hc | hc := hc
    · have hx := h x List.mem_cons_self
      split at hc
      · revert c
        exact List.forall_mem_of_all (by decide)
      · split at hc
        · revert c
          exact List.forall_mem_of_all (by decide)
        · rw [List.mem_singleton] at hc
          rwa [hc]
    · exact ih (fun y hy => h y (List.mem_cons_of_mem _ hy)) c hc

/-- Whether `header_id` quotes. -/
def NeedsQuotes (id : Str) : Prop := ' ' ∈ id ∨ '"' ∈ id ∨ '\\' ∈ id

theorem headerId_of_needsQuotes {id : Str} (h : NeedsQuotes id) :
    headerId id = '"' :: (escapeId id ++ ['"']) := by
  have hbyte : ∀ c ∈ id, ∀ b ∈ String.utf8EncodeChar c, b ∈ Str.utf8 id :=
    fun c hc b hb => List.mem_flatMap.mpr ⟨c, hc, hb⟩
  rw [headerId, if_pos]
  · rfl
  · rw [List.any_eq_true]
    obtain h | h | h := h
    · exact ⟨0x20, hbyte _ h _ (by decide), by decide⟩
    · exact ⟨0x22, hbyte _ h _ (by decide), by decide⟩
    · exact ⟨0x5C, hbyte _ h _ (by decide), by decide⟩

theorem headerId_of_not_needsQuotes {id : Str} (h : ¬ NeedsQuotes id) : headerId id = id := by
  rw [headerId, if_neg]
  intro hany
  rw [List.any_eq_true] at hany
  obtain ⟨b, hb, hspecial⟩ := hany
  simp only [Bool.or_eq_true, beq_iff_eq] at hspecial
  have hchar : ∀ d : Char, b.toNat = d.toNat → d.toNat < 0x80 → d ∈ id := by
    intro d hd hlt
    obtain ⟨c, hc, heq⟩ := Str.exists_of_mem_utf8 hb (by omega)
    rwa [Char.toNat_inj.mp (heq.trans hd)] at hc
  obtain (hspecial | hspecial) | hspecial := hspecial
  · exact h (.inl (hchar ' ' (by rw [hspecial]; rfl) (by decide)))
  · exact h (.inr (.inl (hchar '"' (by rw [hspecial]; rfl) (by decide))))
  · exact h (.inr (.inr (hchar '\\' (by rw [hspecial]; rfl) (by decide))))

/-- A header value has no white space to lose at its ends. -/
theorem headerId_visible {id : Str} (h : IsIdentifier id) : Str.IsVisible (headerId id) := by
  by_cases hquotes : NeedsQuotes id
  · rw [headerId_of_needsQuotes hquotes]
    refine ⟨fun c hc => ?_, List.cons_ne_nil _ _, by simp, ?_⟩
    · rw [List.mem_cons, List.mem_append, List.mem_singleton] at hc
      obtain rfl | hc | rfl := hc
      · decide
      · exact escapeId_printable h.printable c hc
      · decide
    · rw [← List.cons_append, List.getLast?_concat]
      decide
  · rw [headerId_of_not_needsQuotes hquotes]
    exact ⟨h.printable, h.ne_nil, fun hhead => hquotes (.inl (List.mem_of_head? hhead)),
      fun hlast => hquotes (.inl (List.mem_of_getLast? hlast))⟩

/-- Every identifier is read back from its header. -/
theorem parseHeaderId_headerId {id : Str} (h : IsIdentifier id) :
    parseHeaderId (headerId id) = id := by
  rw [parseHeaderId, Str.trim_visible (headerId_visible h)]
  by_cases hquotes : NeedsQuotes id
  · rw [headerId_of_needsQuotes hquotes]
    have hfront : Str.stripPrefix ['"'] ('"' :: (escapeId id ++ ['"'])) =
        some (escapeId id ++ ['"']) := rfl
    have hback : Str.stripSuffix ['"'] (escapeId id ++ ['"']) = some (escapeId id) := by
      rw [Str.stripSuffix, if_pos (List.isSuffixOf_iff_suffix.mpr (List.suffix_append _ _)),
        List.length_append, Nat.add_sub_cancel, List.take_left]
    rw [hfront, Option.bind_some, hback]
    exact unescapeHeaderId_escapeId id
  · rw [headerId_of_not_needsQuotes hquotes]
    have hfront : Str.stripPrefix ['"'] id = none := by
      rw [Str.stripPrefix, if_neg]
      intro hpre
      obtain ⟨t, rfl⟩ := List.isPrefixOf_iff_prefix.mp hpre
      exact hquotes (.inr (.inl List.mem_cons_self))
    rw [hfront, Option.bind_none]

/-! ## The check of the send path -/

/-- An identifier that stands in quotes of its own. -/
def IsQuotedId (id : Str) : Prop :=
  id.head? = some '"' ∧ id.getLast? = some '"' ∧ 2 ≤ id.length

instance (id : Str) : Decidable (IsQuotedId id) := inferInstanceAs (Decidable (_ ∧ _))

theorem IsQuotedId.exists_inner {id : Str} (h : IsQuotedId id) :
    ∃ inner, id = '"' :: (inner ++ ['"']) := by
  obtain ⟨hhead, hlast, hlength⟩ := h
  obtain ⟨rest, rfl⟩ := List.head?_eq_some_iff.mp hhead
  have hne : rest ≠ [] := by
    rintro rfl
    simp at hlength
  rw [List.getLast?_cons_of_ne_nil hne] at hlast
  obtain ⟨inner, rfl⟩ := List.getLast?_eq_some_iff.mp hlast
  exact ⟨inner, rfl⟩

/-- The identifiers that the check lets through. -/
def PassesFromCheck (id : Str) : Prop :=
  id ≠ ['"', '"'] ∧ (' ' ∉ id ∨ (∀ c ∈ id, c = ' ') ∨ IsQuotedId id)

/-- The search for a byte that is not allowed. -/
theorem find?_notAllowed {s : Str} (h : ∀ c ∈ s, 0x20 ≤ c.toNat ∧ c.toNat < 0x7F) :
    (Str.utf8 s).find? (fun b => !(0x20 ≤ b && b ≤ 0x7E)) = none ∧
      ((Str.utf8 s).find? (fun b => !(0x21 ≤ b && b ≤ 0x7E)) = none ↔ ' ' ∉ s) := by
  have hbytes := Str.toNat_of_mem_utf8 h
  have hmem : (0x20 : UInt8) ∈ Str.utf8 s ↔ ' ' ∈ s := by
    constructor
    · intro hb
      obtain ⟨c, hc, heq⟩ := Str.exists_of_mem_utf8 hb (by decide)
      rwa [show c = ' ' from Char.toNat_inj.mp heq] at hc
    · intro hc
      exact List.mem_flatMap.mpr ⟨' ', hc, by decide⟩
  have hrange : ∀ b ∈ Str.utf8 s, (0x20 ≤ b ∧ b ≤ 0x7E) ∧ (0x21 ≤ b ∧ b ≤ 0x7E ↔ b ≠ 0x20) := by
    intro b hb
    have := hbytes b hb
    rw [UInt8.le_iff_toNat_le, UInt8.le_iff_toNat_le, UInt8.le_iff_toNat_le, ne_eq,
      ← UInt8.toNat_inj]
    simp only [UInt8.reduceToNat]
    omega
  constructor
  · rw [List.find?_eq_none]
    intro b hb
    simp [(hrange b hb).1]
  · rw [List.find?_eq_none, ← hmem]
    constructor
    · intro hall hb
      exact hall _ hb (by decide)
    · intro hb b hbs
      have hne : b ≠ 0x20 := fun heq => hb (heq ▸ hbs)
      simp [(hrange b hbs).2.mpr hne]

/-- What the check of the send path admits. -/
theorem validateAs2FromIdentifier_ok_iff {id : Str} (h : IsIdentifier id) (stage : Str)
    (session : SessionContext) :
    validateAs2FromIdentifier stage session id = .ok () ↔
      id ≠ ['"', '"'] ∧ (' ' ∉ id ∨ IsQuotedId id) := by
  have hascii : ∀ c ∈ id, c.toNat < 0x80 := fun c hc => Nat.lt_succ_of_lt (h.printable c hc).2
  have hlength := length_utf8_of_ascii hascii
  unfold validateAs2FromIdentifier
  rw [hlength]
  by_cases hquoted : IsQuotedId id
  · obtain ⟨inner, rfl⟩ := hquoted.exists_inner
    have hinner : ∀ c ∈ inner, 0x20 ≤ c.toNat ∧ c.toNat < 0x7F :=
      fun c hc => h.printable c (by simp [hc])
    have hle : ¬ (Str.utf8 inner).length > 128 := by
      have := h.length_le
      rw [length_utf8_of_ascii fun c hc => Nat.lt_succ_of_lt (hinner c hc).2]
      rw [List.length_cons, List.length_append] at this
      omega
    have hdrop : (('"' :: (inner ++ ['"'])).drop 1).dropLast = inner := by simp
    simp only [if_pos (show _ ∧ _ ∧ _ from hquoted), hdrop, (find?_notAllowed hinner).1,
      Except.bind_eq_ok, Except.rejectIf_eq_ok]
    constructor
    · rintro ⟨-, hne, -⟩
      refine ⟨?_, .inr hquoted⟩
      simpa using hne
    · rintro ⟨hne, -⟩
      exact ⟨(), by simpa using hne, (), hle, trivial⟩
  · simp only [if_neg (show ¬ (_ ∧ _ ∧ _) from hquoted), Except.bind_eq_ok, Except.rejectIf_eq_ok]
    have hfind := (find?_notAllowed h.printable).2
    have hle : ¬ (Str.utf8 id).length > 128 := by
      have := h.length_le
      omega
    constructor
    · rintro ⟨-, -, -, -, hbytes⟩
      have hnone : (Str.utf8 id).find? (fun b => !(0x21 ≤ b && b ≤ 0x7E)) = none := by
        cases hf : (Str.utf8 id).find? (fun b => !(0x21 ≤ b && b ≤ 0x7E)) with
        | none => rfl
        | some bad =>
          rw [hf] at hbytes
          cases hbytes
      refine ⟨?_, .inl (hfind.mp hnone)⟩
      rintro rfl
      exact hquoted (by decide)
    · rintro ⟨-, hspace | hspace⟩
      · refine ⟨(), h.ne_nil, (), hle, ?_⟩
        rw [hfind.mpr hspace]
      · exact absurd hspace hquoted

theorem trim_eq_nil_iff {id : Str} (h : IsIdentifier id) :
    Str.trim id = [] ↔ ∀ c ∈ id, c = ' ' := by
  constructor
  · intro htrim c hc
    by_contra hne
    have := Str.mem_trim hc (Str.isWhitespace_of_visible (h.printable c hc) hne)
    rw [htrim] at this
    exact List.not_mem_nil this
  · intro hall
    rw [← List.nil_append id, Str.trim_append_whitespace]
    · rfl
    · intro c hc
      rw [hall c hc]
      rfl

section Send

variable (zlib : ZlibWriter) (lib : CmsLibrary)

/-- The identifiers for which a client builds an entity. -/
theorem outboundEntity_sendView {id : Str} (h : IsIdentifier id) (session : SessionContext)
    {messageId : Str} (hmessage : Str.trim messageId ≠ []) {payload : Bytes} (hpayload : payload ≠ [])
    (contentType : Option Str) :
    (∃ e, outboundEntity zlib lib session messageId payload (sendView id) contentType = .ok e) ↔
      PassesFromCheck id := by
  have hcheck : (∃ e, outboundEntity zlib lib session messageId payload (sendView id) contentType =
      .ok e) ↔ (Str.trim id = [] ∨ validateAs2FromIdentifier "as2_send_validate" session id = .ok ()) := by
    simp only [outboundEntity, validateMessageId, sendView, Except.bind_eq_ok,
      Except.rejectIf_eq_ok]
    generalize validateAs2FromIdentifier _ session id = check
    by_cases htrim : Str.trim id = []
    · simp [htrim, hmessage, hpayload, Except.pure_eq_ok]
    · cases check with
      | error e => simp [htrim, hmessage, hpayload]
      | ok u => simp [htrim, hmessage, hpayload]
  rw [hcheck, trim_eq_nil_iff h, validateAs2FromIdentifier_ok_iff h, PassesFromCheck]
  constructor
  · rintro (hspaces | ⟨hne, hbare | hquoted⟩)
    · refine ⟨?_, .inr (.inl hspaces)⟩
      rintro rfl
      exact absurd (hspaces '"' List.mem_cons_self) (by decide)
    · exact ⟨hne, .inl hbare⟩
    · exact ⟨hne, .inr (.inr hquoted)⟩
  · rintro ⟨hne, hbare | hspaces | hquoted⟩
    · exact .inr ⟨hne, .inl hbare⟩
    · exact .inl hspaces
    · exact .inr ⟨hne, .inr hquoted⟩

/-- What an AS2 client and its partners expect of an identifier. -/
structure IdentifierTravels (id : Str) : Prop where
  read_back : parseHeaderId (headerId id) = id
  unshared : ∀ other, isAs2Id other = true → headerId other = headerId id → other = id
  sent : ∀ session messageId payload contentType, Str.trim messageId ≠ [] → payload ≠ [] →
    ∃ e, outboundEntity zlib lib session messageId payload (sendView id) contentType = .ok e

/-- An identifier that the builder admits travels, as its own header and past the send path, iff
    the check of the send path admits it. -/
theorem identifierTravels_iff (id : Str) (h : isAs2Id id = true) :
    IdentifierTravels zlib lib id ↔ PassesFromCheck id := by
  have hid := isIdentifier_of_isAs2Id h
  constructor
  · intro htravels
    have hsent := htravels.sent ⟨[], [], false⟩ ['m'] [0] none (by decide) (List.cons_ne_nil _ _)
    exact (outboundEntity_sendView zlib lib hid _ (by decide) (List.cons_ne_nil _ _) _).mp hsent
  · intro hpasses
    refine ⟨parseHeaderId_headerId hid, fun other hother heq => ?_, ?_⟩
    · rw [← parseHeaderId_headerId hid, ← heq, parseHeaderId_headerId (isIdentifier_of_isAs2Id hother)]
    · intro session messageId payload contentType hmessage hpayload
      exact (outboundEntity_sendView zlib lib hid session hmessage hpayload contentType).mpr hpasses

end Send

/-- An identifier that is written in quotes, with its quote and its backslash escaped. -/
theorem identifierTravels_quoted :
    IdentifierTravels ⟨fun _ payload => .ok payload⟩ deliveredLibrary (Str.lit "OUR\"AS2\\ID") :=
  (identifierTravels_iff _ _ _ (by decide +kernel)).mpr ⟨by decide, .inl (by decide)⟩

/-- It stands in quotes in the header. -/
example : headerId (Str.lit "OUR\"AS2\\ID") = Str.lit "\"OUR\\\"AS2\\\\ID\"" := by decide

/-- Admitted, read back from its header, and refused by every client. -/
theorem not_identifierTravels_withSpace :
    isAs2Id (Str.lit "with space") = true ∧
      ∀ zlib lib, ¬ IdentifierTravels zlib lib (Str.lit "with space") := by
  have hadmitted : isAs2Id (Str.lit "with space") = true := by decide +kernel
  refine ⟨hadmitted, fun zlib lib htravels => ?_⟩
  have hsent := htravels.sent ⟨[], [], false⟩ ['m'] [0] none (by decide) (List.cons_ne_nil _ _)
  rw [outboundEntity_sendView zlib lib (isIdentifier_of_isAs2Id hadmitted) _ (by decide)
    (List.cons_ne_nil _ _)] at hsent
  obtain ⟨-, hbare | hspaces | hquoted⟩ := hsent
  · exact hbare (by decide)
  · exact absurd (hspaces 'w' (by decide)) (by decide)
  · exact absurd hquoted (by decide)

end Asx
