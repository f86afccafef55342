import Mathlib.Data.Set.Function
import Asx.Native.Decrypt

/-!
# Line ends of text attachments

The text branch of `swa_attachment_digest_input` writes every line break as CR LF. Its loop looks
one byte ahead; `lineBreaks` says the same by looking one byte back: a LF after a CR belongs to
the break of the CR, and every other CR or LF is a break of its own. What the branch writes is
the text so read with CR LF for each break, and reading that gives the same breaks again.

## Main results
- `normalizeLineEndings_eq`, `lineBreaks_writeBreaks`: writing and reading breaks
- `textAttachment_normalized`: the branch is a normal form for the line-ending form
-/

namespace Asx

/-! ## Line breaks -/

/-- The text after `prev` with each line break as one mark. -/
def lineBreaksAfter (prev : Option UInt8) : Bytes → List (Option UInt8)
  | [] => []
  | b :: rest =>
    if prev = some 0x0D ∧ b = 0x0A then lineBreaksAfter (some b) rest
    else (if b = 0x0D ∨ b = 0x0A then none else some b) :: lineBreaksAfter (some b) rest

/-- The text with each CR LF, lone CR and lone LF as one mark. -/
def lineBreaks (s : Bytes) : List (Option UInt8) := lineBreaksAfter none s

/-- The text with CR LF for each mark. -/
def writeBreaks (marks : List (Option UInt8)) : Bytes :=
  marks.flatMap fun mark => match mark with
    | none => [0x0D, 0x0A]
    | some b => [b]

/-- No byte is a CR or a LF: those are marks. -/
def BreaksMarked (marks : List (Option UInt8)) : Prop :=
  ∀ b, some b ∈ marks → b ≠ 0x0D ∧ b ≠ 0x0A

/-- Every CR is followed by a LF and every LF preceded by a CR. -/
structure CrLfText (s : Bytes) : Prop where
  lfAfterCr : ∀ i : Nat, s[i]? = some 0x0D → s[i + 1]? = some 0x0A
  crBeforeLf : ∀ i : Nat, s[i]? = some 0x0A → ∃ j : Nat, i = j + 1 ∧ s[j]? = some 0x0D

/-! ## Reading breaks -/

theorem lineBreaks_step (b : UInt8) (rest : Bytes) :
    lineBreaks (b :: rest) =
      (if b = 0x0D ∨ b = 0x0A then none else some b) :: lineBreaksAfter (some b) rest := by
  rw [lineBreaks, lineBreaksAfter, if_neg fun h => Option.some_ne_none _ h.1.symm]

/-- Only a CR before a LF makes a difference. -/
theorem lineBreaksAfter_eq {prev : UInt8} {s : Bytes}
    (h : prev ≠ 0x0D ∨ s.head? ≠ some 0x0A) : lineBreaksAfter (some prev) s = lineBreaks s := by
  cases s with
  | nil => rfl
  | cons b rest =>
    -- the one case in which the byte before is read
    have hlone : ¬ (some prev = some 0x0D ∧ b = 0x0A) := by
      rintro ⟨hprev, hb⟩
      exact h.elim (fun h => h (Option.some.inj hprev)) fun h => h (congrArg some hb)
    rw [lineBreaks_step, lineBreaksAfter, if_neg hlone]

/-- A pair is one line break. -/
theorem lineBreaks_crlf (rest : Bytes) :
    lineBreaks (0x0D :: 0x0A :: rest) = none :: lineBreaks rest := by
  rw [lineBreaks_step, if_pos (.inl rfl), lineBreaksAfter, if_pos ⟨rfl, rfl⟩,
    lineBreaksAfter_eq (.inl (by decide))]

/-- A carriage return alone is a line break. -/
theorem lineBreaks_cr {rest : Bytes} (h : rest.head? ≠ some 0x0A) :
    lineBreaks (0x0D :: rest) = none :: lineBreaks rest := by
  rw [lineBreaks_step, if_pos (.inl rfl), lineBreaksAfter_eq (.inr h)]

/-- A line feed alone is a line break. -/
theorem lineBreaks_lf (rest : Bytes) : lineBreaks (0x0A :: rest) = none :: lineBreaks rest := by
  rw [lineBreaks_step, if_pos (.inr rfl), lineBreaksAfter_eq (.inl (by decide))]

theorem lineBreaks_cons {b : UInt8} (hcr : b ≠ 0x0D) (hlf : b ≠ 0x0A) (rest : Bytes) :
    lineBreaks (b :: rest) = some b :: lineBreaks rest := by
  rw [lineBreaks_step, if_neg (not_or.mpr ⟨hcr, hlf⟩), lineBreaksAfter_eq (.inl hcr)]

/-- Reading the line breaks leaves no line end among the octets. -/
theorem breaksMarked_lineBreaks (s : Bytes) : BreaksMarked (lineBreaks s) := by
  have hafter : ∀ prev, BreaksMarked (lineBreaksAfter prev s) := by
    induction s with
    | nil => simp [lineBreaksAfter, BreaksMarked]
    | cons c rest ih =>
      intro prev b hb
      rw [lineBreaksAfter] at hb
      split at hb
      · -- the LF of a CR LF leaves no mark
        exact ih _ b hb
      · rcases List.mem_cons.mp hb with heq | hmem
        · split at heq
          · cases heq
          · rename_i hplain
            obtain rfl := Option.some.inj heq
            exact not_or.mp hplain
        · exact ih _ b hmem
  exact hafter none

/-! ## Writing breaks -/

theorem writeBreaks_none (marks : List (Option UInt8)) :
    writeBreaks (none :: marks) = 0x0D :: 0x0A :: writeBreaks marks := rfl

theorem writeBreaks_some (b : UInt8) (marks : List (Option UInt8)) :
    writeBreaks (some b :: marks) = b :: writeBreaks marks := rfl

/-- The branch writes CR LF for each line break. -/
theorem normalizeLineEndings_eq (s : Bytes) :
    normalizeLineEndings s = writeBreaks (lineBreaks s) := by
  -- the branches of the loop: CR LF, a CR, a LF, any other byte
  fun_induction normalizeLineEndings s with
  | case1 => rfl
  | case2 rest ih => rw [ih, lineBreaks_crlf, writeBreaks_none]
  | case3 rest hlone ih =>
    -- the branch of CR LF was not taken
    have hhead : rest.head? ≠ some 0x0A := by
      intro hhead
      obtain ⟨t, rfl⟩ := List.head?_eq_some_iff.mp hhead
      exact hlone t rfl
    rw [ih, lineBreaks_cr hhead, writeBreaks_none]
  | case4 rest ih => rw [ih, lineBreaks_lf, writeBreaks_none]
  | case5 b rest hcr hlf hother ih => rw [ih, lineBreaks_cons hlf hother, writeBreaks_some]

/-- The breaks that were written are read back. -/
theorem lineBreaks_writeBreaks {marks : List (Option UInt8)} (h : BreaksMarked marks) :
    lineBreaks (writeBreaks marks) = marks := by
  induction marks with
  | nil => rfl
  | cons mark marks ih =>
    have hmarks := ih fun b hb => h b (List.mem_cons_of_mem _ hb)
    cases mark with
    | none => rw [writeBreaks_none, lineBreaks_crlf, hmarks]
    | some b =>
      -- a byte that is no mark is neither CR nor LF, so it starts no break
      obtain ⟨hcr, hlf⟩ := h b List.mem_cons_self
      rw [writeBreaks_some, lineBreaks_cons hcr hlf, hmarks]

theorem CrLfText.crlf {s : Bytes} (h : CrLfText s) : CrLfText (0x0D :: 0x0A :: s) where
  lfAfterCr i hi := by
    rcases i with _ | _ | i
    · rfl
    · simp at hi
    · exact h.lfAfterCr i hi
  crBeforeLf i hi := by
    rcases i with _ | _ | i
    · simp at hi
    · exact ⟨0, rfl, rfl⟩
    · obtain ⟨j, rfl, hj⟩ := h.crBeforeLf i hi
      exact ⟨j + 2, rfl, hj⟩

theorem CrLfText.cons {s : Bytes} (h : CrLfText s) {b : UInt8} (hcr : b ≠ 0x0D) (hlf : b ≠ 0x0A) :
    CrLfText (b :: s) where
  lfAfterCr i hi := by
    cases i with
    | zero => exact absurd (Option.some.inj hi) hcr
    | succ i => exact h.lfAfterCr i hi
  crBeforeLf i hi := by
    cases i with
    | zero => exact absurd (Option.some.inj hi) hlf
    | succ i =>
      obtain ⟨j, rfl, hj⟩ := h.crBeforeLf i hi
      exact ⟨j + 1, rfl, hj⟩

/-- What is written has pairs for line ends only. -/
theorem crLfText_writeBreaks {marks : List (Option UInt8)} (h : BreaksMarked marks) :
    CrLfText (writeBreaks marks) := by
  induction marks with
  | nil => exact ⟨fun i hi => by simp [writeBreaks] at hi, fun i hi => by simp [writeBreaks] at hi⟩
  | cons mark marks ih =>
    have hmarks := ih fun b hb => h b (List.mem_cons_of_mem _ hb)
    cases mark with
    | none => exact hmarks.crlf
    | some b =>
      obtain ⟨hcr, hlf⟩ := h b List.mem_cons_self
      exact hmarks.cons hcr hlf

/-! ## The text branch -/

/-- The media type of a part, as `swa_attachment_digest_input` reads it. -/
def attachmentMedia (contentType : Option Str) : Str :=
  match contentType with
  | some ct => Str.toAsciiLowercase (Str.trim ((Str.splitChar ';' ct).headD []))
  | none => []

/-- A part whose type is `text/*`, XML types apart. -/
structure TextPart (contentType : Option Str) : Prop where
  text : ("text/" : Str) <+: attachmentMedia contentType
  notTextXml : attachmentMedia contentType ≠ ("text/xml" : Str)
  notSuffixXml : ¬ ("+xml" : Str) <:+ attachmentMedia contentType

/-- The digest of a text part is over its normal form. -/
theorem swaAttachmentDigestInput_text (roxmltree : Roxmltree) {contentType : Option Str}
    (h : TextPart contentType) (s : Bytes) :
    swaAttachmentDigestInput roxmltree contentType s = .ok (normalizeLineEndings s) := by
  -- the XML branch comes first; `text/` excludes its third test
  have happlication : attachmentMedia contentType ≠ ("application/xml" : Str) := by
    intro heq
    have htext := h.text
    rw [heq] at htext
    exact absurd htext (by decide +kernel)
  have hxml : ¬ (attachmentMedia contentType = ("text/xml" : Str) ∨
      attachmentMedia contentType = ("application/xml" : Str) ∨
      ("+xml" : Str).isSuffixOf (attachmentMedia contentType)) := by
    rintro (heq | heq | hsuffix)
    · exact h.notTextXml heq
    · exact happlication heq
    · exact h.notSuffixXml (List.isSuffixOf_iff_suffix.mp hsuffix)
  exact (if_neg hxml).trans (if_pos (List.isPrefixOf_iff_prefix.mpr h.text))

/-- The text branch is total; in its output every CR is followed by a LF and every LF preceded by
    a CR; it is idempotent; and it maps two texts to one output exactly when they are equal with
    one mark for each line break, so that a digest without a collision of the two outputs ignores
    the line-ending form and nothing else. -/
theorem textAttachment_normalized (roxmltree : Roxmltree) {contentType : Option Str}
    (h : TextPart contentType) :
    (∀ s, swaAttachmentDigestInput roxmltree contentType s = .ok (normalizeLineEndings s)) ∧
    (∀ s, CrLfText (normalizeLineEndings s)) ∧
    (∀ s, normalizeLineEndings (normalizeLineEndings s) = normalizeLineEndings s) ∧
    (∀ s t, normalizeLineEndings s = normalizeLineEndings t ↔ lineBreaks s = lineBreaks t) ∧
    ∀ (digest : Bytes → Bytes) (s t : Bytes),
      Set.InjOn digest {normalizeLineEndings s, normalizeLineEndings t} →
      (digest (normalizeLineEndings s) = digest (normalizeLineEndings t) ↔
        lineBreaks s = lineBreaks t) := by
  -- reading undoes writing, so the output has the breaks of the input
  have hread : ∀ s, lineBreaks (normalizeLineEndings s) = lineBreaks s := by
    intro s
    rw [normalizeLineEndings_eq, lineBreaks_writeBreaks (breaksMarked_lineBreaks s)]
  have heq : ∀ s t, normalizeLineEndings s = normalizeLineEndings t ↔
      lineBreaks s = lineBreaks t := by
    intro s t
    constructor
    · intro hst
      rw [← hread s, hst, hread t]
    · intro hst
      rw [normalizeLineEndings_eq, hst, ← normalizeLineEndings_eq]
  refine ⟨swaAttachmentDigestInput_text roxmltree h, ?_, fun s => (heq _ _).mpr (hread s), heq, ?_⟩
  · intro s
    rw [normalizeLineEndings_eq]
    exact crLfText_writeBreaks (breaksMarked_lineBreaks s)
  · intro digest s t hinj
    -- the digest tells the two outputs apart
    rw [← heq]
    exact hinj.eq_iff (Set.mem_insert _ _) (Set.mem_insert_of_mem _ rfl)

/-- CR CR LF LF CR is four line breaks. -/
theorem textAttachment_normalized_plain :
    swaAttachmentDigestInput (fun _ _ => .error .dtdDetected)
        (some (Str.lit "Text/Plain; charset=utf-8")) [0x0D, 0x0D, 0x0A, 0x0A, 0x0D] =
      .ok [0x0D, 0x0A, 0x0D, 0x0A, 0x0D, 0x0A, 0x0D, 0x0A] := by
  have hpart : TextPart (some (Str.lit "Text/Plain; charset=utf-8")) :=
    ⟨by decide +kernel, by decide +kernel, by decide +kernel⟩
  exact (textAttachment_normalized (fun _ _ => .error .dtdDetected) hpart).1 _

end Asx
