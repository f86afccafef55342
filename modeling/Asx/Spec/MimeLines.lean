import Asx.Native.Mime

/-!
# Lines of a MIME entity

Where a search in bytes finds its needle, and the blank line that ends a header block.
-/

namespace Asx

/-! ## Searching -/

/-- A text without the first byte of the needle is skipped. -/
theorem cutAt_append {c : UInt8} {needle pre : Bytes} (h : c ∉ pre) (s : Bytes) :
    cutAt (c :: needle) (pre ++ s) = (cutAt (c :: needle) s).map fun r => (pre ++ r.1, r.2) := by
  induction pre with
  | nil => simp
  | cons b pre ih =>
    rw [List.mem_cons, not_or] at h
    have hno : (c :: needle).isPrefixOf (b :: (pre ++ s)) = false := by
      simp [List.isPrefixOf, h.1]
    rw [List.cons_append, cutAt, hno, if_neg Bool.false_ne_true, ih h.2]
    cases cutAt (c :: needle) s <;> rfl

theorem cutAt_some {needle s : Bytes} {r : Bytes × Bytes} (h : cutAt needle s = some r) :
    s = r.1 ++ r.2 ∧ needle <+: r.2 := by
  induction s generalizing r with
  | nil =>
    rw [cutAt] at h
    split at h
    · rename_i hnil
      cases h
      exact ⟨rfl, hnil ▸ List.nil_prefix⟩
    · cases h
  | cons b s ih =>
    rw [cutAt] at h
    split at h
    · rename_i hprefix
      cases h
      exact ⟨rfl, List.isPrefixOf_iff_prefix.mp hprefix⟩
    · obtain ⟨r', hr', rfl⟩ := Option.map_eq_some_iff.mp h
      obtain ⟨hs, hprefix⟩ := ih hr'
      exact ⟨congrArg (b :: ·) hs, hprefix⟩

/-- A needle that does not lie in the front of a text is found beyond it. -/
theorem length_lt_of_cutAt {needle pre s : Bytes} {r : Bytes × Bytes} (hpre : ¬ needle <:+: pre)
    (h : cutAt needle (pre ++ s) = some r) : pre.length < r.1.length + needle.length := by
  obtain ⟨happend, t, hneedle⟩ := cutAt_some h
  by_contra hle
  have hfound : r.1 ++ needle <+: pre ++ s := ⟨t, by rw [happend, ← hneedle, List.append_assoc]⟩
  have hprefix : r.1 ++ needle <+: pre := List.prefix_of_prefix_length_le hfound
    (List.prefix_append _ _) (by rw [List.length_append]; omega)
  exact hpre (((List.suffix_append _ _).isInfix).trans hprefix.isInfix)

theorem cutAt_at_front {needle s : Bytes} (h : needle <+: s) : cutAt needle s = some ([], s) := by
  cases s with
  | nil =>
    rw [List.prefix_nil.mp h]
    rfl
  | cons b s => rw [cutAt, if_pos (List.isPrefixOf_iff_prefix.mpr h)]

/-- The cut is at the first occurrence. -/
theorem cutAt_of_occurrence (pre : Bytes) {needle post : Bytes} (h : needle <+: post) :
    ∃ r, cutAt needle (pre ++ post) = some r ∧ r.1.length ≤ pre.length := by
  induction pre with
  | nil => exact ⟨([], post), cutAt_at_front h, le_rfl⟩
  | cons b pre ih =>
    rw [List.cons_append, cutAt]
    split
    · exact ⟨_, rfl, Nat.zero_le _⟩
    · obtain ⟨r, hr, hle⟩ := ih
      rw [hr, Option.map_some]
      exact ⟨_, rfl, Nat.succ_le_succ hle⟩

theorem cutAt_eq_none_iff {needle s : Bytes} : cutAt needle s = none ↔ ¬ needle <:+: s := by
  constructor
  · rintro h ⟨pre, post, rfl⟩
    rw [List.append_assoc] at h
    obtain ⟨r, hr, -⟩ := cutAt_of_occurrence pre (List.prefix_append needle post)
    rw [h] at hr
    cases hr
  · intro h
    cases hcut : cutAt needle s with
    | none => rfl
    | some r =>
      obtain ⟨hs, hprefix⟩ := cutAt_some hcut
      exact absurd (hs ▸ hprefix.isInfix.trans (List.suffix_append _ _).isInfix) h

/-- What stands before the cut does not hold the needle. -/
theorem not_infix_of_cutAt {needle s : Bytes} {r : Bytes × Bytes} (hneedle : needle ≠ [])
    (h : cutAt needle s = some r) : ¬ needle <:+: r.1 := by
  rintro ⟨pre, post, hr⟩
  obtain ⟨hs, -⟩ := cutAt_some h
  have hsplit : s = pre ++ (needle ++ (post ++ r.2)) := by
    rw [hs, ← hr]
    simp only [List.append_assoc]
  obtain ⟨r', hr', hle⟩ := cutAt_of_occurrence pre (List.prefix_append needle (post ++ r.2))
  rw [← hsplit, h, Option.some.injEq] at hr'
  subst hr'
  rw [← hr, List.length_append, List.length_append] at hle
  have hpos := List.length_pos_of_ne_nil hneedle
  omega

/-- The first occurrence in a text is the first in every end of the text that holds it. -/
theorem cutAt_suffix {needle p s q t : Bytes} (h : cutAt needle (p ++ s) = some (p ++ q, t)) :
    cutAt needle s = some (q, t) := by
  induction p with
  | nil => exact h
  | cons b p ih =>
    rw [List.cons_append, cutAt] at h
    split at h
    · cases h
    · obtain ⟨r, hr, heq⟩ := Option.map_eq_some_iff.mp h
      simp only [List.cons_append, Prod.mk.injEq, List.cons.injEq, true_and] at heq
      obtain ⟨rfl⟩ : r = (p ++ q, t) := Prod.ext heq.1 heq.2
      exact ih hr

/-- A needle whose first byte does not occur again in it is found where it was put, if it is not
    in what stands before it. -/
theorem cutAt_needle {c : UInt8} {needle pre : Bytes} (hc : c ∉ needle)
    (hpre : ¬ c :: needle <:+: pre) (post : Bytes) :
    cutAt (c :: needle) (pre ++ (c :: needle ++ post)) = some (pre, c :: needle ++ post) := by
  induction pre with
  | nil => exact cutAt_at_front (List.prefix_append _ _)
  | cons b pre ih =>
    have hno : ¬ c :: needle <+: b :: pre ++ (c :: needle ++ post) := by
      intro hprefix
      rcases Nat.lt_or_ge (b :: pre).length (c :: needle).length with hlt | hge
      · -- the needle would reach into the one that follows and have its first byte twice
        have hget := hprefix.getElem (i := (b :: pre).length) hlt
        rw [List.getElem_append_right (Nat.le_refl _)] at hget
        simp only [Nat.sub_self, List.cons_append, List.getElem_cons_zero] at hget
        refine hc ?_
        rw [← hget]
        simp only [List.length_cons, List.getElem_cons_succ]
        exact List.getElem_mem _
      · have : c :: needle <+: b :: pre := List.prefix_of_prefix_length_le hprefix
          (List.prefix_append _ _) hge
        exact hpre this.isInfix
    have hpre' : ¬ c :: needle <:+: pre := fun h => hpre (h.trans (List.suffix_cons b pre).isInfix)
    rw [List.cons_append] at hno ⊢
    rw [cutAt, if_neg (fun h => hno (List.isPrefixOf_iff_prefix.mp h)), ih hpre']
    rfl

theorem stripPrefixBytes_append (p s : Bytes) : stripPrefixBytes p (p ++ s) = some s := by
  rw [stripPrefixBytes, if_pos (List.isPrefixOf_iff_prefix.mpr (List.prefix_append p s))]
  simp

/-! ## Lines -/

theorem splitByte_append {c : UInt8} {pre : Bytes} (h : c ∉ pre) (s : Bytes) :
    splitByte c (pre ++ c :: s) = pre :: splitByte c s := by
  induction pre with
  | nil => simp [splitByte]
  | cons b pre ih =>
    rw [List.mem_cons, not_or] at h
    rw [List.cons_append, splitByte, if_neg (Ne.symm h.1), ih h.2]

theorem splitByte_of_not_mem {c : UInt8} {s : Bytes} (h : c ∉ s) : splitByte c s = [s] := by
  induction s with
  | nil => rfl
  | cons b s ih =>
    rw [List.mem_cons, not_or] at h
    rw [splitByte, if_neg (Ne.symm h.1), ih h.2]

/-- A header field as the builder writes it. -/
def fieldText (name value : Str) : Str := name ++ ": " ++ value

/-- Lines with CR LF between them. -/
def joinLines : List Bytes → Bytes
  | [] => []
  | [line] => line
  | line :: lines => line ++ crlf ++ joinLines lines

/-- Lines with CR LF after each of them. -/
def endLines (lines : List Bytes) : Bytes := lines.flatMap (· ++ crlf)

/-- A header line: it is not empty and does not break. -/
structure IsLine (line : Bytes) : Prop where
  ne_nil : line ≠ []
  cr : (0x0D : UInt8) ∉ line
  lf : (0x0A : UInt8) ∉ line

/-- The blank line after a header block is the first one. -/
theorem cutAt_blankLine {lines : List Bytes} (hne : lines ≠ []) (h : ∀ line ∈ lines, IsLine line)
    (s : Bytes) :
    cutAt (crlf ++ crlf) (endLines lines ++ (crlf ++ s)) =
      some (joinLines lines, crlf ++ (crlf ++ s)) := by
  induction lines with
  | nil => exact absurd rfl hne
  | cons line lines ih =>
    have hline := h line List.mem_cons_self
    change cutAt (0x0D :: [0x0A, 0x0D, 0x0A]) (line ++ crlf ++ endLines lines ++ (crlf ++ s)) = _
    rw [List.append_assoc, List.append_assoc, cutAt_append hline.cr]
    cases lines with
    | nil =>
      rw [cutAt_at_front (by simp [endLines, crlf])]
      simp [joinLines, endLines]
    | cons next rest =>
      have hnext := h next (by simp)
      have htail := ih (by simp) fun l hl => h l (List.mem_cons_of_mem _ hl)
      obtain ⟨x, next', rfl⟩ := List.exists_cons_of_ne_nil hnext.ne_nil
      have hx : x ≠ 0x0D := fun heq => hnext.cr (heq ▸ List.mem_cons_self)
      have hno : ¬ ((0x0D :: [0x0A, 0x0D, 0x0A] : Bytes).isPrefixOf
          (0x0D :: ([0x0A] ++ (endLines ((x :: next') :: rest) ++ (crlf ++ s))))) := by
        simp [endLines, Ne.symm hx]
      change (cutAt _ (0x0D :: (([0x0A] : Bytes) ++ (endLines ((x :: next') :: rest) ++
        (crlf ++ s))))).map _ = _
      rw [cutAt, if_neg hno, cutAt_append (by decide)]
      change ((cutAt (crlf ++ crlf) (endLines ((x :: next') :: rest) ++ (crlf ++ s))).map _ |>.map
        _ |>.map _) = _
      rw [htail]
      simp [joinLines, crlf]

end Asx
