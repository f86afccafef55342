import Asx.ForStd.Str
import Mathlib.Algebra.Order.BigOperators.Group.Finset
import Mathlib.Data.List.DropRight
import Mathlib.Data.List.Infix
import Mathlib.Data.List.TakeWhile

/-!
# Trimming

What a normalizer of texts takes away stands at the ends, so its result is an infix of the
text. A normalizer built from such steps that changes nothing has changed nothing at any
step, and one that maps a finite set of texts onto itself changes none of them.

## Key results
- `Str.infix_trim`, `infix_stripPrefix`, `infix_stripSuffix`: the steps
- `Str.eq_of_infix_comp`: a fixed point of two steps is one of the first
- `Str.fixed_of_onto`: a shrinking map of a finite set onto itself
-/

namespace Str

/-! ## Steps -/

theorem infix_trimStart (s : Str) : trimStart s <:+: s := (List.dropWhile_suffix _).isInfix

theorem infix_trimEnd (s : Str) : trimEnd s <:+: s := by
  have h := (List.dropWhile_suffix (l := s.reverse) isWhitespace).isInfix
  rw [← List.reverse_infix, List.reverse_reverse] at h
  exact h

/-- What trimming leaves is a part of the text. -/
theorem infix_trim (s : Str) : trim s <:+: s := (infix_trimEnd _).trans (infix_trimStart s)

theorem infix_stripPrefix (p s : Str) : (stripPrefix p s).getD s <:+: s := by
  unfold stripPrefix
  split
  · exact (List.drop_suffix _ _).isInfix
  · exact List.infix_rfl

theorem infix_stripSuffix (p s : Str) : (stripSuffix p s).getD s <:+: s := by
  unfold stripSuffix
  split
  · exact (List.take_prefix _ _).isInfix
  · exact List.infix_rfl

/-- A fixed point of two steps is a fixed point of the first. -/
theorem eq_of_infix_comp {f g : Str → Str} (hf : ∀ s, f s <:+: s) (hg : ∀ s, g s <:+: s) {s : Str}
    (h : g (f s) = s) : f s = s := by
  have hgf := hg (f s)
  rw [h] at hgf
  exact List.infix_antisymm (hf s) hgf

/-! ## Fixed points -/

theorem stripPrefix_eq_none {p s : Str} (hp : p ≠ []) (h : (stripPrefix p s).getD s = s) :
    stripPrefix p s = none := by
  unfold stripPrefix at h ⊢
  split at h
  · rename_i hpre
    have hlen := congrArg List.length h
    have hle := (List.isPrefixOf_iff_prefix.mp hpre).length_le
    have hpos := List.length_pos_of_ne_nil hp
    simp only [Option.getD_some, List.length_drop] at hlen
    omega
  · rename_i hpre
    simp [hpre]

theorem stripSuffix_eq_none {p s : Str} (hp : p ≠ []) (h : (stripSuffix p s).getD s = s) :
    stripSuffix p s = none := by
  unfold stripSuffix at h ⊢
  split at h
  · rename_i hsuf
    have hlen := congrArg List.length h
    have hle := (List.isSuffixOf_iff_suffix.mp hsuf).length_le
    have hpos := List.length_pos_of_ne_nil hp
    simp only [Option.getD_some, List.length_take] at hlen
    omega
  · rename_i hsuf
    simp [hsuf]

theorem trimStartMatches_of_none {p s : Str} (h : stripPrefix p s = none) :
    trimStartMatches p s = s := by
  unfold trimStartMatches
  cases s with
  | nil => rfl
  | cons c s => simp only [List.length_cons, trimStartMatches.go, h]

theorem dropWhile_of_stripPrefix_none {c : Char} {s : Str} (h : stripPrefix [c] s = none) :
    s.dropWhile (· == c) = s := by
  cases s with
  | nil => rfl
  | cons d s =>
    have hne : (d == c) = false := by
      by_contra hcd
      simp only [Bool.not_eq_false, beq_iff_eq] at hcd
      simp [stripPrefix, hcd] at h
    simp [hne]

theorem trimEndChar_of_stripSuffix_none {c : Char} {s : Str} (h : stripSuffix [c] s = none) :
    trimEndChar c s = s := by
  have hrev : stripPrefix [c] s.reverse = none := by
    by_contra hp
    have hpre : [c].isPrefixOf s.reverse = true := by
      by_contra hno
      simp [stripPrefix, hno] at hp
    have hsuf : [c].isSuffixOf s = true := hpre
    simp [stripSuffix, hsuf] at h
  rw [trimEndChar, dropWhile_of_stripPrefix_none hrev, List.reverse_reverse]

/-! ## Finite sets -/

/-- A map that shrinks texts and maps a finite set of them onto itself fixes each of them: it
    is injective there, so the lengths before and after have the same sum. -/
theorem fixed_of_onto {f : Str → Str} (hf : ∀ s, f s <:+: s) {D : List Str}
    (honto : ∀ d ∈ D, ∃ d' ∈ D, f d' = d) : ∀ d ∈ D, f d = d := by
  let F := D.toFinset
  have hsub : F ⊆ F.image f := by
    intro d hd
    obtain ⟨d', hd', h⟩ := honto d (List.mem_toFinset.mp hd)
    exact Finset.mem_image.mpr ⟨d', List.mem_toFinset.mpr hd', h⟩
  have himage : F.image f = F :=
    (Finset.eq_of_subset_of_card_le hsub Finset.card_image_le).symm
  have hinj : Set.InjOn f F := Finset.card_image_iff.mp (by rw [himage])
  have hsum : ∑ d ∈ F, (f d).length = ∑ d ∈ F, d.length := by
    conv_rhs => rw [← himage]
    exact (Finset.sum_image (f := List.length) hinj).symm
  have hlen := (Finset.sum_eq_sum_iff_of_le fun d _ => (hf d).length_le).mp hsum
  intro d hd
  exact (hf d).eq_of_length (hlen d (List.mem_toFinset.mpr hd))

/-! ## Pieces -/

/-- `split` by a character goes on behind the first one. -/
theorem splitChar_eq (c : Char) (s : Str) :
    splitChar c s = match splitOnce c s with
      | none => [s]
      | some (a, r) => a :: splitChar c r := by
  induction s with
  | nil => rfl
  | cons x s ih =>
    by_cases hx : x = c
    · simp [splitChar, splitOnce, hx]
    · rw [splitChar, splitOnce, if_neg hx, if_neg hx, ih]
      cases splitOnce c s with
      | none => rfl
      | some r => rfl

/-- Its first piece is what stands before that. -/
theorem head?_splitChar (c : Char) (s : Str) :
    (splitChar c s).head? = some (s.takeWhile (· ≠ c)) := by
  induction s with
  | nil => rfl
  | cons x s ih =>
    by_cases hx : x = c
    · simp [splitChar, hx]
    · rw [splitChar, if_neg hx, List.takeWhile_cons_of_pos (by simpa using hx)]
      cases hs : splitChar c s with
      | nil =>
        rw [hs] at ih
        cases ih
      | cons piece pieces =>
        rw [hs, List.head?_cons, Option.some.injEq] at ih
        rw [List.head?_cons, ih]

/-- White space at the end makes no difference to trimming. -/
theorem trim_append_whitespace {s w : Str} (hw : ∀ c ∈ w, isWhitespace c = true) :
    trim (s ++ w) = trim s := by
  have hend : ∀ t : Str, trimEnd (t ++ w) = trimEnd t := by
    intro t
    rw [trimEnd, trimEnd, List.reverse_append, List.dropWhile_append_of_pos]
    intro c hc
    exact hw c (List.mem_reverse.mp hc)
  have hnil : trimStart w = [] := List.dropWhile_eq_nil_iff.mpr hw
  rw [trim, trim, trimStart, List.dropWhile_append]
  split
  · rename_i hempty
    have hs : trimStart s = [] := List.isEmpty_iff.mp hempty
    rw [show w.dropWhile isWhitespace = [] from hnil, hs]
  · exact hend _

/-- Only white space is taken from the end. -/
theorem trimEnd_append (s : Str) :
    ∃ w, s = trimEnd s ++ w ∧ ∀ c ∈ w, isWhitespace c = true := by
  refine ⟨(s.reverse.takeWhile isWhitespace).reverse, ?_, ?_⟩
  · rw [trimEnd, ← List.reverse_append, List.takeWhile_append_dropWhile, List.reverse_reverse]
  · intro c hc
    exact List.mem_takeWhile_imp (List.mem_reverse.mp hc)

/-- Trimming drops what follows a text that is not blank exactly when it is white space. -/
theorem trim_append_eq_iff {s w : Str} (hs : trim s ≠ []) :
    trim (s ++ w) = trim s ↔ ∀ c ∈ w, isWhitespace c = true := by
  constructor
  · intro h
    have hstart : trimStart s ≠ [] := fun he => hs (by rw [trim, he]; rfl)
    have happend : trimStart (s ++ w) = trimStart s ++ w := by
      rw [trimStart, List.dropWhile_append, if_neg (by rw [List.isEmpty_iff]; exact hstart), trimStart]
    by_contra hw
    -- then the end of `w` stays, and the trimmed text is longer than what stood before it
    have hend : w.reverse.dropWhile isWhitespace ≠ [] := by
      rw [ne_eq, List.dropWhile_eq_nil_iff]
      exact fun hall => hw fun c hc => hall c (List.mem_reverse.mpr hc)
    have hlong : trim (s ++ w) = trimStart s ++ (w.reverse.dropWhile isWhitespace).reverse := by
      rw [trim, happend, trimEnd, List.reverse_append, List.dropWhile_append,
        if_neg (by rw [List.isEmpty_iff]; exact hend), List.reverse_append,
        List.reverse_reverse]
    have hle : (trim s).length ≤ (trimStart s).length := (infix_trimEnd (trimStart s)).length_le
    have hpos := List.length_pos_iff.mpr hend
    have hlength := congrArg List.length h
    rw [hlong, List.length_append, List.length_reverse] at hlength
    omega
  · exact trim_append_whitespace

/-- Trimming first makes no difference to what stands before a delimiter. -/
theorem trim_takeWhile_trim {p : Char → Bool} (hp : ∀ c, isWhitespace c = true → p c = true)
    (s : Str) : trim ((trim s).takeWhile p) = trim (s.takeWhile p) := by
  have hstart : (trimStart s).takeWhile p = trimStart (s.takeWhile p) := by
    induction s with
    | nil => rfl
    | cons c s ih =>
      by_cases hc : isWhitespace c = true
      · rw [trimStart, List.dropWhile_cons_of_pos hc, List.takeWhile_cons_of_pos (hp c hc),
          trimStart, List.dropWhile_cons_of_pos hc]
        exact ih
      · rw [trimStart, List.dropWhile_cons_of_neg hc]
        by_cases hpc : p c = true
        · rw [List.takeWhile_cons_of_pos hpc, trimStart, List.dropWhile_cons_of_neg hc]
        · rw [List.takeWhile_cons_of_neg hpc]
          rfl
  have hidem : trim (trimStart (s.takeWhile p)) = trim (s.takeWhile p) := by
    rw [trim, trimStart, trimStart, List.dropWhile_idempotent]
    rfl
  rw [← hidem, ← hstart]
  obtain ⟨w, hw, hspace⟩ := trimEnd_append (trimStart s)
  conv_rhs => rw [hw]
  rw [List.takeWhile_append]
  split
  · rename_i hall
    have hfull : (trimEnd (trimStart s)).takeWhile p = trimEnd (trimStart s) :=
      List.takeWhile_prefix p |>.eq_of_length hall
    rw [trim.eq_1 s, hfull, trim_append_whitespace]
    intro c hc
    exact hspace c ((List.takeWhile_prefix p).subset hc)
  · rw [trim.eq_1 s]

/-- What `trim` takes away. -/
theorem exists_trim (s : Str) : ∃ before after, s = before ++ trim s ++ after ∧
    (∀ c ∈ before, isWhitespace c = true) ∧ ∀ c ∈ after, isWhitespace c = true := by
  obtain ⟨after, hafter, hspace⟩ := trimEnd_append (trimStart s)
  refine ⟨s.takeWhile isWhitespace, after, ?_, fun c => List.mem_takeWhile_imp, hspace⟩
  rw [trim, List.append_assoc, ← hafter, trimStart, List.takeWhile_append_dropWhile]

/-- What is not white space is not trimmed. -/
theorem mem_trim {c : Char} {s : Str} (h : c ∈ s) (hc : isWhitespace c = false) : c ∈ trim s := by
  obtain ⟨before, after, hs, hbefore, hafter⟩ := exists_trim s
  rw [hs, List.mem_append, List.mem_append] at h
  obtain (h | h) | h := h
  · rw [hbefore c h] at hc
    cases hc
  · exact h
  · rw [hafter c h] at hc
    cases hc

/-- A text without white space has nothing to trim. -/
theorem trim_of_forall {s : Str} (h : ∀ c ∈ s, isWhitespace c = false) : trim s = s := by
  have hdrop : ∀ t : Str, (∀ c ∈ t, isWhitespace c = false) → t.dropWhile isWhitespace = t := by
    intro t ht
    cases t with
    | nil => rfl
    | cons c t => exact List.dropWhile_cons_of_neg (by simp [ht c List.mem_cons_self])
  rw [trim, trimStart, hdrop s h, trimEnd, hdrop s.reverse (by simpa using h), List.reverse_reverse]

/-- Characters removed from an end are gone from it. -/
theorem getLast?_trimEndChar (c : Char) (s : Str) : (trimEndChar c s).getLast? ≠ some c := by
  rw [trimEndChar, List.getLast?_reverse]
  intro h
  have := List.head?_dropWhile_not (· == c) s.reverse
  rw [h] at this
  simp at this

theorem trimEndChar_prefix (c : Char) (s : Str) : trimEndChar c s <+: s := by
  have h := (List.dropWhile_suffix (l := s.reverse) (· == c)).reverse
  rwa [List.reverse_reverse] at h

/-- A character that was taken from the front does not stand there again. -/
theorem head?_trimEndChar_dropWhile (c d : Char) (s : Str) :
    (trimEndChar d (s.dropWhile (· == c))).head? ≠ some c := by
  intro h
  obtain ⟨rest, hrest⟩ := trimEndChar_prefix d (s.dropWhile (· == c))
  have hhead : (s.dropWhile (· == c)).head? = some c := by
    rw [← hrest, List.head?_append, h]
    rfl
  have := List.head?_dropWhile_not (· == c) s
  rw [hhead] at this
  simp at this

/-- A trimmed text has nothing to trim on either side. -/
theorem trimStart_trimEnd_of_trim {s : Str} (h : trim s = s) : trimStart s = s ∧ trimEnd s = s := by
  have hstart : trimStart s = s := eq_of_infix_comp infix_trimStart infix_trimEnd h
  refine ⟨hstart, ?_⟩
  rw [trim, hstart] at h
  exact h

/-- White space before a trimmed text is trimmed away. -/
theorem trim_space_append {s : Str} (h : trim s = s) : trim (' ' :: s) = s := by
  rw [trim, trimStart, List.dropWhile_cons_of_pos (by decide)]
  exact h

/-- A trimmed text after one that starts with no white space. -/
theorem trim_cons_append {c : Char} {pre s : Str} (hc : isWhitespace c = false) (hs : s ≠ [])
    (h : trim s = s) : trim (c :: pre ++ s) = c :: pre ++ s := by
  obtain ⟨-, hend⟩ := trimStart_trimEnd_of_trim h
  have hstart : trimStart (c :: pre ++ s) = c :: pre ++ s :=
    List.dropWhile_cons_of_neg (by simp [hc])
  have hlast : s.reverse.dropWhile isWhitespace = s.reverse := by
    rw [← List.reverse_inj, List.reverse_reverse]
    exact hend
  rw [trim, hstart, trimEnd, List.reverse_append, List.dropWhile_append, hlast,
    if_neg (by simpa using hs), List.reverse_append, List.reverse_reverse, List.reverse_reverse]

theorem trimEndChar_of_notMem {c : Char} {s : Str} (h : c ∉ s) : trimEndChar c s = s := by
  refine trimEndChar_of_stripSuffix_none ?_
  rw [stripSuffix, if_neg]
  intro hsuffix
  exact h ((List.isSuffixOf_iff_suffix.mp hsuffix).subset (by simp))

/-- A text is split at its first delimiter. -/
theorem splitOnce_append {c : Char} {pre : Str} (h : c ∉ pre) (s : Str) :
    splitOnce c (pre ++ c :: s) = some (pre, s) := by
  induction pre with
  | nil => simp [splitOnce]
  | cons x pre ih =>
    rw [List.mem_cons, not_or] at h
    rw [List.cons_append, splitOnce, if_neg (Ne.symm h.1), ih h.2, Option.map_some]

end Str
