import Asx.ForStd.Bytes
import Asx.ForStd.Trim

/-!
# Texts in ASCII

The bytes of an ASCII text are its characters, printable ASCII has one white space character, and
a text made of lines is split into them.
-/

/-- A fact about every element of a literal list, decided element by element. -/
theorem List.forall_mem_of_all {α : Type} {P : α → Prop} [DecidablePred P] {l : List α}
    (h : l.all (fun x => decide (P x)) = true) : ∀ x ∈ l, P x := by
  intro x hx
  exact of_decide_eq_true (List.all_eq_true.mp h x hx)

theorem Option.forall_mem_of_all {α : Type} {P : α → Prop} [DecidablePred P] {o : Option α}
    (h : o.all (fun x => decide (P x)) = true) : ∀ x ∈ o, P x := by
  rintro x rfl
  exact of_decide_eq_true h

namespace Str

/-- ASCII is its own encoding. -/
theorem utf8_of_ascii {s : Str} (h : ∀ c ∈ s, c.toNat < 0x80) :
    utf8 s = s.map fun c => .ofNat c.toNat := by
  induction s with
  | nil => rfl
  | cons c s ih =>
    have hc : String.utf8EncodeChar c = [.ofNat c.toNat] := by
      have hlt : c.val.toNat ≤ 127 := Nat.le_of_lt_succ (h c List.mem_cons_self)
      simp only [String.utf8EncodeChar, if_pos hlt]
      rfl
    rw [utf8, List.flatMap_cons, hc, List.map_cons, ← ih fun x hx => h x (by simp [hx])]
    rfl

theorem ascii_of_utf8 {s : Str} (h : ∀ b ∈ utf8 s, b.toNat < 0x80) : ∀ c ∈ s, c.toNat < 0x80 := by
  intro c hc
  by_contra hge
  have hmem : ∀ b ∈ String.utf8EncodeChar c, b.toNat < 0x80 :=
    fun b hb => h b (List.mem_flatMap.mpr ⟨c, hc, hb⟩)
  have hlt : ¬ c.val.toNat ≤ 127 := fun hle => hge (Nat.lt_succ_of_le hle)
  have hsmall : ∀ m, m < 0x100 → (UInt8.ofNat m).toNat = m := by
    intro m hm
    rw [UInt8.toNat_ofNat']
    omega
  -- The last byte of a longer encoding continues it.
  simp only [String.utf8EncodeChar, if_neg hlt] at hmem
  split at hmem
  · have := hmem (.ofNat (c.val.toNat % 64 + 128)) (by simp)
    rw [hsmall _ (by omega)] at this
    omega
  · split at hmem
    · have := hmem (.ofNat (c.val.toNat % 64 + 128)) (by simp)
      rw [hsmall _ (by omega)] at this
      omega
    · have := hmem (.ofNat (c.val.toNat % 64 + 128)) (by simp)
      rw [hsmall _ (by omega)] at this
      omega

theorem toNat_ofNat_ascii {c : Char} (h : c.toNat < 0x80) : (UInt8.ofNat c.toNat).toNat = c.toNat := by
  rw [UInt8.toNat_ofNat']
  omega

/-- An ASCII byte of a text is one of its characters. -/
theorem exists_of_mem_utf8 {s : Str} {b : UInt8} (h : b ∈ utf8 s) (hb : b.toNat < 0x80) :
    ∃ c ∈ s, c.toNat = b.toNat := by
  obtain ⟨c, hc, hmem⟩ := List.mem_flatMap.mp h
  refine ⟨c, hc, ?_⟩
  have hsmall : ∀ m, m < 0x100 → (UInt8.ofNat m).toNat = m := by
    intro m hm
    rw [UInt8.toNat_ofNat']
    omega
  have hvalid := c.val.toNat_lt
  simp only [String.utf8EncodeChar] at hmem
  split at hmem
  · rename_i hle
    rw [List.mem_singleton] at hmem
    rw [hmem]
    exact (toNat_ofNat_ascii (Nat.lt_succ_of_le hle)).symm
  · -- every byte of a longer encoding is beyond ASCII
    exfalso
    split at hmem
    · simp only [List.mem_cons, List.not_mem_nil, or_false] at hmem
      rcases hmem with rfl | rfl <;> rw [hsmall _ (by omega)] at hb <;> omega
    · split at hmem
      · simp only [List.mem_cons, List.not_mem_nil, or_false] at hmem
        rcases hmem with rfl | rfl | rfl <;> rw [hsmall _ (by omega)] at hb <;> omega
      · simp only [List.mem_cons, List.not_mem_nil, or_false] at hmem
        rcases hmem with rfl | rfl | rfl | rfl <;> rw [hsmall _ (by omega)] at hb <;> omega

/-- Printable text has printable bytes. -/
theorem toNat_of_mem_utf8 {s : Str} (h : ∀ c ∈ s, 0x20 ≤ c.toNat ∧ c.toNat < 0x7F) :
    ∀ b ∈ utf8 s, 0x20 ≤ b.toNat ∧ b.toNat < 0x7F := by
  intro b hb
  rw [utf8_of_ascii fun c hc => Nat.lt_succ_of_lt (h c hc).2] at hb
  obtain ⟨c, hc, rfl⟩ := List.mem_map.mp hb
  rw [toNat_ofNat_ascii (Nat.lt_succ_of_lt (h c hc).2)]
  exact h c hc

theorem utf8_append (s t : Str) : utf8 (s ++ t) = utf8 s ++ utf8 t := List.flatMap_append

/-- No two texts have one encoding. -/
theorem utf8_injective : Function.Injective utf8 := by
  intro s t h
  have hs := fromUtf8_utf8 s
  rw [h, fromUtf8_utf8] at hs
  exact (Option.some.inj hs).symm

/-- Printable ASCII without a space at its ends. -/
structure IsVisible (s : Str) : Prop where
  ascii : ∀ c ∈ s, 0x20 ≤ c.toNat ∧ c.toNat < 0x7F
  ne_nil : s ≠ []
  head : s.head? ≠ some ' '
  last : s.getLast? ≠ some ' '

/-- Bytes and characters of a text whose bytes are ASCII. -/
theorem utf8_eq_map {s : Str} (h : ∀ b ∈ utf8 s, b.toNat < 0x80) :
    (∀ c ∈ s, c.toNat < 0x80) ∧ utf8 s = s.map fun c => .ofNat c.toNat :=
  ⟨ascii_of_utf8 h, utf8_of_ascii (ascii_of_utf8 h)⟩

theorem isWhitespace_of_visible {c : Char} (h : 0x20 ≤ c.toNat ∧ c.toNat < 0x7F) (hne : c ≠ ' ') :
    isWhitespace c = false := by
  have hall : ∀ n < 0x7F, 0x21 ≤ n → isWhitespace (Char.ofNat n) = false := by decide
  have hne' : c.toNat ≠ 0x20 := fun heq => hne (by rw [← Char.ofNat_toNat c, heq])
  have := hall c.toNat h.2 (by omega)
  rwa [Char.ofNat_toNat] at this

/-- Visible text has nothing to trim. -/
theorem trim_visible {s : Str} (h : IsVisible s) : trim s = s := by
  have hdrop : ∀ t : Str, (∀ c ∈ t.head?, isWhitespace c = false) →
      t.dropWhile isWhitespace = t := by
    intro t ht
    cases t with
    | nil => rfl
    | cons b t => rw [List.dropWhile_cons_of_neg (by simpa using ht b rfl)]
  rw [trim, trimStart, hdrop, trimEnd, hdrop, List.reverse_reverse]
  · intro c hc
    rw [List.head?_reverse] at hc
    refine isWhitespace_of_visible (h.ascii c (List.mem_of_getLast? hc)) ?_
    rintro rfl
    exact h.last hc
  · intro c hc
    refine isWhitespace_of_visible (h.ascii c (List.mem_of_head? hc)) ?_
    rintro rfl
    exact h.head hc

theorem trim_space_visible {s : Str} (h : IsVisible s) : trim (' ' :: s) = s := by
  rw [trim, trimStart, List.dropWhile_cons_of_pos (by decide)]
  exact trim_visible h

/-! ## Lines -/

/-- The first piece ends at the first delimiter. -/
theorem splitChar_append {c : Char} {pre : Str} (h : c ∉ pre) (s : Str) :
    splitChar c (pre ++ c :: s) = pre :: splitChar c s := by
  induction pre with
  | nil => simp [splitChar]
  | cons x pre ih =>
    rw [List.mem_cons, not_or] at h
    rw [List.cons_append, splitChar, if_neg (Ne.symm h.1), ih h.2]

/-- A line ends at its pair. -/
theorem lines_append {line : Str} (h : '\n' ∉ line) (s : Str) :
    lines (line ++ '\r' :: '\n' :: s) = line :: lines s := by
  have hmem : '\n' ∉ line ++ ['\r'] := by simpa using h
  have hsplit : splitChar '\n' (line ++ '\r' :: '\n' :: s) =
      (line ++ ['\r']) :: splitChar '\n' s := by
    rw [← splitChar_append hmem, List.append_assoc]
    rfl
  have hstrip : stripSuffix ['\r'] (line ++ ['\r']) = some line := by
    rw [stripSuffix, if_pos (List.isSuffixOf_iff_suffix.mpr (List.suffix_append _ _))]
    simp
  unfold lines
  rw [hsplit]
  cases hs : splitChar '\n' s with
  | nil =>
    rw [splitChar_eq] at hs
    split at hs <;> cases hs
  | cons piece pieces =>
    simp only [List.dropLast_cons_cons, List.map_cons, hstrip, Option.getD_some,
      List.getLast?_cons_cons]
    split <;> rfl

end Str
