import Asx.ForStd.Bytes

/-!
# Base64 round trip

Decoding what was encoded, and lines of encoded text. A line break is not in the alphabet, so a
reader that drops white space sees the text as it was before folding.
-/

namespace Base64

/-- The decoder over bytes. A byte beyond ASCII is no character of the alphabet. -/
def decodeBytes (b : Bytes) : Option Bytes := decode (b.map fun x => Char.ofNat x.toNat)

theorem value_symbol {n : Nat} (h : n < 64) : value (symbol n) = some n := by
  have hall : ∀ n < 64, value (symbol n) = some n := by decide
  exact hall n h

/-- No symbol is the padding character. -/
theorem symbol_ne_pad {n : Nat} (h : n < 64) : symbol n ≠ '=' := by
  have hall : ∀ n < 64, symbol n ≠ '=' := by decide
  exact hall n h

private theorem ofNat_eq {a : UInt8} {n : Nat} (h : n = a.toNat) : UInt8.ofNat n = a := by
  rw [h, UInt8.ofNat_toNat]

theorem decode_encode (b : Bytes) : decode (encode b) = some b := by
  fun_induction encode b with
  | case1 => rfl
  | case2 a =>
    have ha := a.toNat_lt
    rw [decode, value_symbol (by omega), value_symbol (by omega)]
    simp only [Option.bind_eq_bind, Option.bind_some]
    rw [if_pos (by omega), ofNat_eq (a := a) (by omega)]
  | case3 a b =>
    have ha := a.toNat_lt
    have hb := b.toNat_lt
    rw [decode, value_symbol (by omega), value_symbol (by omega), value_symbol (by omega)]
    · simp only [Option.bind_eq_bind, Option.bind_some]
      rw [if_pos (by omega), ofNat_eq (a := a) (by omega), ofNat_eq (a := b) (by omega)]
    · intro h
      exact absurd h (symbol_ne_pad (by omega))
  | case4 a b c rest ih =>
    have ha := a.toNat_lt
    have hb := b.toNat_lt
    have hc := c.toNat_lt
    rw [decode, value_symbol (by omega), value_symbol (by omega), value_symbol (by omega),
      value_symbol (by omega)]
    · simp only [Option.bind_eq_bind, Option.bind_some, ih]
      rw [ofNat_eq (a := a) (by omega), ofNat_eq (a := b) (by omega), ofNat_eq (a := c) (by omega)]
    · intro _ h
      exact absurd h (symbol_ne_pad (by omega))
    · intro h
      exact absurd h (symbol_ne_pad (by omega))

theorem symbol_visible {n : Nat} (h : n < 64) : 0x21 ≤ (symbol n).toNat ∧ (symbol n).toNat < 0x7F := by
  have hall : ∀ n < 64, 0x21 ≤ (symbol n).toNat ∧ (symbol n).toNat < 0x7F := by decide
  exact hall n h

/-- The alphabet and the padding are printable and not white space. -/
theorem visible_of_mem_encode {b : Bytes} {c : Char} (h : c ∈ encode b) :
    0x21 ≤ c.toNat ∧ c.toNat < 0x7F := by
  have hpad : 0x21 ≤ '='.toNat ∧ '='.toNat < 0x7F := by decide
  fun_induction encode b with
  | case1 => cases h
  | case2 a =>
    have ha := a.toNat_lt
    simp only [List.mem_cons, List.not_mem_nil, or_false] at h
    rcases h with rfl | rfl | rfl | rfl
    · exact symbol_visible (by omega)
    · exact symbol_visible (by omega)
    · exact hpad
    · exact hpad
  | case3 a b =>
    have ha := a.toNat_lt
    have hb := b.toNat_lt
    simp only [List.mem_cons, List.not_mem_nil, or_false] at h
    rcases h with rfl | rfl | rfl | rfl
    · exact symbol_visible (by omega)
    · exact symbol_visible (by omega)
    · exact symbol_visible (by omega)
    · exact hpad
  | case4 a b c' rest ih =>
    have ha := a.toNat_lt
    have hb := b.toNat_lt
    have hc := c'.toNat_lt
    simp only [List.mem_cons] at h
    rcases h with rfl | rfl | rfl | rfl | h
    · exact symbol_visible (by omega)
    · exact symbol_visible (by omega)
    · exact symbol_visible (by omega)
    · exact symbol_visible (by omega)
    · exact ih h

end Base64

/-! ## Lines of equal length -/

/-- `slice::chunks`; every round takes an element, so the length bounds their number. -/
def List.chunks {α : Type} (size : Nat) (l : List α) : List (List α) := go l.length l
where
  /-- The chunks after `rounds` rounds at most. -/
  go : Nat → List α → List (List α)
    | _, [] => []
    | 0, _ :: _ => []
    | rounds + 1, x :: l => (x :: l).take size :: go rounds ((x :: l).drop size)

theorem List.flatten_chunks {α : Type} {size : Nat} (hsize : 0 < size) (l : List α) :
    (l.chunks size).flatten = l := by
  have hgo : ∀ rounds (l : List α), l.length ≤ rounds → (List.chunks.go size rounds l).flatten = l := by
    intro rounds
    induction rounds with
    | zero =>
      intro l h
      cases l with
      | nil => rfl
      | cons x l => simp at h
    | succ rounds ih =>
      intro l h
      cases l with
      | nil => rfl
      | cons x l =>
        rw [List.chunks.go, List.flatten_cons, ih]
        · exact List.take_append_drop _ _
        · rw [List.length_drop]
          omega
  exact hgo l.length l le_rfl

theorem List.intercalate_two {α : Type} (sep piece piece' : List α) (pieces : List (List α)) :
    sep.intercalate (piece :: piece' :: pieces) =
      piece ++ (sep ++ sep.intercalate (piece' :: pieces)) := by
  simp [List.intercalate, List.intersperse]

/-- What holds of the pieces and the separator, and of texts put together, holds of the whole. -/
theorem List.intercalate_induction {α : Type} {P : List α → Prop} {sep : List α} {pieces : List (List α)}
    (nil : P []) (append : ∀ s t, P s → P t → P (s ++ t)) (hsep : P sep)
    (hpieces : ∀ piece ∈ pieces, P piece) : P (sep.intercalate pieces) := by
  induction pieces with
  | nil => exact nil
  | cons piece pieces ih =>
    have hpiece := hpieces piece List.mem_cons_self
    have hrest := ih fun p hp => hpieces p (List.mem_cons_of_mem piece hp)
    cases pieces with
    | nil =>
      simpa [List.intercalate, List.intersperse] using hpiece
    | cons piece' pieces =>
      rw [List.intercalate_two]
      exact append _ _ hpiece (append _ _ hsep hrest)

/-- Dropping a separator that has nothing to keep joins the pieces. -/
theorem List.filter_intercalate {α : Type} {p : α → Bool} {sep : List α} (hsep : sep.filter p = [])
    (pieces : List (List α)) : (sep.intercalate pieces).filter p = pieces.flatten.filter p := by
  induction pieces with
  | nil => rfl
  | cons piece pieces ih =>
    cases pieces with
    | nil => simp [List.intercalate, List.intersperse]
    | cons piece' pieces =>
      rw [List.intercalate_two, List.filter_append, List.filter_append, hsep, List.nil_append, ih,
        ← List.filter_append]
      rfl
