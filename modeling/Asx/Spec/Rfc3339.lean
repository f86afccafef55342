import Asx.Spec.Calendar

/-!
# RFC 3339 timestamps

## Key results
- `parseRfc3339ToUnixSecs_iff`: what the parser accepts
- `rfc3339Exact_iff`: the strings on which it accepts its grammar
-/

namespace Asx

open Gregorian

/-! ## Digits -/

/-- A number in `k` decimal digits. -/
def fixedDigits : Nat → Nat → Bytes
  | 0, _ => []
  | k + 1, n => fixedDigits k (n / 10) ++ [.ofNat (48 + n % 10)]

/-- An ASCII digit. -/
def IsDigit (c : UInt8) : Prop := 48 ≤ c ∧ c ≤ 57

instance (c : UInt8) : Decidable (IsDigit c) := inferInstanceAs (Decidable (_ ∧ _))

@[simp] theorem length_fixedDigits (k n : Nat) : (fixedDigits k n).length = k := by
  induction k generalizing n with
  | zero => rfl
  | succ k ih => rw [fixedDigits, List.length_append, ih, List.length_singleton]

theorem isDigit_ofNat {d : Nat} (h : d < 10) : IsDigit (.ofNat (48 + d)) := by
  have hd : (UInt8.ofNat (48 + d)).toNat = 48 + d := by
    rw [UInt8.toNat_ofNat']
    omega
  constructor
  · rw [UInt8.le_iff_toNat_le, hd]
    simp
  · rw [UInt8.le_iff_toNat_le, hd]
    simp
    omega

/-- A digit and its value. -/
theorem isDigit_iff {c : UInt8} : IsDigit c ↔ ∃ d, d < 10 ∧ c = .ofNat (48 + d) := by
  constructor
  · rintro ⟨hlow, hhigh⟩
    rw [UInt8.le_iff_toNat_le] at hlow hhigh
    have hlow : 48 ≤ c.toNat := hlow
    have hhigh : c.toNat ≤ 57 := hhigh
    refine ⟨c.toNat - 48, by omega, ?_⟩
    rw [show 48 + (c.toNat - 48) = c.toNat by omega, UInt8.ofNat_toNat]
  · rintro ⟨d, hd, rfl⟩
    exact isDigit_ofNat hd

theorem digitValue {d : Nat} (h : d < 10) : (UInt8.ofNat (48 + d) - 48).toNat = d := by
  rw [UInt8.toNat_sub_of_le _ _ (isDigit_ofNat h).1, UInt8.toNat_ofNat']
  simp
  omega

/-- One more digit is read after the others. -/
theorem parseFixed_succ (k : Nat) (b : Bytes) (c : UInt8) :
    parseFixed (k + 1) (b ++ [c]) = (parseFixed k b).bind fun v =>
      if IsDigit c then some (v * 10 + (c - 48).toNat) else none := by
  unfold parseFixed
  rw [List.length_append, List.length_singleton, List.foldl_append]
  by_cases h : b.length = k
  · rw [if_neg (by omega), if_neg (by omega)]
    rfl
  · rw [if_pos (by omega), if_pos h]
    rfl

/-- A number is read back from its digits. -/
theorem parseFixed_fixedDigits {k n : Nat} (h : n < 10 ^ k) :
    parseFixed k (fixedDigits k n) = some (n : Int) := by
  induction k generalizing n with
  | zero =>
    obtain rfl : n = 0 := by simpa using h
    rfl
  | succ k ih =>
    have hmod : n % 10 < 10 := Nat.mod_lt _ (by decide)
    rw [fixedDigits, parseFixed_succ, ih (by rw [Nat.pow_succ] at h; omega), Option.bind_some,
      if_pos (isDigit_ofNat hmod), digitValue hmod]
    exact congrArg some (by omega)

/-- What is read as `k` digits is a number written with `k` digits. -/
theorem parseFixed_eq_some {k : Nat} {b : Bytes} {v : Int} :
    parseFixed k b = some v ↔ ∃ n : Nat, n < 10 ^ k ∧ v = n ∧ b = fixedDigits k n := by
  constructor
  · intro h
    induction k generalizing b v with
    | zero =>
      have hnil : b = [] := by
        unfold parseFixed at h
        split at h
        · simp at h
        · rename_i hlength
          simpa using hlength
      subst hnil
      exact ⟨0, by decide, (Option.some.inj h).symm, rfl⟩
    | succ k ih =>
      obtain rfl | ⟨b, c, rfl⟩ := b.eq_nil_or_concat'
      · simp [parseFixed] at h
      · rw [parseFixed_succ, Option.bind_eq_some_iff] at h
        obtain ⟨v', hv', hc⟩ := h
        obtain ⟨n, hn, rfl, rfl⟩ := ih hv'
        split at hc
        · rename_i hdigit
          obtain ⟨d, hd, rfl⟩ := isDigit_iff.mp hdigit
          rw [digitValue hd] at hc
          refine ⟨10 * n + d, by rw [Nat.pow_succ]; omega, ?_, ?_⟩
          · rw [← Option.some.inj hc]
            omega
          · rw [fixedDigits, show (10 * n + d) / 10 = n by omega,
              show (10 * n + d) % 10 = d by omega]
        · simp at hc
  · rintro ⟨n, hn, rfl, rfl⟩
    exact parseFixed_fixedDigits hn

/-- Digits of one width tell numbers apart. -/
theorem fixedDigits_inj {k n n' : Nat} (h : n < 10 ^ k) (h' : n' < 10 ^ k)
    (heq : fixedDigits k n = fixedDigits k n') : n = n' := by
  have hn := parseFixed_fixedDigits h
  rw [heq, parseFixed_fixedDigits h'] at hn
  exact (Int.ofNat.inj (Option.some.inj hn)).symm

theorem isDigit_of_mem_fixedDigits {k n : Nat} {c : UInt8} (h : c ∈ fixedDigits k n) :
    IsDigit c := by
  induction k generalizing n with
  | zero => simp [fixedDigits] at h
  | succ k ih =>
    obtain h | h := List.mem_append.mp h
    · exact ih h
    · obtain rfl := List.mem_singleton.mp h
      exact isDigit_ofNat (Nat.mod_lt _ (by decide))

/-! ## The grammar -/

/-- The fields of a timestamp before its fraction. -/
structure Fields where
  year : Nat
  month : Nat
  day : Nat
  sep : UInt8
  hour : Nat
  min : Nat
  sec : Nat

namespace Fields

/-- The ranges of the fields. -/
structure InRange (f : Fields) : Prop where
  year : 1 ≤ f.year ∧ f.year ≤ 9999
  month : 1 ≤ f.month ∧ f.month ≤ 12
  day : 1 ≤ f.day ∧ f.day ≤ 31
  sep : f.sep = 84 ∨ f.sep = 116
  hour : f.hour ≤ 23
  min : f.min ≤ 59
  sec : f.sec ≤ 60

/-- Date and time, as they are written. -/
def bytes (f : Fields) : Bytes :=
  fixedDigits 4 f.year ++ 45 :: (fixedDigits 2 f.month ++ 45 :: (fixedDigits 2 f.day ++ f.sep ::
    (fixedDigits 2 f.hour ++ 58 :: (fixedDigits 2 f.min ++ 58 :: fixedDigits 2 f.sec))))

/-- The seconds from the epoch to the written instant. -/
def seconds (f : Fields) : Int :=
  (⟨f.year, f.month, f.day⟩ : Date).dayNumber * 86400 + f.hour * 3600 + f.min * 60 + f.sec

@[simp] theorem length_bytes (f : Fields) : f.bytes.length = 19 := by simp [bytes]

end Fields

/-- The digits of a fraction with its point, or nothing. -/
inductive IsFraction : Bytes → Prop
  | none : IsFraction []
  | digits {ds : Bytes} (h : ∀ c ∈ ds, IsDigit c) : IsFraction (46 :: ds)

/-- A zone and its offset in seconds. -/
inductive IsZone : Bytes → Int → Prop
  | utc {z : UInt8} (h : z = 90 ∨ z = 122) : IsZone [z] 0
  | east {oh om : Nat} (hoh : oh ≤ 23) (hom : om ≤ 59) :
      IsZone (43 :: (fixedDigits 2 oh ++ 58 :: fixedDigits 2 om)) (oh * 3600 + om * 60)
  | west {oh om : Nat} (hoh : oh ≤ 23) (hom : om ≤ 59) :
      IsZone (45 :: (fixedDigits 2 oh ++ 58 :: fixedDigits 2 om)) (-(oh * 3600 + om * 60))

/-- A timestamp with what may follow it: the fields, the fraction, the zone, and the rest. -/
structure IsTimestamp (b : Bytes) (f : Fields) (fraction zone : Bytes) (offset : Int)
    (rest : Bytes) : Prop where
  bytes : b = f.bytes ++ (fraction ++ (zone ++ rest))
  fields : f.InRange
  fraction : IsFraction fraction
  zone : IsZone zone offset

/-! ## The parser -/

/-- The length of the fraction that a text starts with. -/
def fractionLength (t : Bytes) : Nat :=
  if t.head? = some 46 then 1 + (t.tail.takeWhile fun c => IsDigit c).length else 0

/-- The fraction is skipped, as far as it goes. -/
theorem skipFraction_append {p : Bytes} {k : Nat} (h : p.length = k) (t : Bytes) :
    skipFraction (p ++ t) k = k + fractionLength t := by
  subst h
  unfold skipFraction fractionLength
  rw [List.getElem?_append_right (Nat.le_refl _), Nat.sub_self, ← List.head?_eq_getElem?]
  split
  · rw [List.drop_append, List.drop_eq_nil_of_le (by omega), List.nil_append, Nat.add_assoc,
      Nat.add_sub_cancel_left, List.drop_one]
    rfl
  · rfl

/-- The offset of a zone in a text. -/
theorem parseOffset_append {p : Bytes} {k : Nat} (h : p.length = k) (t : Bytes) (i : Nat) :
    parseOffset (p ++ t) (k + i) = parseOffset t i := by
  subst h
  have hget : ∀ j, (p ++ t)[p.length + i + j]? = t[i + j]? := by
    intro j
    rw [List.getElem?_append_right (by omega), Nat.add_assoc, Nat.add_sub_cancel_left]
  have hdrop : ∀ j, (p ++ t).drop (p.length + i + j) = t.drop (i + j) := by
    intro j
    rw [List.drop_append, List.drop_eq_nil_of_le (by omega), Nat.add_assoc,
      Nat.add_sub_cancel_left, List.nil_append]
  have hget0 := hget 0
  rw [Nat.add_zero, Nat.add_zero] at hget0
  unfold parseOffset
  rw [hget0, hget 3, hdrop 1, hdrop 4, List.length_append]
  simp only [Nat.add_assoc, Nat.add_lt_add_iff_left]

/-- Hours and minutes of an offset after its sign. -/
theorem parseOffset_signed {sign : UInt8} (hsign : sign = 43 ∨ sign = 45) {t : Bytes} {off : Int} :
    parseOffset (sign :: t) 0 = some off ↔ ∃ oh om : Nat, ∃ rest : Bytes, oh ≤ 23 ∧ om ≤ 59 ∧
      t = fixedDigits 2 oh ++ 58 :: (fixedDigits 2 om ++ rest) ∧
        off = (if sign = 43 then 1 else -1) * (oh * 3600 + om * 60) := by
  have hunfold : parseOffset (sign :: t) 0 =
      if (sign :: t).length < 0 + 6 then none else
        (parseFixed 2 (t.take 2)).bind fun oh =>
          if t[2]? ≠ some 58 then none else
            (parseFixed 2 ((t.drop 3).take 2)).bind fun om =>
              if oh > 23 ∨ om > 59 then none else
                some ((if some sign = some 43 then 1 else -1) * (oh * 3600 + om * 60)) := by
    obtain rfl | rfl := hsign
    · unfold parseOffset
      simp
    · unfold parseOffset
      simp
  -- hours, a colon and minutes; what follows them is not looked at
  have hsame : some sign = some 43 ↔ sign = 43 := by rw [Option.some.injEq]
  rw [hunfold]
  simp only [hsame]
  constructor
  · intro h
    split at h
    · simp at h
    rename_i hlength
    obtain ⟨oh, hoh, h⟩ := Option.bind_eq_some_iff.mp h
    split at h
    · simp at h
    rename_i hcolon
    obtain ⟨om, hom, h⟩ := Option.bind_eq_some_iff.mp h
    split at h
    · simp at h
    rename_i hrange
    obtain ⟨n, -, rfl, hn⟩ := parseFixed_eq_some.mp hoh
    obtain ⟨k, -, rfl, hk⟩ := parseFixed_eq_some.mp hom
    refine ⟨n, k, t.drop 5, by omega, by omega, ?_, (Option.some.inj h).symm⟩
    have hget := List.getElem?_eq_some_iff.mp (not_not.mp hcolon)
    obtain ⟨hlt, hget⟩ := hget
    rw [← hn, ← hk, ← hget]
    calc
      t = t.take 2 ++ t.drop 2 := (List.take_append_drop 2 t).symm
      _ = t.take 2 ++ t[2] :: t.drop 3 := by rw [List.drop_eq_getElem_cons hlt]
      _ = t.take 2 ++ t[2] :: ((t.drop 3).take 2 ++ (t.drop 3).drop 2) := by
        rw [List.take_append_drop]
      _ = t.take 2 ++ t[2] :: ((t.drop 3).take 2 ++ t.drop 5) := by rw [List.drop_drop]
  · rintro ⟨oh, om, rest, hoh, hom, rfl, rfl⟩
    have htake : (fixedDigits 2 oh ++ 58 :: (fixedDigits 2 om ++ rest)).take 2 =
        fixedDigits 2 oh := List.take_left' (length_fixedDigits 2 oh)
    have hdrop : (fixedDigits 2 oh ++ 58 :: (fixedDigits 2 om ++ rest)).drop 3 =
        fixedDigits 2 om ++ rest := by
      rw [List.drop_append, List.drop_eq_nil_of_le (by simp), length_fixedDigits]
      rfl
    have hget : (fixedDigits 2 oh ++ 58 :: (fixedDigits 2 om ++ rest))[2]? = some 58 := by
      rw [List.getElem?_append_right (by simp), length_fixedDigits]
      rfl
    rw [if_neg (by simp; omega), htake, hdrop, hget, List.take_left' (length_fixedDigits 2 om),
      parseFixed_fixedDigits (by omega), parseFixed_fixedDigits (by omega), Option.bind_some,
      if_neg (by simp), Option.bind_some, if_neg (by omega)]

/-- The zone that a text starts with. -/
theorem parseOffset_eq_some {t : Bytes} {off : Int} :
    parseOffset t 0 = some off ↔ ∃ zone rest, IsZone zone off ∧ t = zone ++ rest := by
  constructor
  · intro h
    obtain _ | ⟨z, t⟩ := t
    · simp [parseOffset] at h
    by_cases hz : z = 90 ∨ z = 122
    · refine ⟨[z], t, ?_, rfl⟩
      obtain rfl : 0 = off := by
        obtain rfl | rfl := hz
        · simpa [parseOffset] using h
        · simpa [parseOffset] using h
      exact .utc hz
    by_cases hsign : z = 43 ∨ z = 45
    · obtain ⟨oh, om, rest, hoh, hom, rfl, rfl⟩ := (parseOffset_signed hsign).mp h
      refine ⟨z :: (fixedDigits 2 oh ++ 58 :: fixedDigits 2 om), rest, ?_, by simp⟩
      obtain rfl | rfl := hsign
      · rw [if_pos rfl, Int.one_mul]
        exact .east hoh hom
      · rw [if_neg (by decide), Int.neg_one_mul]
        exact .west hoh hom
    · exfalso
      rw [not_or] at hz hsign
      simp [parseOffset, hz, hsign] at h
  · rintro ⟨zone, rest, hzone, rfl⟩
    cases hzone with
    | utc hz =>
      obtain rfl | rfl := hz
      · simp [parseOffset]
      · simp [parseOffset]
    | @east oh om hoh hom =>
      refine (parseOffset_signed (.inl rfl)).mpr ⟨oh, om, rest, hoh, hom, by simp, ?_⟩
      rw [if_pos rfl, Int.one_mul]
    | @west oh om hoh hom =>
      refine (parseOffset_signed (.inr rfl)).mpr ⟨oh, om, rest, hoh, hom, by simp, ?_⟩
      rw [if_neg (by decide), Int.neg_one_mul]

/-- The parser on a text of 19 bytes and what follows them. -/
theorem parseRfc3339ToUnixSecs_cons {s : Str}
    {b0 b1 b2 b3 b4 b5 b6 b7 b8 b9 b10 b11 b12 b13 b14 b15 b16 b17 b18 : UInt8} {t : Bytes}
    (hs : s.utf8 = [b0, b1, b2, b3, b4, b5, b6, b7, b8, b9, b10, b11, b12, b13, b14, b15, b16, b17,
      b18] ++ t) (hsep : b4 = 45 ∧ b7 = 45 ∧ b13 = 58 ∧ b16 = 58 ∧ (b10 = 84 ∨ b10 = 116))
    (hne : t ≠ []) :
    parseRfc3339ToUnixSecs s =
      (parseFixed 4 [b0, b1, b2, b3]).bind fun year => (parseFixed 2 [b5, b6]).bind fun month =>
        (parseFixed 2 [b8, b9]).bind fun day => (parseFixed 2 [b11, b12]).bind fun hour =>
          (parseFixed 2 [b14, b15]).bind fun min => (parseFixed 2 [b17, b18]).bind fun sec =>
            (parseOffset t (fractionLength t)).bind fun offset =>
              if (1 ≤ year ∧ year ≤ 9999) ∧ (1 ≤ month ∧ month ≤ 12) ∧ (1 ≤ day ∧ day ≤ 31) ∧
                  hour ≤ 23 ∧ min ≤ 59 ∧ sec ≤ 60 then
                some (calendarToDays year month day * 86400 + hour * 3600 + min * 60 + sec - offset)
              else none := by
  have hskip := @skipFraction_append [b0, b1, b2, b3, b4, b5, b6, b7, b8, b9, b10, b11, b12, b13,
    b14, b15, b16, b17, b18] 19 rfl t
  have hoffset := @parseOffset_append [b0, b1, b2, b3, b4, b5, b6, b7, b8, b9, b10, b11, b12, b13,
    b14, b15, b16, b17, b18] 19 rfl t (fractionLength t)
  have hpos := List.length_pos_iff.mpr hne
  have hlength : ¬ ([b0, b1, b2, b3, b4, b5, b6, b7, b8, b9, b10, b11, b12, b13, b14, b15, b16, b17,
      b18] ++ t).length < 20 := by
    rw [List.length_append]
    simp
    omega
  obtain ⟨rfl, rfl, rfl, rfl, hten⟩ := hsep
  unfold parseRfc3339ToUnixSecs
  rw [hs]
  dsimp only
  rw [if_neg hlength, hskip, hoffset, if_neg (by simp), if_neg (by simpa [← not_or] using hten)]
  refine congrArg (Option.bind _) (funext fun year => congrArg (Option.bind _) (funext fun month =>
    congrArg (Option.bind _) (funext fun day => congrArg (Option.bind _) (funext fun hour =>
      congrArg (Option.bind _) (funext fun min => congrArg (Option.bind _) (funext fun sec =>
        congrArg (Option.bind _) (funext fun offset => ?_)))))))
  by_cases hrange : (1 ≤ year ∧ year ≤ 9999) ∧ (1 ≤ month ∧ month ≤ 12) ∧ (1 ≤ day ∧ day ≤ 31) ∧
      hour ≤ 23 ∧ min ≤ 59 ∧ sec ≤ 60
  · rw [if_pos hrange, if_neg (by omega), if_neg (by omega)]
  · rw [if_neg hrange]
    split
    · rfl
    · rename_i hdate
      rw [if_pos (by omega)]
      rfl

theorem Fields.bytes_eq (f : Fields) : ∃ b0 b1 b2 b3 b5 b6 b8 b9 b11 b12 b14 b15 b17 b18,
    f.bytes = [b0, b1, b2, b3, 45, b5, b6, 45, b8, b9, f.sep, b11, b12, 58, b14, b15, 58, b17,
      b18] ∧ fixedDigits 4 f.year = [b0, b1, b2, b3] ∧ fixedDigits 2 f.month = [b5, b6] ∧
        fixedDigits 2 f.day = [b8, b9] ∧ fixedDigits 2 f.hour = [b11, b12] ∧
          fixedDigits 2 f.min = [b14, b15] ∧ fixedDigits 2 f.sec = [b17, b18] :=
  ⟨_, _, _, _, _, _, _, _, _, _, _, _, _, _, rfl, rfl, rfl, rfl, rfl, rfl, rfl⟩

/-- A text of 19 bytes and what follows them. -/
theorem exists_nineteen {b : Bytes} (h : 19 ≤ b.length) :
    ∃ b0 b1 b2 b3 b4 b5 b6 b7 b8 b9 b10 b11 b12 b13 b14 b15 b16 b17 b18 t,
      b = [b0, b1, b2, b3, b4, b5, b6, b7, b8, b9, b10, b11, b12, b13, b14, b15, b16, b17, b18] ++
        t := by
  obtain _ | ⟨b0, _ | ⟨b1, _ | ⟨b2, _ | ⟨b3, _ | ⟨b4, _ | ⟨b5, _ | ⟨b6, _ | ⟨b7, _ | ⟨b8, _ | ⟨b9,
    _ | ⟨b10, _ | ⟨b11, _ | ⟨b12, _ | ⟨b13, _ | ⟨b14, _ | ⟨b15, _ | ⟨b16, _ | ⟨b17, _ | ⟨b18,
    t⟩⟩⟩⟩⟩⟩⟩⟩⟩⟩⟩⟩⟩⟩⟩⟩⟩⟩⟩ := b
  iterate 19 exact absurd h (by simp)
  exact ⟨b0, b1, b2, b3, b4, b5, b6, b7, b8, b9, b10, b11, b12, b13, b14, b15, b16, b17, b18, t, rfl⟩

theorem bind_none_eq_some {α β : Type} {f : α → Option β} {v : β} :
    ((none : Option α) >>= f) = some v ↔ False := by
  simp

/-- The length and the separators that the parser asks for. -/
theorem parseRfc3339ToUnixSecs_shape {s : Str} {v : Int} (h : parseRfc3339ToUnixSecs s = some v) :
    20 ≤ s.utf8.length ∧ (s.utf8[4]? = some 45 ∧ s.utf8[7]? = some 45 ∧ s.utf8[13]? = some 58 ∧
      s.utf8[16]? = some 58) ∧ (s.utf8[10]? = some 84 ∨ s.utf8[10]? = some 116) := by
  unfold parseRfc3339ToUnixSecs at h
  generalize s.utf8 = b at h ⊢
  dsimp only at h
  by_cases hlength : b.length < 20
  · rw [if_pos hlength, bind_none_eq_some] at h
    exact h.elim
  rw [if_neg hlength] at h
  by_cases hsep : b[4]? ≠ some 45 ∨ b[7]? ≠ some 45 ∨ b[13]? ≠ some 58 ∨ b[16]? ≠ some 58
  · rw [if_pos hsep, bind_none_eq_some] at h
    exact h.elim
  rw [if_neg hsep] at h
  by_cases hten : b[10]? ≠ some 84 ∧ b[10]? ≠ some 116
  · rw [if_pos hten, bind_none_eq_some] at h
    exact h.elim
  · refine ⟨by omega, ?_, ?_⟩
    · simpa only [ne_eq, not_or, not_not] using hsep
    · simpa only [ne_eq, not_and_or, not_not] using hten

/-- What the parser accepts, before the fraction and the zone are told apart. -/
theorem parseRfc3339ToUnixSecs_eq_some {s : Str} {v : Int} :
    parseRfc3339ToUnixSecs s = some v ↔ ∃ f t offset, s.utf8 = Fields.bytes f ++ t ∧
      Fields.InRange f ∧ parseOffset t (fractionLength t) = some offset ∧
        v = f.seconds - offset := by
  constructor
  · intro h
    obtain ⟨hlength, hsep, hten⟩ := parseRfc3339ToUnixSecs_shape h
    obtain ⟨b0, b1, b2, b3, b4, b5, b6, b7, b8, b9, b10, b11, b12, b13, b14, b15, b16, b17, b18, t,
      hs⟩ := exists_nineteen (Nat.le_of_succ_le hlength)
    rw [hs] at hlength hsep hten
    have hne : t ≠ [] := by
      rintro rfl
      simp at hlength
    have hsep' : b4 = 45 ∧ b7 = 45 ∧ b13 = 58 ∧ b16 = 58 ∧ (b10 = 84 ∨ b10 = 116) := by
      simpa [and_assoc] using And.intro hsep hten
    rw [parseRfc3339ToUnixSecs_cons hs hsep' hne] at h
    obtain ⟨_, hyear, h⟩ := Option.bind_eq_some_iff.mp h
    obtain ⟨_, hmonth, h⟩ := Option.bind_eq_some_iff.mp h
    obtain ⟨_, hday, h⟩ := Option.bind_eq_some_iff.mp h
    obtain ⟨_, hhour, h⟩ := Option.bind_eq_some_iff.mp h
    obtain ⟨_, hmin, h⟩ := Option.bind_eq_some_iff.mp h
    obtain ⟨_, hsec, h⟩ := Option.bind_eq_some_iff.mp h
    obtain ⟨offset, hoffset, h⟩ := Option.bind_eq_some_iff.mp h
    obtain ⟨year, -, rfl, dyear⟩ := parseFixed_eq_some.mp hyear
    obtain ⟨month, -, rfl, dmonth⟩ := parseFixed_eq_some.mp hmonth
    obtain ⟨day, -, rfl, dday⟩ := parseFixed_eq_some.mp hday
    obtain ⟨hour, -, rfl, dhour⟩ := parseFixed_eq_some.mp hhour
    obtain ⟨min, -, rfl, dmin⟩ := parseFixed_eq_some.mp hmin
    obtain ⟨sec, -, rfl, dsec⟩ := parseFixed_eq_some.mp hsec
    split at h
    · rename_i hrange
      obtain ⟨rfl, rfl, rfl, rfl, hsep10⟩ := hsep'
      refine ⟨⟨year, month, day, b10, hour, min, sec⟩, t, offset, ?_, ?_, hoffset, ?_⟩
      · rw [hs, Fields.bytes]
        dsimp only
        rw [← dyear, ← dmonth, ← dday, ← dhour, ← dmin, ← dsec]
        rfl
      · exact ⟨by dsimp only; omega, by dsimp only; omega, by dsimp only; omega, hsep10,
          by dsimp only; omega, by dsimp only; omega, by dsimp only; omega⟩
      · rw [calendarToDays_eq hrange.2.1] at h
        exact (Option.some.inj h).symm
    · simp at h
  · rintro ⟨f, t, offset, hs, hf, hoffset, rfl⟩
    obtain ⟨b0, b1, b2, b3, b5, b6, b8, b9, b11, b12, b14, b15, b17, b18, hbytes, hyear, hmonth,
      hday, hhour, hmin, hsec⟩ := f.bytes_eq
    have hne : t ≠ [] := by
      rintro rfl
      simp [parseOffset, fractionLength] at hoffset
    obtain ⟨hyear', hmonth', hday', hsep', hhour', hmin', hsec'⟩ := hf
    rw [hbytes] at hs
    rw [parseRfc3339ToUnixSecs_cons hs ⟨rfl, rfl, rfl, rfl, hsep'⟩ hne, ← hyear, ← hmonth, ← hday,
      ← hhour, ← hmin, ← hsec, parseFixed_fixedDigits (by omega), parseFixed_fixedDigits (by omega),
      parseFixed_fixedDigits (by omega), parseFixed_fixedDigits (by omega),
      parseFixed_fixedDigits (by omega), parseFixed_fixedDigits (by omega), hoffset]
    simp only [Option.bind_some]
    rw [if_pos (by omega), calendarToDays_eq (by omega)]
    rfl

/-! ## Fractions and zones -/

theorem fractionLength_le (t : Bytes) : fractionLength t ≤ t.length := by
  cases t with
  | nil => decide
  | cons c t =>
    have := (List.takeWhile_prefix (fun c : UInt8 => IsDigit c) (l := t)).length_le
    unfold fractionLength
    rw [List.tail_cons, List.length_cons]
    split <;> omega

/-- What is skipped is a fraction. -/
theorem isFraction_take (t : Bytes) : IsFraction (t.take (fractionLength t)) := by
  unfold fractionLength
  split
  · rename_i hhead
    obtain ⟨t', rfl⟩ : ∃ t', t = 46 :: t' := by
      cases t with
      | nil => simp at hhead
      | cons c t => exact ⟨t, by rw [Option.some.inj hhead]⟩
    rw [List.tail_cons, Nat.add_comm, List.take_succ_cons,
      ← List.prefix_iff_eq_take.mp (List.takeWhile_prefix _)]
    exact .digits fun c hc => of_decide_eq_true (List.all_eq_true.mp List.all_takeWhile c hc)
  · exact .none

/-- A zone starts with neither a point nor a digit. -/
theorem IsZone.head {zone : Bytes} {offset : Int} (h : IsZone zone offset) :
    ∃ c tail, zone = c :: tail ∧ ¬ IsDigit c ∧ c ≠ 46 := by
  cases h with
  | utc hz => obtain rfl | rfl := hz <;> exact ⟨_, _, rfl, by decide, by decide⟩
  | east hoh hom => exact ⟨_, _, rfl, by decide, by decide⟩
  | west hoh hom => exact ⟨_, _, rfl, by decide, by decide⟩

/-- A fraction ends where the zone begins. -/
theorem fractionLength_append {fraction zone : Bytes} {offset : Int} (h : IsFraction fraction)
    (hzone : IsZone zone offset) (rest : Bytes) :
    fractionLength (fraction ++ (zone ++ rest)) = fraction.length := by
  obtain ⟨c, tail, rfl, hdigit, hpoint⟩ := hzone.head
  unfold fractionLength
  cases h with
  | none =>
    rw [if_neg (by simpa using hpoint)]
    rfl
  | @digits ds hds =>
    have hwhile : (ds ++ (c :: tail ++ rest)).takeWhile (fun c => IsDigit c) = ds := by
      rw [List.takeWhile_append_of_pos fun x hx => decide_eq_true (hds x hx), List.cons_append,
        List.takeWhile_cons_of_neg (by simpa using hdigit), List.append_nil]
    rw [List.cons_append, List.head?_cons, if_pos rfl, List.tail_cons, hwhile, List.length_cons,
      Nat.add_comm]

/-- What the parser accepts: a timestamp, whatever follows it. -/
theorem parseRfc3339ToUnixSecs_iff {s : Str} {v : Int} :
    parseRfc3339ToUnixSecs s = some v ↔ ∃ f fraction zone offset rest,
      IsTimestamp s.utf8 f fraction zone offset rest ∧ v = f.seconds - offset := by
  rw [parseRfc3339ToUnixSecs_eq_some]
  constructor
  · rintro ⟨f, t, offset, hs, hf, hoffset, rfl⟩
    have hlength : (t.take (fractionLength t)).length = fractionLength t := by
      rw [List.length_take, Nat.min_eq_left (fractionLength_le t)]
    have hdrop := parseOffset_append hlength (t.drop (fractionLength t)) 0
    rw [List.take_append_drop, Nat.add_zero, hoffset] at hdrop
    obtain ⟨zone, rest, hzone, hrest⟩ := parseOffset_eq_some.mp hdrop.symm
    refine ⟨f, _, zone, offset, rest, ⟨?_, hf, isFraction_take t, hzone⟩, rfl⟩
    rw [← hrest, List.take_append_drop, hs]
  · rintro ⟨f, fraction, zone, offset, rest, ⟨hs, hf, hfraction, hzone⟩, rfl⟩
    refine ⟨f, _, offset, hs, hf, ?_, rfl⟩
    have hdrop := parseOffset_append (rfl : fraction.length = fraction.length) (zone ++ rest) 0
    rw [Nat.add_zero] at hdrop
    rw [fractionLength_append hfraction hzone, hdrop]
    exact parseOffset_eq_some.mpr ⟨zone, rest, hzone, rfl⟩

/-! ## Exactness -/

/-- The grammar: the whole text is a timestamp with its value. -/
def Rfc3339 (b : Bytes) (v : Int) : Prop :=
  ∃ f fraction zone offset, IsTimestamp b f fraction zone offset [] ∧ fraction ≠ [46] ∧
    v = f.seconds - offset

/-- A timestamp with a point before no digit, or with bytes after its zone. -/
def Overhanging (b : Bytes) : Prop :=
  ∃ f fraction zone offset rest, IsTimestamp b f fraction zone offset rest ∧
    (fraction = [46] ∨ rest ≠ [])

/-- A zone is as long as its first byte says. -/
theorem IsZone.unique {zone zone' rest rest' : Bytes} {offset offset' : Int}
    (h : IsZone zone offset) (h' : IsZone zone' offset') (heq : zone ++ rest = zone' ++ rest') :
    zone.length = zone'.length := by
  have hshort : ∀ {zone : Bytes} {offset : Int}, IsZone zone offset →
      (zone.length = 1 ∧ (zone.head? = some 90 ∨ zone.head? = some 122)) ∨
        (zone.length = 6 ∧ (zone.head? = some 43 ∨ zone.head? = some 45)) := by
    intro zone offset h
    cases h with
    | utc hz => left; simpa using hz
    | east hoh hom => right; simp
    | west hoh hom => right; simp
  have hhead : zone.head? = zone'.head? := by
    obtain ⟨c, tail, rfl, -⟩ := h.head
    obtain ⟨c', tail', rfl, -⟩ := h'.head
    rw [List.cons_append, List.cons_append, List.cons.injEq] at heq
    rw [List.head?_cons, List.head?_cons, heq.1]
  obtain ⟨hl, hz⟩ | ⟨hl, hz⟩ := hshort h <;> obtain ⟨hl', hz'⟩ | ⟨hl', hz'⟩ := hshort h'
  · rw [hl, hl']
  · rw [hhead] at hz
    obtain hz | hz := hz <;> simp [hz] at hz'
  · rw [hhead] at hz
    obtain hz | hz := hz <;> simp [hz] at hz'
  · rw [hl, hl']

/-- A text is a timestamp in one way. -/
theorem IsTimestamp.unique {b : Bytes} {f f' : Fields} {fraction fraction' zone zone' : Bytes}
    {offset offset' : Int} {rest rest' : Bytes} (h : IsTimestamp b f fraction zone offset rest)
    (h' : IsTimestamp b f' fraction' zone' offset' rest') :
    fraction = fraction' ∧ rest = rest' := by
  have heq := h.bytes.symm.trans h'.bytes
  obtain ⟨-, htail⟩ := List.append_inj heq (by rw [Fields.length_bytes, Fields.length_bytes])
  have hlength := fractionLength_append h.fraction h.zone rest
  rw [htail, fractionLength_append h'.fraction h'.zone] at hlength
  obtain ⟨hfraction, hzones⟩ := List.append_inj htail hlength.symm
  exact ⟨hfraction, (List.append_inj hzones (h.zone.unique h'.zone hzones)).2⟩

/-- Where text overhangs behind the zone, the parser accepts what the grammar does not. -/
theorem not_exact_of_overhanging {s : Str} (h : Overhanging s.utf8) :
    ¬ ∀ v, parseRfc3339ToUnixSecs s = some v ↔ Rfc3339 s.utf8 v := by
  obtain ⟨f, fraction, zone, offset, rest, htimestamp, hloose⟩ := h
  intro hexact
  obtain ⟨f', fraction', zone', offset', hstrict, hfraction, -⟩ := (hexact (f.seconds - offset)).mp
    (parseRfc3339ToUnixSecs_iff.mpr ⟨f, fraction, zone, offset, rest, htimestamp, rfl⟩)
  obtain ⟨rfl, rfl⟩ := htimestamp.unique hstrict
  obtain hpoint | hrest := hloose
  · exact hfraction hpoint
  · exact hrest rfl

/-- The parser accepts exactly its grammar, except that it passes a point without a digit and
    does not look at what follows the zone. -/
theorem rfc3339Exact_iff (s : Str) :
    (∀ v, parseRfc3339ToUnixSecs s = some v ↔ Rfc3339 s.utf8 v) ↔ ¬ Overhanging s.utf8 := by
  refine ⟨fun h hloose => not_exact_of_overhanging hloose h, fun hstrict v => ?_⟩
  rw [parseRfc3339ToUnixSecs_iff]
  constructor
  · rintro ⟨f, fraction, zone, offset, rest, htimestamp, rfl⟩
    have hrest : rest = [] := by
      by_contra hne
      exact hstrict ⟨f, fraction, zone, offset, rest, htimestamp, .inr hne⟩
    subst hrest
    exact ⟨f, fraction, zone, offset, htimestamp,
      fun hpoint => hstrict ⟨f, fraction, zone, offset, [], htimestamp, .inl hpoint⟩, rfl⟩
  · rintro ⟨f, fraction, zone, offset, htimestamp, -, rfl⟩
    exact ⟨f, fraction, zone, offset, [], htimestamp, rfl⟩

/-- `2026-01-02T03:04:05Z` with a letter after it. -/
theorem not_rfc3339Exact_trailing :
    ¬ ∀ v, parseRfc3339ToUnixSecs (Str.lit "2026-01-02T03:04:05Zx") = some v ↔
      Rfc3339 (Str.lit "2026-01-02T03:04:05Zx").utf8 v := by
  refine not_exact_of_overhanging ⟨⟨2026, 1, 2, 84, 3, 4, 5⟩, [], [90], 0, [120], ?_, .inr (by simp)⟩
  exact ⟨by decide, by constructor <;> decide, .none, .utc (.inl rfl)⟩

end Asx
