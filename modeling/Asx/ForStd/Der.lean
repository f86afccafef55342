import Asx.ForStd.Octets

/-!
# Tag, length and value

Elements with a definite length, as BER and DER write them, and the octets of a number without
leading zeros. DER has one length for every content, in its shortest form.

## Key results
- `octetsNat_natOctets`, `natOctets_octetsNat`: numbers and octets without leading zeros
- `derTlv_isTlv`: the DER form is an element
- `derTlv_append_inj`: it says where it ends
- `isDerNat_iff`: the shortest form of an INTEGER that is not negative
- `paddedOctets_octetsNat`: octets of a known number come back
-/

/-! ## Numbers in octets -/

/-- The octets of a number, most significant first, without leading zeros. -/
def natOctets (n : Nat) : Bytes := ((Nat.digits 256 n).map UInt8.ofNat).reverse

theorem octetsNat_nil : octetsNat [] = 0 := rfl

/-- The number of octets in two parts. -/
theorem octetsNat_append (a b : Bytes) :
    octetsNat (a ++ b) = octetsNat a * 256 ^ b.length + octetsNat b := by
  rw [octetsNat, octetsNat, octetsNat, List.reverse_append, List.map_append, Nat.ofDigits_append]
  rw [List.length_map, List.length_reverse, Nat.mul_comm, Nat.add_comm]

theorem octetsNat_cons (x : UInt8) (b : Bytes) :
    octetsNat (x :: b) = x.toNat * 256 ^ b.length + octetsNat b := by
  rw [← List.singleton_append, octetsNat_append]
  simp [octetsNat]

theorem octetsNat_lt (b : Bytes) : octetsNat b < 256 ^ b.length := by
  induction b with
  | nil => decide
  | cons x b ih =>
    rw [octetsNat_cons, List.length_cons, pow_succ]
    have hx : x.toNat ≤ 255 := by
      have := x.toNat_lt
      omega
    have hle := Nat.mul_le_mul_right (256 ^ b.length) hx
    omega

/-- Reading octets one by one. -/
theorem foldl_octets (b : Bytes) (acc : Nat) :
    b.foldl (fun acc x => acc * 256 + x.toNat) acc = acc * 256 ^ b.length + octetsNat b := by
  induction b generalizing acc with
  | nil => simp [octetsNat_nil]
  | cons x b ih =>
    rw [List.foldl_cons, ih, octetsNat_cons, List.length_cons, pow_succ]
    ring

/-- The lower octets of a number, all of them written. -/
theorem octetsNat_range (n k : Nat) :
    octetsNat ((List.range k).reverse.map fun i => .ofNat (n / 256 ^ i)) = n % 256 ^ k := by
  induction k with
  | zero => simp [octetsNat_nil, Nat.mod_one]
  | succ k ih =>
    rw [List.range_succ, List.reverse_append, List.reverse_singleton, List.singleton_append,
      List.map_cons, octetsNat_cons, ih, List.length_map, List.length_reverse, List.length_range,
      UInt8.toNat_ofNat', pow_succ 256 k, Nat.mod_mul, Nat.mul_comm, Nat.add_comm]

/-- A number is read back from its octets. -/
theorem octetsNat_natOctets (n : Nat) : octetsNat (natOctets n) = n := by
  have hmap : ((Nat.digits 256 n).map UInt8.ofNat).map UInt8.toNat = Nat.digits 256 n := by
    rw [List.map_map]
    refine (List.map_congr_left fun d hd => ?_).trans (List.map_id _)
    have hlt : d < 256 := Nat.digits_lt_base (by decide) hd
    simpa using Nat.mod_eq_of_lt hlt
  rw [octetsNat, natOctets, List.reverse_reverse, hmap, Nat.ofDigits_digits]

/-- Octets without a leading zero are those of their number. -/
theorem natOctets_octetsNat {b : Bytes} (h : b.head? ≠ some 0) : natOctets (octetsNat b) = b := by
  rw [natOctets, digits_octetsNat h, List.map_map]
  have hmap : b.reverse.map (UInt8.ofNat ∘ UInt8.toNat) = b.reverse :=
    (List.map_congr_left fun x _ => UInt8.ofNat_toNat).trans (List.map_id _)
  rw [hmap, List.reverse_reverse]

theorem head?_natOctets (n : Nat) : (natOctets n).head? ≠ some 0 := by
  intro hzero
  rw [natOctets, List.head?_reverse, List.getLast?_map] at hzero
  obtain ⟨d, hd, hd0⟩ := Option.map_eq_some_iff.mp hzero
  have hne : n ≠ 0 := by
    rintro rfl
    simp at hd
  have hlast := Nat.getLast_digit_ne_zero 256 hne
  have hmem := List.mem_of_getLast? hd
  have hlt : d < 256 := Nat.digits_lt_base (by decide) hmem
  have hd' : d = 0 := by
    have := congrArg UInt8.toNat hd0
    simpa [Nat.mod_eq_of_lt hlt] using this
  rw [List.getLast?_eq_some_getLast (List.ne_nil_of_mem hmem)] at hd
  exact hlast ((Option.some.inj hd).trans hd')

/-- A number below `256 ^ k` has at most `k` octets. -/
theorem length_natOctets_le {n k : Nat} (h : n < 256 ^ k) : (natOctets n).length ≤ k := by
  rw [natOctets, List.length_reverse, List.length_map]
  exact (Nat.digits_length_le_iff (by decide) n).mpr h

theorem natOctets_ne_nil {n : Nat} (h : n ≠ 0) : natOctets n ≠ [] := by
  intro hnil
  have := octetsNat_natOctets n
  rw [hnil, octetsNat_nil] at this
  exact h this.symm

/-! ## Elements -/

/-- One element with a definite length: a tag, the length of the content in the short form or in
    the long form with at most `width` octets, and the content. -/
inductive IsTlv (width : Nat) (tag : UInt8) (content : Bytes) : Bytes → Prop
  | short (h : content.length < 0x80) :
      IsTlv width tag content (tag :: .ofNat content.length :: content)
  | long {octets : Bytes} (hne : octets ≠ []) (hcount : octets.length ≤ width)
      (hlength : octetsNat octets = content.length) :
      IsTlv width tag content (tag :: .ofNat (0x80 + octets.length) :: octets ++ content)

/-- The length of a content in its shortest form. -/
def derLength (n : Nat) : Bytes :=
  if n < 0x80 then [.ofNat n] else .ofNat (0x80 + (natOctets n).length) :: natOctets n

/-- The DER form of an element. -/
def derTlv (tag : UInt8) (content : Bytes) : Bytes :=
  tag :: derLength content.length ++ content

/-- An element that is written is one of DER. -/
theorem derTlv_isTlv (tag : UInt8) {content : Bytes} {width : Nat}
    (h : content.length < 256 ^ width) : IsTlv width tag content (derTlv tag content) := by
  unfold derTlv derLength
  by_cases hshort : content.length < 0x80
  · rw [if_pos hshort]
    exact .short hshort
  · rw [if_neg hshort]
    exact .long (natOctets_ne_nil (by omega)) (length_natOctets_le h) (octetsNat_natOctets _)

/-- The length octets say where they end: what follows is not needed to read them. -/
theorem derLength_append_inj {m n : Nat} (hm : m < 256 ^ 126) (hn : n < 256 ^ 126) {x y : Bytes}
    (h : derLength m ++ x = derLength n ++ y) : m = n ∧ x = y := by
  have hmlen := length_natOctets_le hm
  have hnlen := length_natOctets_le hn
  unfold derLength at h
  by_cases hm' : m < 0x80
  · by_cases hn' : n < 0x80
    · rw [if_pos hm', if_pos hn'] at h
      obtain ⟨hhead, rfl⟩ := List.cons.inj h
      have hnat := congrArg UInt8.toNat hhead
      rw [UInt8.toNat_ofNat', UInt8.toNat_ofNat'] at hnat
      exact ⟨by omega, rfl⟩
    · rw [if_pos hm', if_neg hn'] at h
      have hnat := congrArg UInt8.toNat (List.cons.inj h).1
      rw [UInt8.toNat_ofNat', UInt8.toNat_ofNat'] at hnat
      omega
  · by_cases hn' : n < 0x80
    · rw [if_neg hm', if_pos hn'] at h
      have hnat := congrArg UInt8.toNat (List.cons.inj h).1
      rw [UInt8.toNat_ofNat', UInt8.toNat_ofNat'] at hnat
      omega
    · -- the first octet counts the octets of the length
      rw [if_neg hm', if_neg hn'] at h
      obtain ⟨hhead, htail⟩ := List.cons.inj h
      have hnat := congrArg UInt8.toNat hhead
      rw [UInt8.toNat_ofNat', UInt8.toNat_ofNat'] at hnat
      obtain ⟨hoctets, rfl⟩ := List.append_inj htail (by omega)
      have hvalue := congrArg octetsNat hoctets
      rw [octetsNat_natOctets, octetsNat_natOctets] at hvalue
      exact ⟨hvalue, rfl⟩

/-- An element in its DER form says where it ends. -/
theorem derTlv_append_inj {tag : UInt8} {a b x y : Bytes} (ha : a.length < 256 ^ 126)
    (hb : b.length < 256 ^ 126) (h : derTlv tag a ++ x = derTlv tag b ++ y) : a = b ∧ x = y := by
  rw [derTlv, derTlv, List.cons_append, List.cons_append, List.append_assoc,
    List.append_assoc] at h
  obtain ⟨hlength, hrest⟩ := derLength_append_inj ha hb (List.cons.inj h).2
  exact List.append_inj hrest hlength

/-! ## Integers -/

/-- The content of an INTEGER that is not negative, in its shortest form: a zero stands first where
    the octets alone would be taken for a negative number, or where there are none. -/
def derNat (n : Nat) : Bytes :=
  if (natOctets n).head?.all (· ≥ 0x80) then 0 :: natOctets n else natOctets n

/-- Content of an INTEGER: not negative, and without an octet that could be left out. -/
structure IsDerNat (content : Bytes) : Prop where
  sign : ∃ x rest, content = x :: rest ∧ x < 0x80
  shortest : ∀ x rest, content = 0 :: x :: rest → 0x80 ≤ x

theorem octetsNat_derNat (n : Nat) : octetsNat (derNat n) = n := by
  unfold derNat
  split
  · rw [octetsNat_zero_cons, octetsNat_natOctets]
  · exact octetsNat_natOctets n

/-- The content of a written INTEGER is in the shortest form. -/
theorem derNat_isDerNat (n : Nat) : IsDerNat (derNat n) := by
  unfold derNat
  have hhead := head?_natOctets n
  cases hoctets : natOctets n with
  | nil => exact ⟨⟨0, [], rfl, by decide⟩, fun x rest h => by cases h⟩
  | cons x rest =>
    rw [hoctets] at hhead
    by_cases hx : x ≥ 0x80
    · rw [if_pos (by simpa using hx)]
      refine ⟨⟨0, x :: rest, rfl, by decide⟩, fun y rest' h => ?_⟩
      cases h
      exact hx
    · rw [if_neg (by simpa using hx)]
      refine ⟨⟨x, rest, rfl, UInt8.not_le.mp hx⟩, fun y rest' h => ?_⟩
      cases h
      exact absurd rfl hhead

/-- Of a number there is one such form. -/
theorem derNat_octetsNat {content : Bytes} (h : IsDerNat content) :
    derNat (octetsNat content) = content := by
  obtain ⟨x, rest, rfl, hx⟩ := h.sign
  by_cases hzero : x = 0
  · subst hzero
    cases rest with
    | nil => decide
    | cons y rest =>
      have hy := h.shortest y rest rfl
      have hne : (y :: rest).head? ≠ some 0 := by
        rintro heq
        obtain rfl := Option.some.inj heq
        exact absurd hy (by decide)
      rw [octetsNat_zero_cons, derNat, natOctets_octetsNat hne, if_pos (by simpa using hy)]
  · have hne : (x :: rest).head? ≠ some 0 := fun heq => hzero (Option.some.inj heq)
    rw [derNat, natOctets_octetsNat hne, if_neg]
    simpa using hx

/-- The shortest forms are what is written. -/
theorem isDerNat_iff {content : Bytes} : IsDerNat content ↔ ∃ n, content = derNat n := by
  constructor
  · intro h
    exact ⟨octetsNat content, (derNat_octetsNat h).symm⟩
  · rintro ⟨n, rfl⟩
    exact derNat_isDerNat n

theorem length_derNat_le (n : Nat) : (derNat n).length ≤ (natOctets n).length + 1 := by
  unfold derNat
  split
  · rfl
  · omega

/-! ## Padding -/

/-- A number in a fixed number of octets, if they are enough. -/
def paddedOctets (n width : Nat) : Bytes := List.leftpad width 0 (natOctets n)

theorem octetsNat_replicate_append (k : Nat) (b : Bytes) :
    octetsNat (List.replicate k 0 ++ b) = octetsNat b := by
  induction k with
  | zero => rfl
  | succ k ih => rw [List.replicate_succ, List.cons_append, octetsNat_zero_cons, ih]

/-- Padding does not change the number. -/
theorem octetsNat_paddedOctets (n width : Nat) : octetsNat (paddedOctets n width) = n := by
  rw [paddedOctets, List.leftpad, octetsNat_replicate_append, octetsNat_natOctets]

theorem length_paddedOctets {n width : Nat} (h : (natOctets n).length ≤ width) :
    (paddedOctets n width).length = width := by
  rw [paddedOctets, List.leftpad, List.length_append, List.length_replicate]
  omega

/-- Leading zeros come back where the width is known. -/
theorem paddedOctets_octetsNat (b : Bytes) : paddedOctets (octetsNat b) b.length = b := by
  induction b with
  | nil => decide
  | cons x b ih =>
    by_cases hx : x = 0
    · subst hx
      have hle : (natOctets (octetsNat b)).length ≤ b.length := length_natOctets_le (octetsNat_lt b)
      rw [octetsNat_zero_cons, paddedOctets, List.leftpad, List.length_cons,
        Nat.succ_sub hle, List.replicate_succ, List.cons_append]
      exact congrArg (0 :: ·) ih
    · have hne : (x :: b).head? ≠ some 0 := fun heq => hx (Option.some.inj heq)
      rw [paddedOctets, natOctets_octetsNat hne, List.leftpad, Nat.sub_self]
      rfl
