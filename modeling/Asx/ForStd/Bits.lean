import Mathlib.Data.List.Induction
import Mathlib.Data.Nat.Bitwise
import Asx.ForStd.Bytes

/-!
# Bits of byte strings

The bits of a byte string, most significant bit of each byte first, and the numbers that groups
of them write. A last group that is not full is continued with zero bits.

## Key results
- `bits_injective`, `bits_take`: bytes and their bits
- `bitsNat_testBits`: a number is what its own bits write
- `bitGroups_append`, `bitGroups_injective`: consecutive groups of one size
-/

/-- The lowest `size` bits of a number, most significant first. -/
def testBits (size n : Nat) : List Bool := (List.range size).map fun i => n.testBit (size - 1 - i)

/-- The number that bits write, most significant first. -/
def bitsNat (l : List Bool) : Nat := l.foldl (fun acc b => 2 * acc + b.toNat) 0

/-- The bits of a byte string. -/
def bits (s : Bytes) : List Bool := s.flatMap fun b => testBits 8 b.toNat

/-- The bits from position `size * i` on, `size` of them. -/
def bitGroup (size : Nat) (l : List Bool) (i : Nat) : List Bool :=
  (List.range size).map fun j => l.getD (size * i + j) false

/-- The consecutive groups of `size` bits, the last one continued with zero bits. -/
def bitGroups (size : Nat) (l : List Bool) : List (List Bool) :=
  (List.range ((l.length + (size - 1)) / size)).map (bitGroup size l)

/-! ## Numbers -/

@[simp] theorem length_testBits (size n : Nat) : (testBits size n).length = size := by
  simp [testBits]

theorem testBits_succ (size n : Nat) :
    testBits (size + 1) n = testBits size (n / 2) ++ [n.testBit 0] := by
  rw [testBits, List.range_succ, List.map_append, List.map_singleton, testBits]
  congr 1
  · refine List.map_congr_left fun i hi => ?_
    have hlt := List.mem_range.mp hi
    rw [Nat.testBit_div_two]
    congr 1
    omega
  · simp

theorem bitsNat_concat (l : List Bool) (b : Bool) : bitsNat (l ++ [b]) = 2 * bitsNat l + b.toNat := by
  simp [bitsNat, List.foldl_append]

theorem bitsNat_lt (l : List Bool) : bitsNat l < 2 ^ l.length := by
  induction l using List.reverseRecOn with
  | nil => decide
  | append_singleton l b ih =>
    -- the last bit is the lowest: one more bit doubles the bound
    have hb := b.toNat_lt
    rw [bitsNat_concat, List.length_append, List.length_singleton, pow_succ]
    omega

/-- A number is what its own bits write. -/
theorem bitsNat_testBits {size n : Nat} (h : n < 2 ^ size) : bitsNat (testBits size n) = n := by
  induction size generalizing n with
  | zero =>
    have hn : n = 0 := by simpa using h
    subst hn
    rfl
  | succ size ih =>
    -- all bits but the lowest are those of the half
    have hhalf : n / 2 < 2 ^ size := by
      rw [pow_succ] at h
      omega
    rw [testBits_succ, bitsNat_concat, ih hhalf, Nat.testBit_zero]
    have hdiv := Nat.div_add_mod n 2
    by_cases hodd : n % 2 = 1
    · simp only [hodd, decide_true, Bool.toNat_true]
      omega
    · simp only [hodd, decide_false, Bool.toNat_false]
      omega

/-- Bits of one length that write one number are the same. -/
theorem bitsNat_injective {l l' : List Bool} (hlength : l.length = l'.length)
    (h : bitsNat l = bitsNat l') : l = l' := by
  induction l using List.reverseRecOn generalizing l' with
  | nil => exact (List.eq_nil_of_length_eq_zero hlength.symm).symm
  | append_singleton l b ih =>
    rcases List.eq_nil_or_concat l' with rfl | ⟨l', b', rfl⟩
    · simp at hlength
    · rw [List.concat_eq_append, bitsNat_concat, bitsNat_concat] at h
      have hb := b.toNat_lt
      have hb' := b'.toNat_lt
      -- the last bits are the parities of the two numbers
      have hlast : b = b' := by
        cases b <;> cases b' <;>
          simp only [Bool.toNat_false, Bool.toNat_true, reduceCtorEq] at h ⊢ <;> omega
      rw [ih (by simpa using hlength) (by omega), hlast, List.concat_eq_append]

/-! ## Byte strings -/

@[simp] theorem bits_nil : bits [] = [] := rfl

@[simp] theorem bits_cons (b : UInt8) (s : Bytes) : bits (b :: s) = testBits 8 b.toNat ++ bits s :=
  rfl

theorem bits_append (s t : Bytes) : bits (s ++ t) = bits s ++ bits t := List.flatMap_append

@[simp] theorem length_bits (s : Bytes) : (bits s).length = 8 * s.length := by
  induction s with
  | nil => rfl
  | cons b s ih =>
    rw [bits_cons, List.length_append, ih, length_testBits, List.length_cons]
    omega

/-- Different byte strings have different bits. -/
theorem bits_injective : Function.Injective bits := by
  intro s
  induction s with
  | nil =>
    intro t h
    have hlength := congrArg List.length h
    rw [length_bits, length_bits] at hlength
    exact (List.eq_nil_of_length_eq_zero (by simpa using hlength.symm)).symm
  | cons b s ih =>
    intro t h
    cases t with
    | nil => simpa using congrArg List.length h
    | cons c t =>
      rw [bits_cons, bits_cons] at h
      -- eight bits for each byte, so the first bytes have the same bits
      obtain ⟨hbits, hrest⟩ := List.append_inj h (by simp)
      have hvalue := congrArg bitsNat hbits
      rw [bitsNat_testBits b.toNat_lt, bitsNat_testBits c.toNat_lt] at hvalue
      rw [UInt8.toNat_inj.mp hvalue, ih hrest]

/-- The first bytes are the first bits. -/
theorem bits_take (s : Bytes) (n : Nat) : bits (s.take n) = (bits s).take (8 * n) := by
  have hsplit : bits s = bits (s.take n) ++ bits (s.drop n) := by
    rw [← bits_append, List.take_append_drop]
  by_cases hn : n ≤ s.length
  · rw [hsplit, List.take_left' (by rw [length_bits, List.length_take_of_le hn])]
  -- nothing is cut off on either side
  · rw [List.take_of_length_le (by omega), List.take_of_length_le (by rw [length_bits]; omega)]

/-! ## Groups -/

@[simp] theorem length_bitGroup (size : Nat) (l : List Bool) (i : Nat) :
    (bitGroup size l i).length = size := by
  simp [bitGroup]

@[simp] theorem length_bitGroups (size : Nat) (l : List Bool) :
    (bitGroups size l).length = (l.length + (size - 1)) / size := by
  simp [bitGroups]

/-- Groups of what ends at a group's end. -/
theorem bitGroups_append {size k : Nat} {l : List Bool} (hsize : 0 < size)
    (hlength : l.length = size * k) (l' : List Bool) :
    bitGroups size (l ++ l') = bitGroups size l ++ bitGroups size l' := by
  have hcount : (l.length + (size - 1)) / size = k := by
    rw [hlength, Nat.mul_add_div hsize, Nat.div_eq_of_lt (by omega), Nat.add_zero]
  have hcounts : ((l ++ l').length + (size - 1)) / size = k + (l'.length + (size - 1)) / size := by
    rw [List.length_append, hlength, Nat.add_assoc, Nat.mul_add_div hsize]
  rw [bitGroups, hcounts, List.range_add, List.map_append, bitGroups, hcount, bitGroups,
    List.map_map]
  congr 1
  -- a group before the boundary lies in `l`, one after it in `l'`
  · refine List.map_congr_left fun i hi => List.map_congr_left fun j hj => ?_
    have hi' := List.mem_range.mp hi
    have hj' := List.mem_range.mp hj
    have hin : size * i + j < l.length := by
      have := Nat.mul_le_mul_left size hi'
      rw [Nat.mul_succ] at this
      omega
    rw [List.getD_append _ _ _ _ hin]
  · refine List.map_congr_left fun i _ => List.map_congr_left fun j _ => ?_
    have hpos : size * (k + i) + j = l.length + (size * i + j) := by
      rw [hlength, Nat.mul_add, Nat.add_assoc]
    rw [hpos, List.getD_append_right _ _ _ _ (by omega), Nat.add_sub_cancel_left]

/-- Bits of one length are determined by their groups. -/
theorem bitGroups_injective {size : Nat} {l l' : List Bool} (hsize : 0 < size)
    (hlength : l.length = l'.length) (h : bitGroups size l = bitGroups size l') : l = l' := by
  refine List.ext_getElem hlength fun k hk hk' => ?_
  -- bit `k` is in group `k / size`
  have hgroup : bitGroup size l (k / size) = bitGroup size l' (k / size) := by
    rw [bitGroups, bitGroups, ← hlength] at h
    refine List.map_inj_left.mp h _ (List.mem_range.mpr ?_)
    rw [Nat.div_lt_iff_lt_mul hsize, Nat.mul_comm]
    have := Nat.div_add_mod (l.length + (size - 1)) size
    have := Nat.mod_lt (l.length + (size - 1)) hsize
    omega
  have hbit := List.map_inj_left.mp hgroup (k % size)
    (List.mem_range.mpr (Nat.mod_lt k hsize))
  rw [Nat.div_add_mod] at hbit
  rwa [List.getD_eq_getElem _ _ hk, List.getD_eq_getElem _ _ hk'] at hbit
