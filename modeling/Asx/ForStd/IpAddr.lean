import Mathlib.Data.List.TakeWhile
import Asx.ForStd.Str

/-!
# IP addresses

`std::net::IpAddr` with its predicates and its parser. The parser reads from the front of a
text, one function for each of `read_number`, `read_separator`, `read_ipv4_addr` and
`read_ipv6_addr`; a reader that fails has read nothing.

## Key results
- `IpAddr.parse_lower`: the letter case of a text makes no difference
- `IpAddr.mem_of_parse`: an address is written with hexadecimal digits, colons and dots
-/

/-- `Ipv4Addr`, by its octets. -/
structure Ipv4Addr where
  a : UInt8
  b : UInt8
  c : UInt8
  d : UInt8
deriving DecidableEq, Repr

/-- `Ipv6Addr`, by its segments. -/
structure Ipv6Addr where
  s0 : UInt16
  s1 : UInt16
  s2 : UInt16
  s3 : UInt16
  s4 : UInt16
  s5 : UInt16
  s6 : UInt16
  s7 : UInt16
deriving DecidableEq, Repr

/-- `IpAddr`. -/
inductive IpAddr where
  | v4 (ip : Ipv4Addr)
  | v6 (ip : Ipv6Addr)
deriving DecidableEq, Repr

namespace Ipv4Addr

/-- The address as a number. -/
def toNat (ip : Ipv4Addr) : Nat :=
  ((ip.a.toNat * 256 + ip.b.toNat) * 256 + ip.c.toNat) * 256 + ip.d.toNat

/-- `Ipv4Addr::is_loopback`. -/
def isLoopback (ip : Ipv4Addr) : Bool := ip.a == 127

/-- `Ipv4Addr::is_private`. -/
def isPrivate (ip : Ipv4Addr) : Bool :=
  ip.a == 10 || (ip.a == 172 && 16 ≤ ip.b && ip.b ≤ 31) || (ip.a == 192 && ip.b == 168)

/-- `Ipv4Addr::is_link_local`. -/
def isLinkLocal (ip : Ipv4Addr) : Bool := ip.a == 169 && ip.b == 254

/-- `Ipv4Addr::is_broadcast`. -/
def isBroadcast (ip : Ipv4Addr) : Bool := ip == ⟨255, 255, 255, 255⟩

/-- `Ipv4Addr::is_documentation`. -/
def isDocumentation (ip : Ipv4Addr) : Bool :=
  (ip.a == 192 && ip.b == 0 && ip.c == 2) || (ip.a == 198 && ip.b == 51 && ip.c == 100) ||
    (ip.a == 203 && ip.b == 0 && ip.c == 113)

/-- `Ipv4Addr::is_multicast`. -/
def isMulticast (ip : Ipv4Addr) : Bool := 224 ≤ ip.a && ip.a ≤ 239

end Ipv4Addr

namespace Ipv6Addr

/-- The address as a number. -/
def toNat (ip : Ipv6Addr) : Nat :=
  (((((((ip.s0.toNat * 65536 + ip.s1.toNat) * 65536 + ip.s2.toNat) * 65536 + ip.s3.toNat) * 65536 +
    ip.s4.toNat) * 65536 + ip.s5.toNat) * 65536 + ip.s6.toNat) * 65536) + ip.s7.toNat

/-- `Ipv6Addr::is_loopback`. -/
def isLoopback (ip : Ipv6Addr) : Bool := ip == ⟨0, 0, 0, 0, 0, 0, 0, 1⟩

/-- `Ipv6Addr::is_unspecified`. -/
def isUnspecified (ip : Ipv6Addr) : Bool := ip == ⟨0, 0, 0, 0, 0, 0, 0, 0⟩

/-- `Ipv6Addr::is_multicast`. -/
def isMulticast (ip : Ipv6Addr) : Bool := ip.s0 &&& 0xff00 == 0xff00

/-- The IPv4 address in two segments. -/
def octetsOf (high low : UInt16) : Ipv4Addr :=
  ⟨(high >>> 8).toUInt8, high.toUInt8, (low >>> 8).toUInt8, low.toUInt8⟩

/-- `Ipv6Addr::to_ipv4_mapped`. -/
def toIpv4Mapped (ip : Ipv6Addr) : Option Ipv4Addr :=
  if ip.s0 = 0 ∧ ip.s1 = 0 ∧ ip.s2 = 0 ∧ ip.s3 = 0 ∧ ip.s4 = 0 ∧ ip.s5 = 0xffff then
    some (octetsOf ip.s6 ip.s7)
  else none

end Ipv6Addr

/-- `IpAddr::to_canonical`. -/
def IpAddr.toCanonical : IpAddr → IpAddr
  | .v4 ip => .v4 ip
  | .v6 ip => (ip.toIpv4Mapped.map IpAddr.v4).getD (.v6 ip)

/-! ## Parsing -/

namespace IpParser

/-- A reader takes something off the front of a text. -/
abbrev Reader (α : Type) := Str → Option (α × Str)

/-- `char::to_digit`, for a radix of at most 16. -/
def toDigit (radix : Nat) (c : Char) : Option Nat :=
  let c := Str.toAsciiLower c
  (if '0' ≤ c ∧ c ≤ '9' then some (c.toNat - 48)
    else if 'a' ≤ c ∧ c ≤ 'f' then some (c.toNat - 87) else none).filter (· < radix)

/-- `read_number`, with the number of values of the result type. -/
def readNumber (radix maxDigits : Nat) (allowZeroPrefix : Bool) (size : Nat) : Reader Nat := fun s =>
  let digits := s.takeWhile fun c => (toDigit radix c).isSome
  let value := digits.foldl (fun acc c => acc * radix + (toDigit radix c).getD 0) 0
  if digits.length = 0 ∨ digits.length > maxDigits then none
  else if allowZeroPrefix = false ∧ s.head? = some '0' ∧ digits.length > 1 then none
  else if value < size then some (value, s.dropWhile fun c => (toDigit radix c).isSome)
  else none

/-- `read_separator`: the first item has no separator in front. -/
def readSeparator {α : Type} (sep : Char) (first : Bool) (inner : Reader α) : Reader α := fun s =>
  if first then inner s
  else
    match s with
    | [] => none
    | c :: s => if c = sep then inner s else none

/-- The loop of `read_ipv4_addr`. -/
def readOctets : Nat → Bool → Reader (List Nat)
  | 0, _, s => some ([], s)
  | n + 1, first, s =>
    (readSeparator '.' first (readNumber 10 3 false 256) s).bind fun r =>
      (readOctets n false r.2).map fun rs => (r.1 :: rs.1, rs.2)

/-- The address with these octets. -/
def ofOctets (os : List Nat) : Ipv4Addr :=
  ⟨.ofNat (os.getD 0 0), .ofNat (os.getD 1 0), .ofNat (os.getD 2 0), .ofNat (os.getD 3 0)⟩

/-- `read_ipv4_addr`. -/
def readIpv4Addr : Reader Ipv4Addr := fun s =>
  (readOctets 4 true s).map fun r => (ofOctets r.1, r.2)

/-- The two groups of an embedded IPv4 address. -/
def groupsOf (ip : Ipv4Addr) : List Nat :=
  [ip.a.toNat * 256 + ip.b.toNat, ip.c.toNat * 256 + ip.d.toNat]

/-- `read_groups`: the groups that could be read, whether they end in an IPv4 address, and the
    rest of the text. -/
def readGroups : Nat → Bool → Str → List Nat × Bool × Str
  | 0, _, s => ([], false, s)
  | n + 1, first, s =>
    match if n = 0 then none else readSeparator ':' first readIpv4Addr s with
    | some (ip, rest) => (groupsOf ip, true, rest)
    | none =>
      match readSeparator ':' first (readNumber 16 4 true 65536) s with
      | some (group, rest) =>
        let more := readGroups n false rest
        (group :: more.1, more.2)
      | none => ([], false, s)

/-- The address with these groups. -/
def ofGroups (gs : List Nat) : Ipv6Addr :=
  ⟨.ofNat (gs.getD 0 0), .ofNat (gs.getD 1 0), .ofNat (gs.getD 2 0), .ofNat (gs.getD 3 0),
    .ofNat (gs.getD 4 0), .ofNat (gs.getD 5 0), .ofNat (gs.getD 6 0), .ofNat (gs.getD 7 0)⟩

/-- The part of `read_ipv6_addr` from the `::` on. -/
def readTail (head : List Nat) : Reader Ipv6Addr
  | ':' :: ':' :: s =>
    let tail := readGroups (8 - (head.length + 1)) true s
    some (ofGroups (head ++ List.replicate (8 - head.length - tail.1.length) 0 ++ tail.1), tail.2.2)
  | _ => none

/-- `read_ipv6_addr`. -/
def readIpv6Addr : Reader Ipv6Addr := fun s =>
  let head := readGroups 8 true s
  if head.1.length = 8 then some (ofGroups head.1, head.2.2)
  else if head.2.1 then none
  else readTail head.1 head.2.2

/-- `read_ip_addr`. -/
def readIpAddr : Reader IpAddr := fun s =>
  ((readIpv4Addr s).map fun r => (IpAddr.v4 r.1, r.2)).or
    ((readIpv6Addr s).map fun r => (IpAddr.v6 r.1, r.2))

end IpParser

/-- The `FromStr` of `IpAddr`: nothing may be left. -/
def IpAddr.parse (s : Str) : Option IpAddr :=
  (IpParser.readIpAddr s).bind fun r => if r.2 = [] then some r.1 else none

/-! ## How addresses are written -/

namespace IpParser

/-- A character of an address. -/
def IsAddrChar (c : Char) : Prop := (toDigit 16 c).isSome ∨ c = ':' ∨ c = '.'

/-- Lower case changes only capital letters, and to small ones. -/
theorem toAsciiLower_cases (c : Char) : Str.toAsciiLower c = c ∨
    ∃ n, 65 ≤ n ∧ n ≤ 90 ∧ c = Char.ofNat n ∧ Str.toAsciiLower c = Char.ofNat (n + 32) := by
  unfold Str.toAsciiLower
  split
  · rename_i h
    simp only [Bool.and_eq_true, decide_eq_true_eq, Char.le_def, UInt32.le_iff_toNat_le] at h
    exact .inr ⟨c.toNat, h.1, h.2, (Char.ofNat_toNat c).symm, rfl⟩
  · exact .inl rfl

theorem toAsciiLower_idem (c : Char) :
    Str.toAsciiLower (Str.toAsciiLower c) = Str.toAsciiLower c := by
  obtain h | ⟨n, hlow, hhigh, -, h⟩ := toAsciiLower_cases c
  · rw [h, h]
  · have hall : ∀ n ≤ 90, 65 ≤ n →
        Str.toAsciiLower (Char.ofNat (n + 32)) = Char.ofNat (n + 32) := by decide
    rw [h, hall n hhigh hlow]

/-- The marks of an address are not letters. -/
theorem toAsciiLower_eq_mark {c x : Char} (hx : x = '0' ∨ x = ':' ∨ x = '.') :
    Str.toAsciiLower c = x ↔ c = x := by
  obtain h | ⟨n, hlow, hhigh, hc, h⟩ := toAsciiLower_cases c
  · rw [h]
  · have hall : ∀ n ≤ 90, 65 ≤ n → (['0', ':', '.'].all fun x =>
        Char.ofNat (n + 32) ≠ x ∧ Char.ofNat n ≠ x) = true := by decide
    have hne := of_decide_eq_true (List.all_eq_true.mp (hall n hhigh hlow) x (by simpa using hx))
    rw [h, hc]
    simp [hne.1, hne.2]

theorem toDigit_lower (radix : Nat) (c : Char) :
    toDigit radix (Str.toAsciiLower c) = toDigit radix c := by
  simp only [toDigit, toAsciiLower_idem]

theorem isAddrChar_of_digit {radix : Nat} (hradix : radix ≤ 16) {c : Char}
    (h : (toDigit radix c).isSome = true) : IsAddrChar c := by
  refine .inl ?_
  simp only [toDigit] at h ⊢
  obtain ⟨n, hn⟩ := Option.isSome_iff_exists.mp h
  obtain ⟨hn, hlt⟩ := Option.filter_eq_some_iff.mp hn
  rw [hn, Option.filter_some, if_pos (by simp only [decide_eq_true_eq] at hlt ⊢; omega)]
  rfl

/-- A reader that does not tell letter cases apart and takes characters of an address only. -/
structure Plain {α : Type} (p : Reader α) : Prop where
  lower : ∀ s, p (s.map Str.toAsciiLower) = (p s).map fun r => (r.1, r.2.map Str.toAsciiLower)
  chars : ∀ s r, p s = some r → ∃ taken, s = taken ++ r.2 ∧ ∀ c ∈ taken, IsAddrChar c

/-- Numbers are read without regard to case, from address characters. -/
theorem Plain.readNumber {radix : Nat} (hradix : radix ≤ 16) (maxDigits : Nat)
    (allowZeroPrefix : Bool) (size : Nat) :
    Plain (readNumber radix maxDigits allowZeroPrefix size) where
  lower s := by
    have htake : (s.map Str.toAsciiLower).takeWhile (fun c => (toDigit radix c).isSome) =
        (s.takeWhile fun c => (toDigit radix c).isSome).map Str.toAsciiLower := by
      rw [List.takeWhile_map]
      simp only [Function.comp_def, toDigit_lower]
    have hdrop : (s.map Str.toAsciiLower).dropWhile (fun c => (toDigit radix c).isSome) =
        (s.dropWhile fun c => (toDigit radix c).isSome).map Str.toAsciiLower := by
      rw [List.dropWhile_map]
      simp only [Function.comp_def, toDigit_lower]
    have hhead : (s.map Str.toAsciiLower).head? = some '0' ↔ s.head? = some '0' := by
      cases s with
      | nil => simp
      | cons c s => simp [toAsciiLower_eq_mark]
    simp only [IpParser.readNumber, htake, hdrop, hhead, List.length_map, List.foldl_map,
      toDigit_lower]
    split
    · rfl
    · split
      · rfl
      · split
        · rfl
        · rfl
  chars s r h := by
    simp only [IpParser.readNumber] at h
    split at h
    · cases h
    · split at h
      · cases h
      · split at h
        · cases h
          refine ⟨_, (List.takeWhile_append_dropWhile).symm, fun c hc => ?_⟩
          have hdigit : (toDigit radix c).isSome = true :=
            List.mem_takeWhile_imp (p := fun c => (toDigit radix c).isSome) hc
          exact isAddrChar_of_digit hradix hdigit
        · cases h

/-- What follows a separator is read in the same way as without it. -/
theorem Plain.readSeparator {α : Type} {inner : Reader α} (h : Plain inner) {sep : Char}
    (hsep : sep = ':' ∨ sep = '.') (first : Bool) : Plain (readSeparator sep first inner) where
  lower s := by
    cases first with
    | true => exact h.lower s
    | false =>
      cases s with
      | nil => rfl
      | cons c s =>
        simp only [IpParser.readSeparator, List.map_cons, toAsciiLower_eq_mark (.inr hsep)]
        by_cases hc : c = sep
        · simpa [hc] using h.lower s
        · simp [hc]
  chars s r hr := by
    cases first with
    | true => exact h.chars s r hr
    | false =>
      cases s with
      | nil => cases hr
      | cons c s =>
        simp only [IpParser.readSeparator, Bool.false_eq_true, if_false] at hr
        split at hr
        · rename_i hc
          obtain ⟨taken, rfl, htaken⟩ := h.chars s r hr
          refine ⟨c :: taken, rfl, fun x hx => ?_⟩
          obtain rfl | hx := List.mem_cons.mp hx
          · rw [hc]
            exact .inr hsep
          · exact htaken x hx
        · cases hr

/-- The octets of an IPv4 address are read without regard to case. -/
theorem Plain.readOctets (n : Nat) (first : Bool) : Plain (readOctets n first) := by
  induction n generalizing first with
  | zero => exact ⟨fun s => rfl, fun s r h => by cases h; exact ⟨[], rfl, by simp⟩⟩
  | succ n ih =>
    have hoctet := (Plain.readNumber (by decide : 10 ≤ 16) 3 false 256).readSeparator
      (.inr rfl) first
    constructor
    · intro s
      rw [IpParser.readOctets, IpParser.readOctets, hoctet.lower]
      cases IpParser.readSeparator '.' first (IpParser.readNumber 10 3 false 256) s with
      | none => rfl
      | some r =>
        simp only [Option.map_some, Option.bind_some, (ih false).lower]
        cases IpParser.readOctets n false r.2 <;> rfl
    · intro s r h
      rw [IpParser.readOctets] at h
      obtain ⟨r', hr', h⟩ := Option.bind_eq_some_iff.mp h
      obtain ⟨rs, hrs, rfl⟩ := Option.map_eq_some_iff.mp h
      obtain ⟨taken, rfl, htaken⟩ := hoctet.chars s r' hr'
      obtain ⟨taken', hrest, htaken'⟩ := (ih false).chars _ rs hrs
      refine ⟨taken ++ taken', by rw [hrest, List.append_assoc], fun c hc => ?_⟩
      exact (List.mem_append.mp hc).elim (htaken c) (htaken' c)

theorem Plain.map {α β : Type} {p : Reader α} (h : Plain p) (f : α → β) :
    Plain fun s => (p s).map fun r => (f r.1, r.2) where
  lower s := by
    rw [h.lower]
    cases p s <;> rfl
  chars s r hr := by
    obtain ⟨r', hr', rfl⟩ := Option.map_eq_some_iff.mp hr
    exact h.chars s r' hr'

theorem plain_readIpv4Addr : Plain readIpv4Addr := (Plain.readOctets 4 true).map ofOctets

/-- An optional embedded IPv4 address, where there is room for it. -/
theorem plain_embedded (n : Nat) (first : Bool) :
    Plain fun s => if n = 0 then none else readSeparator ':' first readIpv4Addr s := by
  by_cases hn : n = 0
  · simp only [if_pos hn]
    exact ⟨fun s => rfl, fun s r h => by cases h⟩
  · simp only [if_neg hn]
    exact plain_readIpv4Addr.readSeparator (.inl rfl) first

theorem plain_group (first : Bool) :
    Plain (readSeparator ':' first (readNumber 16 4 true 65536)) :=
  (Plain.readNumber (by decide) 4 true 65536).readSeparator (.inl rfl) first

/-- The groups of an IPv6 address are read without regard to case. -/
theorem readGroups_lower (n : Nat) (first : Bool) (s : Str) :
    readGroups n first (s.map Str.toAsciiLower) =
      ((readGroups n first s).1, (readGroups n first s).2.1,
        (readGroups n first s).2.2.map Str.toAsciiLower) := by
  induction n generalizing first s with
  | zero => rfl
  | succ n ih =>
    rw [readGroups, readGroups, (plain_embedded n first).lower]
    cases if n = 0 then none else readSeparator ':' first readIpv4Addr s with
    | some r => rfl
    | none =>
      simp only [Option.map_none, (plain_group first).lower]
      cases readSeparator ':' first (readNumber 16 4 true 65536) s with
      | some r => simp only [Option.map_some, ih]
      | none => rfl

/-- The groups are read from address characters. -/
theorem readGroups_chars (n : Nat) (first : Bool) (s : Str) :
    ∃ taken, s = taken ++ (readGroups n first s).2.2 ∧ ∀ c ∈ taken, IsAddrChar c := by
  induction n generalizing first s with
  | zero => exact ⟨[], rfl, by simp⟩
  | succ n ih =>
    rw [readGroups]
    cases hip : if n = 0 then none else readSeparator ':' first readIpv4Addr s with
    | some r => exact (plain_embedded n first).chars s r hip
    | none =>
      cases hgroup : readSeparator ':' first (readNumber 16 4 true 65536) s with
      | none => exact ⟨[], rfl, by simp⟩
      | some r =>
        obtain ⟨taken, hs, htaken⟩ := (plain_group first).chars s r hgroup
        obtain ⟨taken', hrest, htaken'⟩ := ih false r.2
        refine ⟨taken ++ taken', ?_, fun c hc => ?_⟩
        · rw [hs, List.append_assoc]
          exact congrArg (taken ++ ·) hrest
        · exact (List.mem_append.mp hc).elim (htaken c) (htaken' c)

theorem plain_readTail (head : List Nat) : Plain (readTail head) where
  lower s := by
    cases s with
    | nil => rfl
    | cons c s =>
      cases s with
      | nil => simp [readTail]
      | cons c' s =>
        by_cases hc : c = ':' ∧ c' = ':'
        · obtain ⟨rfl, rfl⟩ := hc
          have hcolon : Str.toAsciiLower ':' = ':' := by decide
          simp only [List.map_cons, hcolon, readTail, readGroups_lower, Option.map_some]
        · have hlower : ¬ (Str.toAsciiLower c = ':' ∧ Str.toAsciiLower c' = ':') := by
            simpa only [toAsciiLower_eq_mark (.inr (.inl rfl))] using hc
          rw [List.map_cons, List.map_cons, readTail.eq_2, readTail.eq_2]
          · rfl
          · intro rest h
            simp only [List.cons.injEq] at h
            exact hc ⟨h.1, h.2.1⟩
          · intro rest h
            simp only [List.cons.injEq] at h
            exact hlower ⟨h.1, h.2.1⟩
  chars s r h := by
    unfold readTail at h
    split at h
    · rename_i s
      cases h
      obtain ⟨taken, hs, htaken⟩ := readGroups_chars (8 - (head.length + 1)) true s
      refine ⟨':' :: ':' :: taken, by rw [List.cons_append, List.cons_append, ← hs], fun c hc => ?_⟩
      simp only [List.mem_cons] at hc
      obtain rfl | rfl | hc := hc
      · exact .inr (.inl rfl)
      · exact .inr (.inl rfl)
      · exact htaken c hc
    · cases h

theorem plain_readIpv6Addr : Plain readIpv6Addr where
  lower s := by
    simp only [readIpv6Addr, readGroups_lower]
    split
    · rfl
    · split
      · rfl
      · exact (plain_readTail _).lower _
  chars s r h := by
    simp only [readIpv6Addr] at h
    obtain ⟨taken, hs, htaken⟩ := readGroups_chars 8 true s
    split at h
    · cases h
      exact ⟨taken, hs, htaken⟩
    · split at h
      · cases h
      · obtain ⟨taken', hrest, htaken'⟩ := (plain_readTail _).chars _ r h
        refine ⟨taken ++ taken', ?_, fun c hc => ?_⟩
        · rw [List.append_assoc, ← hrest]
          exact hs
        · exact (List.mem_append.mp hc).elim (htaken c) (htaken' c)

/-- An address is read without regard to case, from address characters. -/
theorem plain_readIpAddr : Plain readIpAddr := by
  have h4 := plain_readIpv4Addr.map IpAddr.v4
  have h6 := plain_readIpv6Addr.map IpAddr.v6
  constructor
  · intro s
    rw [readIpAddr, readIpAddr, h4.lower, h6.lower]
    cases readIpv4Addr s <;> rfl
  · intro s r h
    rw [readIpAddr] at h
    obtain h | ⟨-, h⟩ := Option.or_eq_some_iff.mp h
    · exact h4.chars s r h
    · exact h6.chars s r h

end IpParser

open IpParser

/-- The letter case of a text makes no difference. -/
theorem IpAddr.parse_lower (s : Str) : IpAddr.parse (s.map Str.toAsciiLower) = IpAddr.parse s := by
  rw [IpAddr.parse, IpAddr.parse, plain_readIpAddr.lower]
  cases readIpAddr s with
  | none => rfl
  | some r => simp

/-- An address is written with hexadecimal digits, colons and dots. -/
theorem IpAddr.mem_of_parse {s : Str} {ip : IpAddr} (h : IpAddr.parse s = some ip) :
    ∀ c ∈ s, IsAddrChar c := by
  obtain ⟨r, hr, hend⟩ := Option.bind_eq_some_iff.mp h
  obtain ⟨taken, rfl, htaken⟩ := plain_readIpAddr.chars s r hr
  split at hend
  · rename_i hnil
    rw [hnil, List.append_nil]
    exact htaken
  · cases hend

example : IpAddr.parse (.lit "::FFFF:10.0.0.1") =
    some (.v6 ⟨0, 0, 0, 0, 0, 0xffff, 0x0a00, 0x0001⟩) := by decide +kernel
