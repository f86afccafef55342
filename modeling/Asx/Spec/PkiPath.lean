import Asx.ForStd.Der
import Asx.ForStd.Except
import Asx.ForStd.ExceptT
import Asx.Native.PkiPath

/-!
# Certificate paths in DER

A token is split into the elements that its content is made of, and what is built from a chain is
split into the chain again. The splitter panics where a short length says more than there is.

## Main results
- `parseDerHeader_ok`, `parseDerHeader_of_header`: what the header parser accepts
- `run_splitX509PkipathDerCertificatesAt`: the splitter with its bounds
- `splitX509PkipathDerCertificates_flatten`: a sequence of elements is split into them
-/

namespace Asx

/-! ## Bounds -/

namespace Guarded

variable {α β : Type}

theorem run_get_bind (a : α) (f : α → Guarded β) :
    (Guarded.get (some a) >>= f : Guarded β).run = (f a).run := rfl

theorem run_none_bind (f : α → Guarded β) :
    (Guarded.get none >>= f : Guarded β).run = none := rfl

/-- A check of a guarded program, and the rest after it. -/
theorem run_rejectIf_bind (p : Prop) [Decidable p] (e : AsxError) (f : Unit → Guarded β) :
    (Guarded.rejectIf p e >>= f : Guarded β).run =
      if p then some (.error e) else (f ()).run := by
  rw [Guarded.rejectIf, ExceptT.run_ofExcept_bind, Except.rejectIf]
  by_cases h : p
  · rw [if_pos h, if_pos h]
    rfl
  · rw [if_neg h, if_neg h]

end Guarded

theorem rejectIf_bind {α : Type} (p : Prop) [Decidable p] (e : AsxError) (f : Unit → Result α) :
    (Except.rejectIf p e >>= f) = if p then .error e else f () := by
  unfold Except.rejectIf
  split <;> rfl

theorem ok_bind {α β : Type} (a : α) (f : α → Result β) : (Except.ok a >>= f) = f a := rfl

set_option maxRecDepth 20000 in
/-- The two halves of a length octet: its high bit, and the seven others. -/
theorem lengthBits : ∀ n : Fin 256, (UInt8.ofNat n &&& 0x80 = 0 ↔ n.val < 0x80) ∧
    (UInt8.ofNat n &&& 0x7F).toNat = n.val % 0x80 := by
  decide

theorem lengthBits_iff (x : UInt8) :
    (x &&& 0x80 = 0 ↔ x.toNat < 0x80) ∧ (x &&& 0x7F).toNat = x.toNat % 0x80 := by
  simpa using lengthBits ⟨x.toNat, x.toNat_lt⟩

/-- The header parser stays within its input. -/
theorem run_parseDerHeaderAt (input : Bytes) (stage : Str) :
    (parseDerHeaderAt input stage).run = some (parseDerHeader input stage) := by
  unfold parseDerHeaderAt parseDerHeader
  rw [Guarded.run_rejectIf_bind, rejectIf_bind]
  by_cases hshort : input.length < 2
  · rw [if_pos hshort, if_pos hshort]
  · rw [if_neg hshort, if_neg hshort]
    obtain ⟨tag, rest, rfl⟩ : ∃ tag rest, input = tag :: rest := by
      cases input with
      | nil => simp at hshort
      | cons tag rest => exact ⟨tag, rest, rfl⟩
    obtain ⟨firstLen, rest, rfl⟩ : ∃ n rest', rest = n :: rest' := by
      cases rest with
      | nil => simp at hshort
      | cons n rest => exact ⟨n, rest, rfl⟩
    obtain ⟨hform, hcount⟩ := lengthBits_iff firstLen
    rw [show (tag :: firstLen :: rest)[1]? = some firstLen from rfl, Guarded.run_get_bind]
    simp only [hform, hcount, List.getD_cons_succ, List.getD_cons_zero]
    by_cases hfirst : firstLen.toNat < 0x80
    · rw [if_pos hfirst, if_pos hfirst]
      rfl
    · rw [if_neg hfirst, if_neg hfirst, Guarded.run_rejectIf_bind, rejectIf_bind]
      split
      · rfl
      · rw [Guarded.run_rejectIf_bind, rejectIf_bind]
        split
        · rfl
        · rw [Guarded.run_rejectIf_bind, rejectIf_bind]
          split
          · rfl
          · rename_i hlength
            rw [slice?_eq_some (by omega) (by omega), Guarded.run_get_bind, Nat.add_sub_cancel_left,
              ExceptT.run_ofExcept_bind]
            generalize (List.foldlM _ 0 _ : Result Nat) = value
            cases value with
            | error e => rfl
            | ok valueLen =>
              dsimp only
              rw [usizeSub?_eq_some (by omega), Guarded.run_get_bind, Guarded.run_rejectIf_bind]
              change _ = some (Except.rejectIf _ _ >>= _)
              rw [rejectIf_bind]
              split
              · rfl
              · rfl

/-! ## Headers -/

/-- The header of a definite length, with the lengths of header and content. The short form says
    nothing about what follows it. -/
inductive DerHeader : Bytes → Nat → Nat → Prop
  | short (tag : UInt8) (rest : Bytes) {len : Nat} (hlen : len < 0x80) :
      DerHeader (tag :: .ofNat len :: rest) 2 len
  | long (tag : UInt8) {octets rest : Bytes} (hne : octets ≠ []) (hcount : octets.length ≤ 8)
      (hfit : octetsNat octets ≤ rest.length) :
      DerHeader (tag :: .ofNat (0x80 + octets.length) :: octets ++ rest) (2 + octets.length)
        (octetsNat octets)

/-- The checked loop over length octets does not overflow below `2 ^ 64`. -/
theorem foldlM_octets {b : Bytes} {acc : Nat} {e : AsxError}
    (h : acc * 256 ^ b.length + octetsNat b < 2 ^ 64) :
    b.foldlM (fun acc byte => Except.okOr (if acc * 256 + byte.toNat < 2 ^ 64 then
      some (acc * 256 + byte.toNat) else none) e) acc =
        .ok (acc * 256 ^ b.length + octetsNat b) := by
  induction b generalizing acc with
  | nil => simp [octetsNat_nil, pure, Except.pure]
  | cons x b ih =>
    have hsplit : acc * 256 ^ (x :: b).length + octetsNat (x :: b) =
        (acc * 256 + x.toNat) * 256 ^ b.length + octetsNat b := by
      rw [octetsNat_cons, List.length_cons, pow_succ]
      ring
    rw [hsplit] at h ⊢
    have hfirst : acc * 256 + x.toNat < 2 ^ 64 := by
      have := Nat.le_mul_of_pos_right (acc * 256 + x.toNat) (Nat.pow_pos (n := b.length)
        (by decide : 0 < 256))
      omega
    rw [List.foldlM_cons, if_pos hfirst]
    exact ih h

/-- The first length octet of the long form. -/
theorem toNat_longForm {k : Nat} (h : k ≤ 8) : (UInt8.ofNat (0x80 + k)).toNat = 0x80 + k := by
  rw [UInt8.toNat_ofNat']
  omega

theorem octetsNat_lt_usize {octets : Bytes} (h : octets.length ≤ 8) :
    octetsNat octets < 2 ^ 64 :=
  (octetsNat_lt octets).trans_le (Nat.pow_le_pow_right (by decide) h)

/-- A header that is parsed is one of DER. -/
theorem parseDerHeader_ok {input : Bytes} {stage : Str} {headerLen len : Nat}
    (h : parseDerHeader input stage = .ok (headerLen, len)) : DerHeader input headerLen len := by
  simp only [parseDerHeader, Except.bind_eq_ok, Except.rejectIf_eq_ok] at h
  obtain ⟨-, hlength, h⟩ := h
  obtain ⟨tag, rest, rfl⟩ : ∃ tag rest, input = tag :: rest := by
    cases input with
    | nil => simp at hlength
    | cons tag rest => exact ⟨tag, rest, rfl⟩
  obtain ⟨firstLen, rest, rfl⟩ : ∃ n rest', rest = n :: rest' := by
    cases rest with
    | nil => simp at hlength
    | cons n rest => exact ⟨n, rest, rfl⟩
  simp only [List.getD_cons_succ, List.getD_cons_zero] at h
  have hfirst : firstLen = .ofNat firstLen.toNat := UInt8.ofNat_toNat.symm
  by_cases hshort : firstLen.toNat < 0x80
  · rw [if_pos hshort, Except.pure_eq_ok, Prod.mk.injEq] at h
    obtain ⟨rfl, rfl⟩ := h
    have hheader := DerHeader.short tag rest hshort
    rwa [← hfirst] at hheader
  · rw [if_neg hshort] at h
    simp only [Except.bind_eq_ok, Except.rejectIf_eq_ok, Except.pure_eq_ok, Prod.mk.injEq,
      List.drop_succ_cons, List.drop_zero, List.length_cons] at h
    obtain ⟨-, hzero, -, height, -, htruncated, len', hfold, -, hfit, rfl, rfl⟩ := h
    -- the octets of the length, and what follows them
    set count := firstLen.toNat % 0x80 with hcount
    have hlen : (rest.take count).length = count := by
      rw [List.length_take]
      omega
    rw [foldlM_octets (by
      simpa using @octetsNat_lt_usize (rest.take count) (by omega))] at hfold
    obtain rfl : octetsNat (rest.take count) = len' := by simpa using hfold
    have hform : firstLen = .ofNat (0x80 + (rest.take count).length) := by
      have hlt := firstLen.toNat_lt
      rw [hlen, show 0x80 + count = firstLen.toNat by omega]
      exact hfirst
    have hdrop : (rest.drop count).length = rest.length - count := List.length_drop
    have hheader := @DerHeader.long tag (rest.take count) (rest.drop count)
      (fun hnil => hzero (by rw [← hlen, hnil]; rfl)) (by omega) (by omega)
    rw [← hform, List.cons_append, List.cons_append, List.take_append_drop, hlen] at hheader
    exact hheader

/-- Every header of DER is parsed. -/
theorem parseDerHeader_of_header {input : Bytes} (stage : Str) {headerLen len : Nat}
    (h : DerHeader input headerLen len) : parseDerHeader input stage = .ok (headerLen, len) := by
  simp only [parseDerHeader, Except.bind_eq_ok, Except.rejectIf_eq_ok]
  cases h with
  | short tag rest hlen =>
    refine ⟨(), by simp, ?_⟩
    have htoNat : (UInt8.ofNat len).toNat = len := by
      rw [UInt8.toNat_ofNat']
      omega
    simp only [List.getD_cons_succ, List.getD_cons_zero, htoNat, if_pos hlen]
    rfl
  | @long tag octets rest hne hcount hfit =>
    refine ⟨(), by simp, ?_⟩
    have hpos := List.length_pos_iff.mpr hne
    have hmod : (0x80 + octets.length) % 0x80 = octets.length := by omega
    simp only [List.cons_append, List.getD_cons_succ, List.getD_cons_zero, toNat_longForm hcount,
      hmod, if_neg (show ¬ 0x80 + octets.length < 0x80 by omega), Except.bind_eq_ok,
      Except.rejectIf_eq_ok, Except.pure_eq_ok, List.drop_succ_cons, List.drop_zero,
      List.take_left', List.length_cons, List.length_append]
    refine ⟨(), by omega, (), by omega, (), by omega, octetsNat octets, ?_, (), by omega, rfl⟩
    simpa using @foldlM_octets octets 0 _ (by simpa using octetsNat_lt_usize hcount)

/-- The header of an element whose content is there. -/
theorem derHeader_of_isTlv {tag : UInt8} {content e : Bytes} (h : IsTlv 8 tag content e)
    (rest : Bytes) : ∃ headerLen, headerLen + content.length = e.length ∧
      e.head? = some tag ∧ DerHeader (e ++ rest) headerLen content.length := by
  cases h with
  | short hlen =>
    exact ⟨2, by rw [List.length_cons, List.length_cons]; omega, rfl,
      .short tag (content ++ rest) hlen⟩
  | @long octets hne hcount hlength =>
    refine ⟨2 + octets.length, by simp; omega, rfl, ?_⟩
    have hheader := @DerHeader.long tag octets (content ++ rest) hne hcount
      (by rw [hlength, List.length_append]; omega)
    rw [hlength] at hheader
    simpa using hheader

/-- What a header covers is an element, unless it is in the short form and says too much. -/
theorem DerHeader.isTlv {input : Bytes} {headerLen len : Nat} (h : DerHeader input headerLen len)
    {tag : UInt8} (htag : input.head? = some tag) :
    (headerLen + len ≤ input.length ∧ IsTlv 8 tag ((input.drop headerLen).take len)
        (input.take (headerLen + len))) ∨
      ∃ rest, len < 0x80 ∧ rest.length < len ∧ input = tag :: .ofNat len :: rest := by
  cases h with
  | short tag' rest hlen =>
    obtain rfl : tag = tag' := (Option.some.inj htag).symm
    by_cases hfit : len ≤ rest.length
    · left
      refine ⟨by simp; omega, ?_⟩
      have hlength : (rest.take len).length = len := by
        rw [List.length_take]
        omega
      have htlv := @IsTlv.short 8 tag (rest.take len) (by rw [hlength]; exact hlen)
      rw [hlength] at htlv
      rw [Nat.add_comm]
      exact htlv
    · exact .inr ⟨rest, hlen, by omega, rfl⟩
  | @long tag' octets rest hne hcount hfit =>
    obtain rfl : tag = tag' := (Option.some.inj htag).symm
    left
    refine ⟨by simp; omega, ?_⟩
    have hlength : (rest.take (octetsNat octets)).length = octetsNat octets := by
      rw [List.length_take]
      omega
    have htlv := @IsTlv.long 8 tag (rest.take (octetsNat octets)) octets hne hcount hlength.symm
    have hdrop : (tag :: UInt8.ofNat (0x80 + octets.length) :: octets ++ rest).drop
        (2 + octets.length) = rest := by
      rw [Nat.add_comm]
      simp
    have htake : (tag :: UInt8.ofNat (0x80 + octets.length) :: octets ++ rest).take
        (2 + octets.length + octetsNat octets) =
          tag :: UInt8.ofNat (0x80 + octets.length) :: octets ++ rest.take (octetsNat octets) := by
      rw [show 2 + octets.length + octetsNat octets = octets.length + octetsNat octets + 1 + 1 by
        omega]
      simp [List.take_append]
    rw [hdrop, htake]
    exact htlv

/-! ## The loop -/

/-- What the loop and the splitter give, where `none` stands for a panic. -/
def Guarded.outcome {α : Type} : Result (Option α) → Option (Result α)
  | .error e => some (.error e)
  | .ok none => none
  | .ok (some a) => some (.ok a)

/-- One complete element with the tag of a SEQUENCE. -/
def IsSequence (e : Bytes) : Prop := ∃ content, IsTlv 8 0x30 content e

theorem IsSequence.length {e : Bytes} (h : IsSequence e) : 2 ≤ e.length := by
  obtain ⟨content, htlv⟩ := h
  cases htlv with
  | short hlen => simp
  | long hne hcount hlength => simp

/-- There are no more certificates than octets. -/
theorem length_le_length_flatten {certs : List Bytes} (h : ∀ c ∈ certs, IsSequence c) :
    certs.length ≤ certs.flatten.length := by
  rw [List.length_flatten]
  refine (List.length_le_sum_of_one_le _ ?_).trans' (by rw [List.length_map])
  intro n hn
  obtain ⟨c, hc, rfl⟩ := List.mem_map.mp hn
  have := (h c hc).length
  omega

/-- The loop takes an element off the content. -/
theorem splitCertificates_sequence {rounds : Nat} {e : Bytes} (h : IsSequence e) (rest : Bytes) :
    splitCertificates (rounds + 1) (e ++ rest) =
      (splitCertificates rounds rest).map (Option.map (e :: ·)) := by
  obtain ⟨content, htlv⟩ := h
  obtain ⟨headerLen, hlength, hhead, hheader⟩ := derHeader_of_isTlv htlv rest
  have hne : e ≠ [] := by
    rintro rfl
    simp at hhead
  rw [splitCertificates, if_neg (by simp [hne]), List.head?_append, hhead,
    parseDerHeader_of_header _ hheader]
  simp only [Option.some_or, Except.rejectIf, ne_eq, not_true_eq_false, if_false]
  change (if (e ++ rest).length < headerLen + content.length then _ else _) = _
  rw [hlength, if_neg (by simp), List.drop_left, List.take_left]
  cases splitCertificates rounds rest with
  | error e => rfl
  | ok certs => rfl

/-- The loop cuts into the end of a content that stops within an element in the short form. -/
theorem splitCertificates_cut {rounds len : Nat} {rest : Bytes} (hlen : len < 0x80)
    (hcut : rest.length < len) :
    splitCertificates (rounds + 1) (0x30 :: .ofNat len :: rest) = .ok none := by
  rw [splitCertificates, if_neg (by simp), parseDerHeader_of_header _ (.short 0x30 rest hlen)]
  simp only [List.head?_cons, Except.rejectIf, ne_eq, not_true_eq_false, if_false]
  change (if (0x30 :: UInt8.ofNat len :: rest).length < 2 + len then _ else _) = _
  rw [if_pos (by simp only [List.length_cons]; omega)]
  rfl

/-- The loop, over all the elements of a content. -/
theorem splitCertificates_flatten {certs : List Bytes} (h : ∀ c ∈ certs, IsSequence c)
    (rest : Bytes) (rounds : Nat) :
    splitCertificates (certs.length + rounds) (certs.flatten ++ rest) =
      (splitCertificates rounds rest).map (Option.map (certs ++ ·)) := by
  induction certs with
  | nil =>
    rw [List.length_nil, Nat.zero_add, List.flatten_nil, List.nil_append]
    cases splitCertificates rounds rest with
    | error e => rfl
    | ok certs => cases certs <;> rfl
  | cons c certs ih =>
    rw [List.length_cons, Nat.add_right_comm, List.flatten_cons, List.append_assoc,
      splitCertificates_sequence (h c List.mem_cons_self),
      ih fun c hc => h c (List.mem_cons_of_mem _ hc)]
    cases splitCertificates rounds rest with
    | error e => rfl
    | ok certs => cases certs <;> rfl

/-- What the loop finds in a content, when it does not fail. -/
theorem splitCertificates_ok {rounds : Nat} {content : Bytes} {found : Option (List Bytes)}
    (hrounds : content.length ≤ rounds) (h : splitCertificates rounds content = .ok found) :
    ∃ certs, (∀ c ∈ certs, IsSequence c) ∧
      (found = some certs ∧ content = certs.flatten ∨
        found = none ∧ ∃ len rest, len < 0x80 ∧ rest.length < len ∧
          content = certs.flatten ++ 0x30 :: .ofNat len :: rest) := by
  -- each round takes a certificate of two octets at least, so the rounds suffice
  induction rounds generalizing content found with
  | zero =>
    obtain rfl := List.length_eq_zero_iff.mp (Nat.le_zero.mp hrounds)
    exact ⟨[], by simp, .inl ⟨(Except.ok.inj h).symm, rfl⟩⟩
  | succ rounds ih =>
    rw [splitCertificates] at h
    split at h
    · rename_i hnil
      exact ⟨[], by simp, .inl ⟨(Except.ok.inj h).symm, hnil⟩⟩
    · simp only [Except.bind_eq_ok, Except.rejectIf_eq_ok] at h
      obtain ⟨-, htag, ⟨headerLen, len⟩, hparse, h⟩ := h
      have htag := not_not.mp htag
      have hheader := parseDerHeader_ok hparse
      obtain ⟨hfit, htlv⟩ | ⟨rest, hlen, hcut, rfl⟩ := hheader.isTlv htag
      · rw [if_neg (by dsimp only; omega)] at h
        simp only [Except.bind_eq_ok, Except.pure_eq_ok] at h
        obtain ⟨found', hrest, rfl⟩ := h
        have hseq : IsSequence (content.take (headerLen + len)) := ⟨_, htlv⟩
        have htwo := hseq.length
        rw [List.length_take] at htwo
        obtain ⟨certs, hcerts, hfound⟩ := ih (by rw [List.length_drop]; omega) hrest
        refine ⟨content.take (headerLen + len) :: certs, ?_, ?_⟩
        · rintro c (_ | ⟨_, hc⟩)
          · exact hseq
          · exact hcerts c hc
        · rw [List.flatten_cons]
          obtain ⟨rfl, hcontent⟩ | ⟨rfl, len', rest, hlen, hcut, hcontent⟩ := hfound
          · left
            refine ⟨rfl, ?_⟩
            rw [← hcontent, List.take_append_drop]
          · right
            refine ⟨rfl, len', rest, hlen, hcut, ?_⟩
            rw [List.append_assoc, ← hcontent, List.take_append_drop]
      -- a short length is not checked against the rest, and the slice is cut short
      · refine ⟨[], by simp, .inr ⟨?_, len, rest, hlen, hcut, rfl⟩⟩
        have hcuts := @splitCertificates_cut rounds len rest hlen hcut
        rw [splitCertificates, if_neg (by simp)] at hcuts
        simp only [List.head?_cons, Except.rejectIf, ne_eq, not_true_eq_false, if_false,
          hparse] at hcuts
        exact Except.ok.inj (h.symm.trans hcuts)

/-! ## The cursor -/

/-- Header and content of an element that fits memory have a length that fits `usize`. -/
theorem usizeAdd?_header {input : Bytes} {headerLen len : Nat} (h : DerHeader input headerLen len)
    (hinput : input.length < 2 ^ 64) : usizeAdd? headerLen len = some (headerLen + len) := by
  refine usizeAdd?_eq_some ?_
  cases h with
  | short tag rest hlen => omega
  | long tag hne hcount hfit =>
    simp only [List.length_cons, List.length_append, List.cons_append] at hinput
    omega

/-- The loop with its cursor: it panics where a slice ends beyond the content, and nowhere
    else. -/
theorem run_splitCertificatesAt {content : Bytes} (hcontent : content.length < 2 ^ 64)
    (rounds cursor : Nat) (hcursor : cursor ≤ content.length) (certs : List Bytes) :
    (splitCertificatesAt rounds content cursor certs).run = Guarded.outcome
      ((splitCertificates rounds (content.drop cursor)).map (Option.map (certs ++ ·))) := by
  induction rounds generalizing cursor certs with
  | zero =>
    rw [splitCertificates, Except.map, Option.map_some, List.append_nil]
    rfl
  | succ rounds ih =>
    rw [splitCertificatesAt, splitCertificates]
    by_cases hend : cursor < content.length
    · have hdrop := List.drop_eq_getElem_cons hend
      have hlength : (content.drop cursor).length = content.length - cursor := List.length_drop
      rw [if_pos hend, if_neg (by simpa using hend), List.getElem?_eq_getElem hend,
        Guarded.run_get_bind, Guarded.run_rejectIf_bind, slice?_to_end hcursor,
        Guarded.run_get_bind, ExceptT.run_bind, run_parseDerHeaderAt]
      simp only [List.head?_drop, List.getElem?_eq_getElem hend, ne_eq, Option.some.injEq]
      rw [rejectIf_bind]
      by_cases htag : content[cursor] = 0x30
      · rw [if_neg (not_not.mpr htag), if_neg (not_not.mpr htag)]
        cases hparse : parseDerHeader (content.drop cursor) "wssec_signature_material" with
        | error e => rfl
        | ok header =>
          obtain ⟨headerLen, len⟩ := header
          have hheader := parseDerHeader_ok hparse
          change (Guarded.get (usizeAdd? headerLen len) >>= _ : Guarded _).run = Guarded.outcome
            (Except.map _ (if (content.drop cursor).length < headerLen + len then _ else _))
          rw [usizeAdd?_header hheader (by omega), Guarded.run_get_bind, hlength]
          by_cases hcut : content.length - cursor < headerLen + len
          · rw [if_pos hcut]
            unfold usizeAdd?
            split
            · rw [Guarded.run_get_bind, slice?_eq_none (by omega), Guarded.run_none_bind]
              rfl
            · rw [Guarded.run_none_bind]
              rfl
          · rw [if_neg hcut, usizeAdd?_eq_some (by omega), Guarded.run_get_bind,
              slice?_eq_some (by omega) (by omega), Guarded.run_get_bind, ih _ (by omega),
              Nat.add_sub_cancel_left, List.drop_drop]
            cases splitCertificates rounds (content.drop (cursor + (headerLen + len))) with
            | error e => rfl
            | ok found =>
              cases found with
              | none => rfl
              | some found =>
                simp [Guarded.outcome, Except.map, bind, Except.bind, pure, Except.pure]
      · rw [if_pos htag, if_pos htag]
        rfl
    · rw [if_neg hend, if_pos (by simpa using hend), Except.map, Option.map_some, List.append_nil]
      rfl

/-! ## The splitter -/

/-- The content ends within an element in the short form. -/
def CutOff (pkipathDer : Bytes) : Prop :=
  ∃ (certs : List Bytes) (len : Nat) (rest : Bytes), (∀ c ∈ certs, IsSequence c) ∧ len < 0x80 ∧ rest.length < len ∧
    IsTlv 8 0x30 (certs.flatten ++ 0x30 :: .ofNat len :: rest) pkipathDer

/-- The splitter, over the content of a complete element. -/
theorem splitX509PkipathDerCertificates_tlv {pkipathDer content : Bytes}
    (h : IsTlv 8 0x30 content pkipathDer) :
    splitX509PkipathDerCertificates pkipathDer =
      (splitCertificates content.length content).bind fun certs =>
        if certs = some [] then .error (materialError .parseFailed
          "X509PKIPathv1 token does not contain any certificates") else .ok certs := by
  obtain ⟨headerLen, hlength, hhead, hheader⟩ := derHeader_of_isTlv h []
  rw [List.append_nil] at hheader
  have hdrop : pkipathDer.drop headerLen = content := by
    cases h with
    | short hlen =>
      obtain rfl : headerLen = 2 := by
        simp only [List.length_cons] at hlength
        omega
      rfl
    | @long octets hne hcount hoctets =>
      obtain rfl : headerLen = octets.length + 2 := by
        simp only [List.length_cons, List.length_append, List.cons_append] at hlength
        omega
      simp
  rw [splitX509PkipathDerCertificates, parseDerHeader_of_header _ hheader]
  simp only [hhead, Except.rejectIf, ne_eq, not_true_eq_false, if_false]
  change ((if ¬ headerLen + content.length = pkipathDer.length then _ else _ : Result Unit) >>=
    fun _ => _) = _
  rw [if_neg (not_not.mpr hlength)]
  change splitCertificates (pkipathDer.drop headerLen).length (pkipathDer.drop headerLen) >>= _ = _
  rw [hdrop]
  refine congrArg (Except.bind _) (funext fun certs => ?_)
  split <;> rfl

/-- What the splitter does not fail on is one complete element. -/
theorem isTlv_of_splitX509PkipathDerCertificates {pkipathDer : Bytes}
    {found : Option (List Bytes)} (h : splitX509PkipathDerCertificates pkipathDer = .ok found) :
    ∃ content, IsTlv 8 0x30 content pkipathDer := by
  simp only [splitX509PkipathDerCertificates, Except.bind_eq_ok, Except.rejectIf_eq_ok] at h
  obtain ⟨⟨headerLen, len⟩, hparse, -, hhead, -, hlength, -⟩ := h
  have hlength := not_not.mp hlength
  dsimp only at hlength
  obtain ⟨-, htlv⟩ | ⟨rest, hlen, hcut, rfl⟩ :=
    (parseDerHeader_ok hparse).isTlv (not_not.mp hhead)
  · rw [hlength, List.take_length] at htlv
    exact ⟨_, htlv⟩
  · have hheader := parseDerHeader_of_header "wssec_signature_material"
      (DerHeader.short 0x30 rest hlen)
    rw [hheader, Except.ok.injEq, Prod.mk.injEq] at hparse
    obtain ⟨rfl, -⟩ := hparse
    simp only [List.length_cons] at hlength
    omega

/-- The splitter takes a complete element apart. -/
theorem splitX509PkipathDerCertificates_flatten {pkipathDer : Bytes} {certs : List Bytes}
    (hne : certs ≠ []) (h : ∀ c ∈ certs, IsSequence c)
    (htlv : IsTlv 8 0x30 certs.flatten pkipathDer) :
    splitX509PkipathDerCertificates pkipathDer = .ok (some certs) := by
  obtain ⟨k, hk⟩ := Nat.exists_eq_add_of_le (length_le_length_flatten h)
  have hloop := splitCertificates_flatten h [] k
  have hnil : splitCertificates k [] = .ok (some []) := by
    cases k with
    | zero => rfl
    | succ k => rfl
  rw [List.append_nil, ← hk, hnil] at hloop
  rw [splitX509PkipathDerCertificates_tlv htlv, hloop]
  simp [Except.map, Except.bind, hne]

/-- What is split is a sequence of sequences. -/
theorem splitX509PkipathDerCertificates_some {pkipathDer : Bytes} {certs : List Bytes}
    (h : splitX509PkipathDerCertificates pkipathDer = .ok (some certs)) :
    IsTlv 8 0x30 certs.flatten pkipathDer ∧ ∀ c ∈ certs, IsSequence c := by
  obtain ⟨content, htlv⟩ := isTlv_of_splitX509PkipathDerCertificates h
  rw [splitX509PkipathDerCertificates_tlv htlv] at h
  obtain ⟨found, hloop, hfound⟩ := Except.bind_eq_ok.mp h
  obtain ⟨certs', hcerts, ⟨rfl, rfl⟩ | ⟨rfl, -⟩⟩ := splitCertificates_ok (Nat.le_refl _) hloop
  · obtain rfl : certs' = certs := by
      split at hfound
      · simp at hfound
      · simpa using hfound
    exact ⟨htlv, hcerts⟩
  · simp at hfound

/-- The splitter panics on a content that is cut off, and on no other. -/
theorem splitX509PkipathDerCertificates_none {pkipathDer : Bytes} :
    splitX509PkipathDerCertificates pkipathDer = .ok none ↔ CutOff pkipathDer := by
  constructor
  · intro h
    obtain ⟨content, htlv⟩ := isTlv_of_splitX509PkipathDerCertificates h
    rw [splitX509PkipathDerCertificates_tlv htlv] at h
    obtain ⟨found, hloop, hfound⟩ := Except.bind_eq_ok.mp h
    obtain ⟨certs, hcerts, ⟨rfl, -⟩ | ⟨rfl, len, rest, hlen, hcut, rfl⟩⟩ :=
      splitCertificates_ok (Nat.le_refl _) hloop
    · split at hfound <;> simp at hfound
    · exact ⟨certs, len, rest, hcerts, hlen, hcut, htlv⟩
  · rintro ⟨certs, len, rest, hcerts, hlen, hcut, htlv⟩
    obtain ⟨k, hk⟩ := Nat.exists_eq_add_of_le (length_le_length_flatten hcerts)
    have hloop := splitCertificates_flatten hcerts (0x30 :: .ofNat len :: rest)
      (k + rest.length + 1 + 1)
    rw [splitCertificates_cut hlen hcut] at hloop
    rw [splitX509PkipathDerCertificates_tlv htlv, List.length_append, hk]
    simp only [List.length_cons]
    rw [show certs.length + k + (rest.length + 1 + 1) = certs.length + (k + rest.length + 1 + 1) by
      omega, hloop]
    rfl

/-- The guarded reading never panics on a slice, and gives the outcome of the plain one. -/
theorem run_splitX509PkipathDerCertificatesAt {pkipathDer : Bytes}
    (h : pkipathDer.length < 2 ^ 64) :
    (splitX509PkipathDerCertificatesAt pkipathDer).run =
      Guarded.outcome (splitX509PkipathDerCertificates pkipathDer) := by
  rw [splitX509PkipathDerCertificatesAt, splitX509PkipathDerCertificates, ExceptT.run_bind,
    run_parseDerHeaderAt]
  cases hparse : parseDerHeader pkipathDer "wssec_signature_material" with
  | error e => rfl
  | ok header =>
    obtain ⟨headerLen, len⟩ := header
    have hheader := parseDerHeader_ok hparse
    obtain ⟨tag, rest, rfl⟩ : ∃ tag rest, pkipathDer = tag :: rest := by
      cases hheader with
      | short tag rest hlen => exact ⟨tag, _, rfl⟩
      | long tag hne hcount hfit => exact ⟨tag, _, rfl⟩
    rw [Option.bind_eq_bind, Option.bind_some, ok_bind]
    dsimp only
    rw [List.getElem?_cons_zero, List.head?_cons, Guarded.run_get_bind, Guarded.run_rejectIf_bind,
      rejectIf_bind]
    simp only [ne_eq, Option.some.injEq]
    by_cases htag : tag = 0x30
    · rw [if_neg (not_not.mpr htag), if_neg (not_not.mpr htag), usizeAdd?_header hheader h,
        Guarded.run_get_bind, Guarded.run_rejectIf_bind, rejectIf_bind]
      by_cases hlength : headerLen + len = (tag :: rest).length
      · rw [if_neg (not_not.mpr hlength), if_neg (not_not.mpr hlength),
          slice?_to_end (by omega), Guarded.run_get_bind, ExceptT.run_bind,
          run_splitCertificatesAt (by rw [List.length_drop]; omega) _ 0 (Nat.zero_le _)]
        simp only [List.drop_zero, List.nil_append]
        cases splitCertificates ((tag :: rest).drop headerLen).length
            ((tag :: rest).drop headerLen) with
        | error e => rfl
        | ok found =>
          cases found with
          | none => rfl
          | some certs =>
            by_cases hnil : certs = []
            · subst hnil
              rfl
            · have hsome : some certs ≠ some [] := by simpa using hnil
              rw [Except.map, Option.map_some, ok_bind, rejectIf_bind, if_neg hsome]
              change (Guarded.rejectIf (certs = []) _ >>= fun _ => pure certs : Guarded _).run = _
              rw [Guarded.run_rejectIf_bind, if_neg hnil]
              rfl
      · rw [if_pos hlength, if_pos hlength]
        rfl
    · rw [if_pos htag, if_pos htag]
      rfl

/-- Splitting ends with a result, and a path that is split is the one in the token: the
    certificates are the content of its outer element, and each of them is a complete one. -/
structure SplitsExactly (pkipathDer : Bytes) : Prop where
  safe : (splitX509PkipathDerCertificatesAt pkipathDer).run.isSome
  exact_content : ∀ certs, (splitX509PkipathDerCertificatesAt pkipathDer).run = some (.ok certs) →
    IsTlv 8 0x30 certs.flatten pkipathDer
  complete : ∀ certs, (splitX509PkipathDerCertificatesAt pkipathDer).run = some (.ok certs) →
    ∀ c ∈ certs, IsSequence c

/-- The splitter is safe and exact, except on a token whose content stops within an element with
    a length in the short form: the header parser does not compare that form with the bytes that
    are left. -/
theorem splitsExactly_iff (pkipathDer : Bytes) (h : pkipathDer.length < 2 ^ 64) :
    SplitsExactly pkipathDer ↔ ¬ CutOff pkipathDer := by
  have hrun := run_splitX509PkipathDerCertificatesAt h
  constructor
  · rintro ⟨hsafe, -, -⟩ hcut
    rw [hrun, splitX509PkipathDerCertificates_none.mpr hcut] at hsafe
    exact absurd hsafe (by simp [Guarded.outcome])
  · intro hcut
    have hok : ∀ certs, (splitX509PkipathDerCertificatesAt pkipathDer).run = some (.ok certs) →
        splitX509PkipathDerCertificates pkipathDer = .ok (some certs) := by
      intro certs hcerts
      rw [hrun] at hcerts
      cases hsplit : splitX509PkipathDerCertificates pkipathDer with
      | error e =>
        rw [hsplit] at hcerts
        simp [Guarded.outcome] at hcerts
      | ok found =>
        rw [hsplit] at hcerts
        cases found with
        | none => simp [Guarded.outcome] at hcerts
        | some found => simpa [Guarded.outcome] using hcerts
    refine ⟨?_, fun certs hcerts => (splitX509PkipathDerCertificates_some (hok certs hcerts)).1,
      fun certs hcerts => (splitX509PkipathDerCertificates_some (hok certs hcerts)).2⟩
    rw [hrun]
    cases hsplit : splitX509PkipathDerCertificates pkipathDer with
    | error e => rfl
    | ok found =>
      cases found with
      | none => exact absurd (splitX509PkipathDerCertificates_none.mp hsplit) hcut
      | some certs => rfl

/-- A path of one certificate, which is the empty SEQUENCE. -/
theorem splitsExactly_emptySequence : SplitsExactly [0x30, 0x02, 0x30, 0x00] := by
  refine (splitsExactly_iff _ (by decide)).mpr fun hcut => ?_
  rw [← splitX509PkipathDerCertificates_none] at hcut
  exact absurd hcut (by decide)

/-- The element within the token says that five bytes follow, and none does. -/
theorem not_splitsExactly_cutOff : ¬ SplitsExactly [0x30, 0x02, 0x30, 0x05] :=
  fun h => absurd h.safe (by decide)

/-! ## Round trip -/

theorem natOctets_one {n : Nat} (h0 : 0 < n) (h : n < 256) : natOctets n = [.ofNat n] := by
  rw [natOctets, Nat.digits_def' (by decide) h0, Nat.mod_eq_of_lt h, Nat.div_eq_of_lt h]
  simp

/-- One octet more. -/
theorem natOctets_step {n : Nat} (h : 256 ≤ n) :
    natOctets n = natOctets (n / 256) ++ [.ofNat n] := by
  have hlast : UInt8.ofNat (n % 256) = .ofNat n := by
    rw [← UInt8.toNat_inj, UInt8.toNat_ofNat', UInt8.toNat_ofNat']
    omega
  rw [natOctets, Nat.digits_def' (by decide) (by omega)]
  simp [natOctets, hlast]

/-- The builder writes the length in its shortest form. -/
theorem buildPkipathDer_eq {content : Bytes} (h : content.length < 2 ^ 24) :
    buildPkipathDer content = derTlv 0x30 content := by
  have hdiv : content.length / 256 / 256 = content.length / 65536 := Nat.div_div_eq_div_mul ..
  unfold buildPkipathDer derTlv derLength
  simp only [pow_zero, Nat.div_one, Nat.reducePow]
  by_cases h7 : content.length < 128
  · rw [if_pos h7, if_pos h7]
    rfl
  rw [if_neg h7, if_neg h7]
  by_cases h8 : content.length < 256
  · rw [if_pos h8, natOctets_one (by omega) h8]
    rfl
  rw [if_neg h8]
  by_cases h16 : content.length < 65536
  · rw [if_pos h16, natOctets_step (by omega), natOctets_one (by omega) (by omega)]
    rfl
  · rw [if_neg h16, natOctets_step (by omega), natOctets_step (by omega), hdiv,
      natOctets_one (by omega) (by omega)]
    rfl

/-- The splitter gives the list that a path was built from, and the verifier, which reverses it,
    the chain of the sender with the leaf first. -/
theorem splitX509PkipathDerCertificates_build (certs : List Bytes) (hne : certs ≠ [])
    (hcerts : ∀ c ∈ certs, IsSequence c) (hlength : certs.flatten.length < 2 ^ 24) :
    splitX509PkipathDerCertificates (buildPkipathChainDer certs) = .ok (some certs) ∧
      ∃ path, splitX509PkipathDerCertificates (pkipathToken certs) = .ok (some path) ∧
        path.reverse = certs := by
  have hbuild : ∀ l : List Bytes, l ≠ [] → (∀ c ∈ l, IsSequence c) →
      l.flatten.length < 2 ^ 24 →
        splitX509PkipathDerCertificates (buildPkipathChainDer l) = .ok (some l) := by
    intro l hl hseq hlen
    refine splitX509PkipathDerCertificates_flatten hl hseq ?_
    rw [buildPkipathChainDer, buildPkipathDer_eq hlen]
    exact derTlv_isTlv 0x30 (hlen.trans (by decide))
  refine ⟨hbuild certs hne hcerts hlength, certs.reverse, ?_, List.reverse_reverse certs⟩
  refine hbuild certs.reverse (by simpa using hne) (fun c hc => hcerts c (by simpa using hc)) ?_
  rwa [List.length_flatten, List.map_reverse, List.sum_reverse, ← List.length_flatten]

/-- Two certificates: the empty SEQUENCE and one with a NULL. -/
theorem splitX509PkipathDerCertificates_build_two :
    splitX509PkipathDerCertificates
        (buildPkipathChainDer [[0x30, 0x00], [0x30, 0x02, 0x05, 0x00]]) =
      .ok (some [[0x30, 0x00], [0x30, 0x02, 0x05, 0x00]]) := by
  refine (splitX509PkipathDerCertificates_build _ (by simp) ?_ (by decide)).1
  rintro c hc
  simp only [List.mem_cons, List.not_mem_nil, or_false] at hc
  obtain rfl | rfl := hc
  · exact ⟨[], .short (by decide)⟩
  · exact ⟨[0x05, 0x00], .short (by decide)⟩

end Asx
