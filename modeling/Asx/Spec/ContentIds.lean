import Asx.ForStd.Ascii
import Asx.Native.Mime
import Asx.Spec.PayloadIntegrity

/-!
# Content-ID normalizers

Four functions take the scheme and the brackets off a Content-ID: `normalize_cid_uri` of the
verifier, the two `normalize_cid` of the coverage check and of the encryption, and
`normalized_cid_bytes` of the MIME parser. They take them off in different orders, and not the
same number of times.

## Key results
- `normalizedCidBytes_utf8`: the normalizer of bytes, on characters
- `normalizersAgree_iff`: the texts on which all four give one identifier
-/

namespace Asx

/-! ## Trimming -/

/-- Without the characters of a kind at both ends. -/
def trimBoth {α : Type} (p : α → Bool) (s : List α) : List α :=
  ((s.dropWhile p).reverse.dropWhile p).reverse

/-- Neither end of a text is of the kind. -/
def NoEdge (p : Char → Bool) (s : Str) : Prop :=
  (∀ c ∈ s.head?, p c = false) ∧ ∀ c ∈ s.getLast?, p c = false

theorem dropWhile_of_head {p : Char → Bool} {s : Str} (h : ∀ c ∈ s.head?, p c = false) :
    s.dropWhile p = s := by
  cases s with
  | nil => rfl
  | cons c s => rw [List.dropWhile_cons_of_neg (by simp [h c rfl])]

theorem dropWhile_append_of_all {p : Char → Bool} {w : Str} (hw : ∀ c ∈ w, p c = true) (s : Str) :
    (w ++ s).dropWhile p = s.dropWhile p := by
  induction w with
  | nil => rfl
  | cons c w ih =>
    rw [List.cons_append, List.dropWhile_cons_of_pos (hw c List.mem_cons_self)]
    exact ih fun x hx => hw x (List.mem_cons_of_mem c hx)

/-- Trimming takes away what stands around a text with clean ends. -/
theorem trimBoth_append {p : Char → Bool} {w s w' : Str} (hw : ∀ c ∈ w, p c = true)
    (hw' : ∀ c ∈ w', p c = true) (hs : NoEdge p s) : trimBoth p (w ++ (s ++ w')) = s := by
  obtain ⟨hhead, hlast⟩ := hs
  rw [trimBoth, dropWhile_append_of_all hw]
  cases s with
  | nil =>
    rw [List.nil_append]
    have hnil := dropWhile_append_of_all hw' []
    rw [List.append_nil] at hnil
    rw [hnil]
    rfl
  | cons c s =>
    have hfirst : ((c :: s) ++ w').dropWhile p = (c :: s) ++ w' :=
      dropWhile_of_head (by simpa using hhead)
    have hend : (c :: s).reverse.dropWhile p = (c :: s).reverse :=
      dropWhile_of_head (by rwa [List.head?_reverse])
    rw [hfirst, List.reverse_append, dropWhile_append_of_all (by simpa using hw'), hend,
      List.reverse_reverse]

/-- What is trimmed away is of the kind. -/
theorem exists_trimBoth (p : Char → Bool) (s : Str) :
    ∃ w w', s = w ++ (trimBoth p s ++ w') ∧ (∀ c ∈ w, p c = true) ∧ ∀ c ∈ w', p c = true := by
  have hall : ∀ t : Str, ∀ c ∈ t.takeWhile p, p c = true := fun t =>
    List.all_eq_true.mp List.all_takeWhile
  refine ⟨s.takeWhile p, ((s.dropWhile p).reverse.takeWhile p).reverse, ?_, hall s, ?_⟩
  · rw [trimBoth, ← List.reverse_append, List.takeWhile_append_dropWhile, List.reverse_reverse,
      List.takeWhile_append_dropWhile]
  · intro c hc
    exact hall _ c (List.mem_reverse.mp hc)

/-- Without the ASCII white space at both ends, which the vertical tab is not. -/
def trimAscii (s : Str) : Str := trimBoth Str.isAsciiWhitespace s

/-- `normalized_cid_bytes`, on the characters of an ASCII text. -/
def normalizedCid (s : Str) : Str := dropCidScheme (dropClosing (dropOpening (trimAscii s)))

/-! ## Bytes and characters -/

/-- The byte of an ASCII character. -/
def byteOf (c : Char) : UInt8 := .ofNat c.toNat

/-- What holds of the 128 characters of ASCII holds of every one. -/
theorem ascii_induction {P : Char → Prop} (h : ∀ n : Fin 128, P (Char.ofNat n)) {c : Char}
    (hc : c.toNat < 0x80) : P c := by
  have hn := h ⟨c.toNat, hc⟩
  rwa [Char.ofNat_toNat] at hn

theorem byteOf_inj {c d : Char} (hc : c.toNat < 0x80) (hd : d.toNat < 0x80)
    (h : byteOf c = byteOf d) : c = d := by
  have hnat := congrArg UInt8.toNat h
  rw [byteOf, byteOf, Str.toNat_ofNat_ascii hc, Str.toNat_ofNat_ascii hd] at hnat
  exact Char.toNat_inj.mp hnat

set_option maxRecDepth 4000 in
theorem isAsciiWhitespaceByte_byteOf {c : Char} (hc : c.toNat < 0x80) :
    isAsciiWhitespaceByte (byteOf c) = Str.isAsciiWhitespace c :=
  @ascii_induction (fun c => isAsciiWhitespaceByte (byteOf c) = Str.isAsciiWhitespace c)
    (by decide) c hc

set_option maxRecDepth 4000 in
theorem lowerByte_byteOf {c : Char} (hc : c.toNat < 0x80) :
    lowerByte (byteOf c) = byteOf (Str.toAsciiLower c) ∧ (Str.toAsciiLower c).toNat < 0x80 :=
  @ascii_induction (fun c => lowerByte (byteOf c) = byteOf (Str.toAsciiLower c) ∧
    (Str.toAsciiLower c).toNat < 0x80) (by decide) c hc

/-- An ASCII text. -/
def IsAscii (s : Str) : Prop := ∀ c ∈ s, c.toNat < 0x80

theorem IsAscii.of_infix {s t : Str} (h : IsAscii s) (ht : t <:+: s) : IsAscii t := fun c hc =>
  h c (ht.subset hc)

theorem utf8_eq_map_byteOf {s : Str} (h : IsAscii s) : s.utf8 = s.map byteOf := Str.utf8_of_ascii h

theorem dropWhile_byteOf {s : Str} (h : IsAscii s) :
    (s.map byteOf).dropWhile isAsciiWhitespaceByte =
      (s.dropWhile Str.isAsciiWhitespace).map byteOf := by
  induction s with
  | nil => rfl
  | cons c s ih =>
    have hc := isAsciiWhitespaceByte_byteOf (h c List.mem_cons_self)
    rw [List.map_cons, List.dropWhile_cons, List.dropWhile_cons, hc]
    split
    · exact ih fun x hx => h x (List.mem_cons_of_mem c hx)
    · rfl

/-- Trimming octets is trimming ASCII text. -/
theorem trimAsciiWhitespace_byteOf {s : Str} (h : IsAscii s) :
    trimAsciiWhitespace (s.map byteOf) = (trimAscii s).map byteOf := by
  have hdrop : IsAscii (s.dropWhile Str.isAsciiWhitespace).reverse := fun c hc =>
    h c ((List.dropWhile_suffix _).subset (List.mem_reverse.mp hc))
  rw [trimAsciiWhitespace, dropWhile_byteOf h, ← List.map_reverse, dropWhile_byteOf hdrop,
    ← List.map_reverse]
  rfl

/-- Taking the opening bracket off octets is taking it off ASCII text. -/
theorem stripPrefixBytes_byteOf {s : Str} (h : IsAscii s) :
    (stripPrefixBytes (Str.utf8 "<") (s.map byteOf)).getD (s.map byteOf) =
      (dropOpening s).map byteOf := by
  cases s with
  | nil => rfl
  | cons c s =>
    have hc : (byteOf c = byteOf '<') ↔ c = '<' :=
      ⟨byteOf_inj (h c List.mem_cons_self) (by decide), congrArg byteOf⟩
    have hlt : Str.utf8 "<" = [byteOf '<'] := rfl
    unfold dropOpening Str.stripPrefix stripPrefixBytes
    rw [hlt]
    by_cases heq : c = '<'
    · subst heq
      simp
    · have hne : byteOf '<' ≠ byteOf c := fun hb => heq (hc.mp hb.symm)
      simp [hne, Ne.symm heq]

/-- The same for the closing bracket. -/
theorem stripSuffixBytes_byteOf {s : Str} (h : IsAscii s) :
    (stripSuffixBytes (Str.utf8 ">") (s.map byteOf)).getD (s.map byteOf) =
      (dropClosing s).map byteOf := by
  obtain rfl | ⟨s, c, rfl⟩ := s.eq_nil_or_concat'
  · rfl
  · have hc : (byteOf c = byteOf '>') ↔ c = '>' :=
      ⟨byteOf_inj (h c (by simp)) (by decide), congrArg byteOf⟩
    have hgt : Str.utf8 ">" = [byteOf '>'] := rfl
    unfold dropClosing Str.stripSuffix stripSuffixBytes
    rw [hgt]
    by_cases heq : c = '>'
    · subst heq
      simp [List.isSuffixOf]
    · have hne : byteOf '>' ≠ byteOf c := fun hb => heq (hc.mp hb.symm)
      simp [List.isSuffixOf, hne, Ne.symm heq]

theorem map_byteOf_inj {s t : Str} (hs : IsAscii s) (ht : IsAscii t)
    (h : s.map byteOf = t.map byteOf) : s = t := by
  induction s generalizing t with
  | nil => exact (List.map_eq_nil_iff.mp h.symm).symm
  | cons c s ih =>
    cases t with
    | nil => simp at h
    | cons d t =>
      rw [List.map_cons, List.map_cons, List.cons.injEq] at h
      rw [byteOf_inj (hs c List.mem_cons_self) (ht d List.mem_cons_self) h.1,
        ih (fun x hx => hs x (List.mem_cons_of_mem c hx))
          (fun x hx => ht x (List.mem_cons_of_mem d hx)) h.2]

/-- Octets are compared without case as the text is. -/
theorem eqIgnoreAsciiCaseBytes_byteOf {s t : Str} (hs : IsAscii s) (ht : IsAscii t) :
    eqIgnoreAsciiCaseBytes (s.map byteOf) (t.map byteOf) = Str.eqIgnoreAsciiCase s t := by
  have hlower : ∀ {u : Str}, IsAscii u →
      (u.map byteOf).map lowerByte = (u.map Str.toAsciiLower).map byteOf := by
    intro u hu
    rw [List.map_map, List.map_map]
    exact List.map_congr_left fun c hc => (lowerByte_byteOf (hu c hc)).1
  have hinj : (s.map Str.toAsciiLower).map byteOf = (t.map Str.toAsciiLower).map byteOf ↔
      s.map Str.toAsciiLower = t.map Str.toAsciiLower := by
    refine ⟨fun heq => ?_, fun heq => by rw [heq]⟩
    have hrange : ∀ {u : Str}, IsAscii u → ∀ c ∈ u.map Str.toAsciiLower, c.toNat < 0x80 := by
      intro u hu c hc
      obtain ⟨d, hd, rfl⟩ := List.mem_map.mp hc
      exact (lowerByte_byteOf (hu d hd)).2
    exact map_byteOf_inj (hrange hs) (hrange ht) heq
  rw [eqIgnoreAsciiCaseBytes, Str.eqIgnoreAsciiCase, hlower hs, hlower ht, Bool.eq_iff_iff,
    beq_iff_eq, beq_iff_eq]
  exact hinj

/-- The normalizer of bytes, on the bytes of an ASCII text. -/
theorem normalizedCidBytes_utf8 {s : Str} (h : IsAscii s) :
    normalizedCidBytes s.utf8 = (normalizedCid s).utf8 := by
  have htrim : IsAscii (trimAscii s) := by
    obtain ⟨w, w', hs, -⟩ := exists_trimBoth Str.isAsciiWhitespace s
    exact h.of_infix ⟨w, w', by rw [List.append_assoc]; exact hs.symm⟩
  have hopen : IsAscii (dropOpening (trimAscii s)) := htrim.of_infix (infix_dropOpening _)
  have hclose : IsAscii (dropClosing (dropOpening (trimAscii s))) :=
    hopen.of_infix (infix_dropClosing _)
  have hresult : IsAscii (normalizedCid s) := hclose.of_infix (infix_dropCidScheme _)
  have hcid : Str.utf8 "cid:" = ("cid:" : Str).map byteOf := rfl
  rw [utf8_eq_map_byteOf hresult, utf8_eq_map_byteOf h, normalizedCidBytes]
  rw [trimAsciiWhitespace_byteOf h, stripPrefixBytes_byteOf htrim, stripSuffixBytes_byteOf hopen,
    normalizedCid, dropCidScheme]
  generalize dropClosing (dropOpening (trimAscii s)) = t at hclose
  have htake : IsAscii (t.take 4) := hclose.of_infix (List.take_prefix 4 t).isInfix
  rw [← List.map_take, hcid, eqIgnoreAsciiCaseBytes_byteOf htake (List.forall_mem_of_all (by decide)),
    List.length_map]
  by_cases heq : Str.eqIgnoreAsciiCase (t.take 4) "cid:" = true
  · have hlength : t.length ≥ 4 := by
      have hmap := congrArg List.length (beq_iff_eq.mp heq)
      rw [List.length_map, List.length_take] at hmap
      have hfour : (("cid:" : Str).map Str.toAsciiLower).length = 4 := rfl
      omega
    rw [if_pos ⟨hlength, heq⟩, if_pos heq, List.map_drop]
  · rw [if_neg fun hboth => heq hboth.2, if_neg heq]

/-! ## Identifiers and their forms -/

/-- An identifier without scheme, brackets and white space around it. -/
structure IsBare (x : Str) : Prop where
  edge : NoEdge Str.isWhitespace x
  scheme : Str.eqIgnoreAsciiCase (x.take 4) "cid:" = false
  opening : x.head? ≠ some '<'
  closing : x.getLast? ≠ some '>'

/-- What may stand before an identifier. -/
def openings : List Str := [[], ['<'], ['c', 'i', 'd', ':'], ['C', 'I', 'D', ':']]

/-- What may stand after it. -/
def closings : List Str := [[], ['>']]

/-- An identifier with an opening, a closing and ASCII white space around it. -/
def IsFormOf (x s : Str) : Prop :=
  ∃ w w' : Str, ∃ pre ∈ openings, ∃ post ∈ closings, s = w ++ ((pre ++ x ++ post) ++ w') ∧
    (∀ c ∈ w, Str.isAsciiWhitespace c = true) ∧ ∀ c ∈ w', Str.isAsciiWhitespace c = true

theorem isWhitespace_of_ascii {c : Char} (h : Str.isAsciiWhitespace c = true) :
    Str.isWhitespace c = true := by
  simp only [Str.isAsciiWhitespace, Bool.or_eq_true, beq_iff_eq] at h
  obtain (((rfl | rfl) | rfl) | rfl) | rfl := h <;> decide

theorem NoEdge.ascii {s : Str} (h : NoEdge Str.isWhitespace s) :
    NoEdge Str.isAsciiWhitespace s := by
  have hnot : ∀ c, Str.isWhitespace c = false → Str.isAsciiWhitespace c = false := by
    intro c hc
    by_contra hw
    rw [isWhitespace_of_ascii (by simpa using hw)] at hc
    exact absurd hc (by decide)
  exact ⟨fun c hc => hnot c (h.1 c hc), fun c hc => hnot c (h.2 c hc)⟩

/-- A text begins as its first part does and ends as its last. -/
theorem NoEdge.append {p : Char → Bool} {s t : Str} (hs : NoEdge p s) (ht : NoEdge p t) :
    NoEdge p (s ++ t) := by
  constructor
  · intro c hc
    rw [List.head?_append, Option.mem_def, Option.or_eq_some_iff] at hc
    obtain hc | ⟨-, hc⟩ := hc
    · exact hs.1 c hc
    · exact ht.1 c hc
  · intro c hc
    rw [List.getLast?_append, Option.mem_def, Option.or_eq_some_iff] at hc
    obtain hc | ⟨-, hc⟩ := hc
    · exact ht.2 c hc
    · exact hs.2 c hc

/-- A form of a bare identifier has no white space at its ends. -/
theorem noEdge_form {x : Str} (hx : IsBare x) {pre post : Str} (hpre : pre ∈ openings)
    (hpost : post ∈ closings) : NoEdge Str.isWhitespace (pre ++ x ++ post) := by
  have hopen : ∀ pre ∈ openings, NoEdge Str.isWhitespace pre := by
    intro pre hpre
    simp only [openings, List.mem_cons, List.not_mem_nil, or_false] at hpre
    obtain rfl | rfl | rfl | rfl := hpre <;> exact ⟨by simp; try decide, by simp; try decide⟩
  have hclose : ∀ post ∈ closings, NoEdge Str.isWhitespace post := by
    intro post hpost
    simp only [closings, List.mem_cons, List.not_mem_nil, or_false] at hpost
    obtain rfl | rfl := hpost <;> exact ⟨by simp; try decide, by simp; try decide⟩
  exact ((hopen pre hpre).append hx.edge).append (hclose post hpost)

/-- The steps of `normalize_cid_uri` after the trimming. -/
def stripUri (s : Str) : Str :=
  Str.trimEndChar '>' ((Str.trimStartMatches "CID:" (Str.trimStartMatches "cid:" s)).dropWhile
    (· == '<'))

/-- The steps of the others after the trimming. -/
def stripCid (s : Str) : Str := dropCidScheme (dropClosing (dropOpening s))

/-- Of a form, all normalizers see the same text after their trimming. -/
theorem trim_form {v w w' : Str} (hv : NoEdge Str.isWhitespace v)
    (hw : ∀ c ∈ w, Str.isAsciiWhitespace c = true)
    (hw' : ∀ c ∈ w', Str.isAsciiWhitespace c = true) :
    Str.trim (w ++ (v ++ w')) = v ∧ trimAscii (w ++ (v ++ w')) = v :=
  ⟨trimBoth_append (fun c hc => isWhitespace_of_ascii (hw c hc))
    (fun c hc => isWhitespace_of_ascii (hw' c hc)) hv, trimBoth_append hw hw' hv.ascii⟩

theorem trimEndChar_append {x post : Str} (hx : x.getLast? ≠ some '>') (hpost : post ∈ closings) :
    Str.trimEndChar '>' (x ++ post) = x := by
  have hrev : x.reverse.dropWhile (· == '>') = x.reverse := by
    refine dropWhile_of_head fun c hc => ?_
    rw [List.head?_reverse] at hc
    by_contra hgt
    obtain rfl : c = '>' := by simpa using hgt
    exact hx hc
  simp only [closings, List.mem_cons, List.not_mem_nil, or_false] at hpost
  obtain rfl | rfl := hpost
  · rw [List.append_nil, Str.trimEndChar, hrev, List.reverse_reverse]
  · rw [Str.trimEndChar, List.reverse_append]
    change (('>' :: x.reverse).dropWhile (· == '>')).reverse = x
    rw [List.dropWhile_cons_of_pos (by decide), hrev, List.reverse_reverse]

/-- A closing bracket completes no scheme. -/
theorem stripPrefix_append_closing {scheme x post : Str} (hpost : post ∈ closings)
    (hgt : '>' ∉ scheme) (h : Str.stripPrefix scheme x = none) :
    Str.stripPrefix scheme (x ++ post) = none := by
  unfold Str.stripPrefix at h ⊢
  split
  · rename_i hpre
    exfalso
    simp only [closings, List.mem_cons, List.not_mem_nil, or_false] at hpost
    obtain rfl | rfl := hpost
    · rw [List.append_nil] at hpre
      simp [hpre] at h
    · have hpre := List.isPrefixOf_iff_prefix.mp hpre
      rw [List.prefix_concat_iff] at hpre
      obtain heq | hpre := hpre
      · exact hgt (heq ▸ by simp)
      · simp [List.isPrefixOf_iff_prefix.mpr hpre] at h
  · rfl

/-- A scheme at the start is taken off once, when no other follows. -/
theorem trimStartMatches_append {scheme s : Str} (hne : scheme ≠ [])
    (h : Str.stripPrefix scheme s = none) : Str.trimStartMatches scheme (scheme ++ s) = s := by
  obtain ⟨n, hn⟩ : ∃ n, (scheme ++ s).length = n + 1 := by
    have := List.length_pos_iff.mpr hne
    exact ⟨(scheme ++ s).length - 1, by rw [List.length_append]; omega⟩
  have hstrip : Str.stripPrefix scheme (scheme ++ s) = some s := by
    simp [Str.stripPrefix]
  rw [Str.trimStartMatches, hn, Str.trimStartMatches.go, hstrip]
  cases n with
  | zero => rfl
  | succ n => simp only [Str.trimStartMatches.go, h]

/-- A bare identifier has no scheme to take off. -/
theorem IsBare.stripPrefix_none {x scheme : Str} (hx : IsBare x) (hlen : scheme.length = 4)
    (hcid : Str.eqIgnoreAsciiCase scheme "cid:" = true) : Str.stripPrefix scheme x = none :=
  stripPrefix_cid_of_dropCidScheme hlen hcid (if_neg (by rw [hx.scheme]; decide))

theorem IsBare.dropWhile {x post : Str} (hx : IsBare x) (hpost : post ∈ closings) :
    (x ++ post).dropWhile (· == '<') = x ++ post := by
  refine dropWhile_of_head fun c hc => ?_
  by_contra hlt
  obtain rfl : c = '<' := by simpa using hlt
  rw [List.head?_append, Option.mem_def, Option.or_eq_some_iff] at hc
  obtain hc | ⟨-, hc⟩ := hc
  · exact hx.opening hc
  · simp only [closings, List.mem_cons, List.not_mem_nil, or_false] at hpost
    obtain rfl | rfl := hpost <;> simp at hc

/-- No scheme stands before a bracket. -/
theorem stripPrefix_bracket {scheme : Str}
    (h : scheme.head? = some 'c' ∨ scheme.head? = some 'C') (t : Str) :
    Str.stripPrefix scheme (['<'] ++ t) = none := by
  unfold Str.stripPrefix
  cases scheme with
  | nil => simp at h
  | cons c scheme =>
    rw [if_neg]
    obtain h | h := h <;> obtain rfl := Option.some.inj h <;> simp [List.isPrefixOf]

/-- A scheme is told by its four characters. -/
theorem stripPrefix_other {scheme c : Str} (hscheme : scheme.length = 4) (hc : c.length = 4)
    (hne : c ≠ scheme) (t : Str) : Str.stripPrefix scheme (c ++ t) = none := by
  unfold Str.stripPrefix
  rw [if_neg]
  intro hpre
  have htake := List.prefix_iff_eq_take.mp (List.isPrefixOf_iff_prefix.mp hpre)
  rw [hscheme, List.take_left' hc] at htake
  exact hne htake.symm

/-- `normalize_cid_uri` gives back the bare identifier of each of its forms. -/
theorem stripUri_form {x pre post : Str} (hx : IsBare x) (hpre : pre ∈ openings)
    (hpost : post ∈ closings) : stripUri (pre ++ x ++ post) = x := by
  have hlower : Str.stripPrefix "cid:" (x ++ post) = none :=
    stripPrefix_append_closing hpost (by decide) (hx.stripPrefix_none rfl rfl)
  have hupper : Str.stripPrefix "CID:" (x ++ post) = none :=
    stripPrefix_append_closing hpost (by decide) (hx.stripPrefix_none rfl rfl)
  have hrest : Str.trimEndChar '>' ((x ++ post).dropWhile (· == '<')) = x := by
    rw [hx.dropWhile hpost, trimEndChar_append hx.closing hpost]
  rw [stripUri, List.append_assoc]
  simp only [openings, List.mem_cons, List.not_mem_nil, or_false] at hpre
  obtain rfl | rfl | rfl | rfl := hpre
  · rw [List.nil_append, Str.trimStartMatches_of_none hlower, Str.trimStartMatches_of_none hupper,
      hrest]
  · rw [Str.trimStartMatches_of_none (stripPrefix_bracket (.inl rfl) _),
      Str.trimStartMatches_of_none (stripPrefix_bracket (.inr rfl) _)]
    exact hrest
  · have hstrip := @trimStartMatches_append "cid:" (x ++ post) (by decide) hlower
    change Str.trimEndChar '>' ((Str.trimStartMatches "CID:"
      (Str.trimStartMatches "cid:" (("cid:" : Str) ++ (x ++ post)))).dropWhile _) = x
    rw [hstrip, Str.trimStartMatches_of_none hupper, hrest]
  · have hstrip := @trimStartMatches_append "CID:" (x ++ post) (by decide) hupper
    have hnone : Str.stripPrefix "cid:" (['C', 'I', 'D', ':'] ++ (x ++ post)) = none := by
      simp [Str.stripPrefix, List.isPrefixOf]
    rw [Str.trimStartMatches_of_none hnone]
    change Str.trimEndChar '>' ((Str.trimStartMatches "CID:"
      (("CID:" : Str) ++ (x ++ post))).dropWhile _) = x
    rw [hstrip, hrest]

/-- The closing bracket of a text that does not end with one but for it. -/
theorem dropClosing_append {s post : Str} (hs : s.getLast? ≠ some '>') (hpost : post ∈ closings) :
    dropClosing (s ++ post) = s := by
  simp only [closings, List.mem_cons, List.not_mem_nil, or_false] at hpost
  obtain rfl | rfl := hpost
  · rw [List.append_nil, dropClosing, Str.stripSuffix, if_neg]
    · rfl
    · intro hsuffix
      obtain ⟨t, rfl⟩ := List.isSuffixOf_iff_suffix.mp hsuffix
      exact hs (by simp)
  · rw [dropClosing, Str.stripSuffix, if_pos]
    · simp
    · exact List.isSuffixOf_iff_suffix.mpr (List.suffix_append s _)

theorem dropOpening_of_head {s : Str} (h : s.head? ≠ some '<') : dropOpening s = s := by
  unfold dropOpening Str.stripPrefix
  cases s with
  | nil => rfl
  | cons c s =>
    rw [if_neg]
    · rfl
    · intro hpre
      obtain ⟨t, ht⟩ := List.isPrefixOf_iff_prefix.mp hpre
      exact h (by rw [← ht]; rfl)

/-- So do the other normalizers. -/
theorem stripCid_form {x pre post : Str} (hx : IsBare x) (hpre : pre ∈ openings)
    (hpost : post ∈ closings) : stripCid (pre ++ x ++ post) = x := by
  have hbare : dropCidScheme x = x := if_neg (by rw [hx.scheme]; decide)
  have hhead : (x ++ post).head? ≠ some '<' := by
    intro hlt
    rw [List.head?_append, Option.or_eq_some_iff] at hlt
    obtain hlt | ⟨-, hlt⟩ := hlt
    · exact hx.opening hlt
    · simp only [closings, List.mem_cons, List.not_mem_nil, or_false] at hpost
      obtain rfl | rfl := hpost <;> simp at hlt
  have hscheme : ∀ scheme : Str, scheme.length = 4 →
      Str.eqIgnoreAsciiCase scheme "cid:" = true → scheme.head? ≠ some '<' →
        scheme.getLast? = some ':' → stripCid (scheme ++ x ++ post) = x := by
    intro scheme hlen hcid hopen hclose
    have hne : scheme ≠ [] := by
      rintro rfl
      simp at hlen
    have hlast : (scheme ++ x).getLast? ≠ some '>' := by
      rw [List.getLast?_append, hclose]
      cases hx' : x.getLast? with
      | none => simp
      | some c => exact fun heq => hx.closing (by simpa [hx'] using heq)
    rw [stripCid, dropOpening_of_head, dropClosing_append hlast hpost, dropCidScheme,
      List.take_left' hlen, if_pos hcid, List.drop_left' hlen]
    rw [List.append_assoc, List.head?_append_of_ne_nil _ hne]
    exact hopen
  simp only [openings, List.mem_cons, List.not_mem_nil, or_false] at hpre
  obtain rfl | rfl | rfl | rfl := hpre
  · rw [List.nil_append, stripCid, dropOpening_of_head hhead, dropClosing_append hx.closing hpost,
      hbare]
  · have hopen : dropOpening (['<'] ++ x ++ post) = x ++ post := by
      simp [dropOpening, Str.stripPrefix, List.isPrefixOf]
    rw [stripCid, hopen, dropClosing_append hx.closing hpost, hbare]
  · exact hscheme _ rfl rfl (by decide) rfl
  · exact hscheme _ rfl rfl (by decide) rfl

/-! ## Agreement -/

/-- What is taken off is an opening bracket, a scheme and a closing one, each at most once. -/
theorem exists_of_stripCid (v : Str) : ∃ l c r : Str, v = l ++ (c ++ stripCid v ++ r) ∧
    (l = [] ∨ l = ['<']) ∧ r ∈ closings ∧
      (c = [] ∨ c.length = 4 ∧ Str.eqIgnoreAsciiCase c "cid:" = true) := by
  obtain ⟨l, hl, hopen⟩ : ∃ l : Str, (l = [] ∨ l = ['<']) ∧ v = l ++ dropOpening v := by
    unfold dropOpening Str.stripPrefix
    split
    · rename_i hpre
      obtain ⟨t, rfl⟩ := List.isPrefixOf_iff_prefix.mp hpre
      exact ⟨['<'], .inr rfl, rfl⟩
    · exact ⟨[], .inl rfl, rfl⟩
  obtain ⟨r, hr, hclose⟩ : ∃ r ∈ closings, dropOpening v = dropClosing (dropOpening v) ++ r := by
    generalize dropOpening v = u
    unfold dropClosing Str.stripSuffix
    split
    · rename_i hsuffix
      obtain ⟨t, rfl⟩ := List.isSuffixOf_iff_suffix.mp hsuffix
      exact ⟨['>'], by decide, by simp⟩
    · exact ⟨[], by decide, by simp⟩
  obtain ⟨c, hc, hcid⟩ : ∃ c : Str, (c = [] ∨ c.length = 4 ∧
      Str.eqIgnoreAsciiCase c "cid:" = true) ∧ dropClosing (dropOpening v) = c ++ stripCid v := by
    rw [stripCid]
    generalize dropClosing (dropOpening v) = u
    unfold dropCidScheme
    split
    · rename_i hcid
      have hlength : 4 ≤ u.length := by
        have hmap := congrArg List.length (beq_iff_eq.mp hcid)
        rw [List.length_map, List.length_take] at hmap
        have hfour : (("cid:" : Str).map Str.toAsciiLower).length = 4 := rfl
        omega
      exact ⟨u.take 4, .inr ⟨by rw [List.length_take]; omega, hcid⟩, (List.take_append_drop 4 u).symm⟩
    · exact ⟨[], .inl rfl, rfl⟩
  exact ⟨l, c, r, by rw [← hcid, ← hclose, ← hopen], hl, hr, hc⟩

/-- A scheme in any case neither starts with a bracket nor ends with one. -/
theorem scheme_ends {c : Str} (hlen : c.length = 4)
    (hcid : Str.eqIgnoreAsciiCase c "cid:" = true) :
    c.head? ≠ some '<' ∧ c.getLast? ≠ some '>' ∧ NoEdge Str.isWhitespace c := by
  have hmap : c.map Str.toAsciiLower = ['c', 'i', 'd', ':'] := beq_iff_eq.mp hcid
  obtain ⟨a, b, d, e, rfl⟩ := List.length_eq_four.mp hlen
  simp only [List.map_cons, List.map_nil, List.cons.injEq, and_true] at hmap
  obtain ⟨ha, -, -, he⟩ := hmap
  have hwhite : ∀ {x y : Char}, Str.toAsciiLower x = y → Str.isWhitespace y = false →
      Str.isWhitespace x = false := by
    intro x y hxy hy
    by_contra hx
    have hlower : Str.toAsciiLower x = x := by
      rw [Str.toAsciiLower, if_neg]
      intro hupper
      simp only [Bool.and_eq_true, decide_eq_true_eq, Char.le_def, UInt32.le_iff_toNat_le] at hupper
      have hlow : 65 ≤ x.toNat := hupper.1
      have hhigh : x.toNat ≤ 90 := hupper.2
      simp [Str.isWhitespace] at hx
      omega
    rw [hlower] at hxy
    exact hx (hxy ▸ hy)
  refine ⟨?_, ?_, ?_, ?_⟩
  · rw [List.head?_cons, Ne, Option.some.injEq]
    rintro rfl
    exact absurd ha (by decide)
  · rw [show ([a, b, d, e] : Str).getLast? = some e from rfl, Ne, Option.some.injEq]
    rintro rfl
    exact absurd he (by decide)
  · intro x hx
    obtain rfl := Option.some.inj hx
    exact hwhite ha (by decide)
  · intro x hx
    obtain rfl := Option.some.inj hx
    exact hwhite he (by decide)

theorem head_of_dropWhile {p : Char → Bool} {s : Str} (h : s.dropWhile p = s) :
    ∀ c ∈ s.head?, p c = false := by
  intro c hc
  cases s with
  | nil => simp at hc
  | cons d s =>
    obtain rfl := Option.some.inj hc
    by_contra hp
    rw [List.dropWhile_cons_of_pos (by simpa using hp)] at h
    have hle := (List.dropWhile_suffix (l := s) p).length_le
    have := congrArg List.length h
    rw [List.length_cons] at this
    omega

theorem noEdge_of_trimBoth {p : Char → Bool} {s : Str} (h : trimBoth p s = s) : NoEdge p s := by
  have hlen := congrArg List.length h
  rw [trimBoth, List.length_reverse] at hlen
  have hle := (List.dropWhile_suffix (l := s) p).length_le
  have hle' := (List.dropWhile_suffix (l := (s.dropWhile p).reverse) p).length_le
  rw [List.length_reverse] at hle'
  have hstart : s.dropWhile p = s :=
    (List.dropWhile_suffix (l := s) p).eq_of_length (by omega)
  rw [hstart] at hlen hle'
  have hend : s.reverse.dropWhile p = s.reverse :=
    (List.dropWhile_suffix (l := s.reverse) p).eq_of_length (by rw [List.length_reverse]; omega)
  refine ⟨head_of_dropWhile hstart, fun c hc => head_of_dropWhile hend c ?_⟩
  rwa [List.head?_reverse]

/-- What `normalize_cid` leaves alone is bare. -/
theorem isBare_of_normalizeCid {x : Str} (h : normalizeCid x = x) : IsBare x := by
  have hlast := h
  rw [normalizeCid_eq] at h
  have htrim : Str.trim x = x :=
    Str.eq_of_infix_comp Str.infix_trim (fun t => (infix_dropCidScheme _).trans
      ((infix_dropClosing _).trans (infix_dropOpening t))) h
  rw [htrim] at h
  have hopen : dropOpening x = x :=
    Str.eq_of_infix_comp infix_dropOpening (fun t => (infix_dropCidScheme _).trans
      (infix_dropClosing t)) h
  rw [hopen] at h
  have hclose : dropClosing x = x := Str.eq_of_infix_comp infix_dropClosing infix_dropCidScheme h
  rw [hclose] at h
  have hprefix := Str.stripPrefix_eq_none (by simp) hopen
  have hsuffix := Str.stripSuffix_eq_none (by simp) hclose
  refine ⟨noEdge_of_trimBoth htrim, ?_, ?_, ?_⟩
  · by_contra hcid
    have hcid : Str.eqIgnoreAsciiCase (x.take 4) "cid:" = true := by simpa using hcid
    have hmap := congrArg List.length (beq_iff_eq.mp hcid)
    rw [List.length_map, List.length_take] at hmap
    have hfour : (("cid:" : Str).map Str.toAsciiLower).length = 4 := rfl
    rw [dropCidScheme, if_pos hcid] at h
    have := congrArg List.length h
    rw [List.length_drop] at this
    omega
  · intro hlt
    cases x with
    | nil => simp at hlt
    | cons c x =>
      obtain rfl := Option.some.inj hlt
      simp [Str.stripPrefix, List.isPrefixOf] at hprefix
  · intro hgt
    obtain ⟨t, rfl⟩ := List.getLast?_eq_some_iff.mp hgt
    have hends : (['>'] : Str).isSuffixOf (t ++ ['>']) = true :=
      List.isSuffixOf_iff_suffix.mpr (List.suffix_append t _)
    change (if (['>'] : Str).isSuffixOf (t ++ ['>']) = true then _ else none) = none at hsuffix
    rw [if_pos hends] at hsuffix
    simp at hsuffix

/-- All four normalizers give one identifier, and each of them leaves it alone. -/
structure NormalizersAgree (s : Str) : Prop where
  coverage : coverageNormalizeCid s = normalizeCidUri s
  xmlenc : normalizeCid s = normalizeCidUri s
  mime : normalizedCidBytes s.utf8 = (normalizeCidUri s).utf8
  uri_idempotent : normalizeCidUri (normalizeCidUri s) = normalizeCidUri s
  coverage_idempotent : coverageNormalizeCid (coverageNormalizeCid s) = coverageNormalizeCid s
  xmlenc_idempotent : normalizeCid (normalizeCid s) = normalizeCid s
  mime_idempotent : normalizedCidBytes (normalizedCidBytes s.utf8) = normalizedCidBytes s.utf8

/-- The identifier of a form. -/
theorem normalize_form {x s : Str} (hx : IsBare x) (hs : IsFormOf x s) :
    normalizeCidUri s = x ∧ normalizeCid s = x ∧ normalizedCid s = x := by
  obtain ⟨w, w', pre, hpre, post, hpost, rfl, hw, hw'⟩ := hs
  obtain ⟨htrim, hascii⟩ := trim_form (noEdge_form hx hpre hpost) hw hw'
  refine ⟨?_, ?_, ?_⟩
  · change stripUri (Str.trim _) = x
    rw [htrim, stripUri_form hx hpre hpost]
  · change stripCid (Str.trim _) = x
    rw [htrim, stripCid_form hx hpre hpost]
  · change stripCid (trimAscii _) = x
    rw [hascii, stripCid_form hx hpre hpost]

/-- An identifier is a form of itself. -/
theorem isFormOf_self (x : Str) : IsFormOf x x :=
  ⟨[], [], [], by decide, [], by decide, by simp, by simp, by simp⟩

/-- A text on which the normalizers agree is a form of the identifier they give. -/
theorem isFormOf_of_agree {s : Str} (hascii : IsAscii s) (h : NormalizersAgree s) :
    IsBare (normalizeCidUri s) ∧ IsFormOf (normalizeCidUri s) s := by
  have hbare : IsBare (normalizeCidUri s) := by
    have hfix := h.xmlenc_idempotent
    rw [h.xmlenc] at hfix
    exact isBare_of_normalizeCid hfix
  refine ⟨hbare, ?_⟩
  have hmime : stripCid (trimAscii s) = normalizeCidUri s := by
    have := h.mime
    rw [normalizedCidBytes_utf8 hascii] at this
    have hdecode := Str.fromUtf8_utf8 (normalizedCid s)
    rw [this, Str.fromUtf8_utf8] at hdecode
    exact (Option.some.inj hdecode).symm
  obtain ⟨w, w', hs, hw, hw'⟩ := exists_trimBoth Str.isAsciiWhitespace s
  change s = w ++ (trimAscii s ++ w') at hs
  obtain ⟨l, c, r, hv, hl, hr, hc⟩ := exists_of_stripCid (trimAscii s)
  rw [hmime] at hv
  generalize hx : normalizeCidUri s = x at hbare hmime hv
  -- the trimmed text has no white space at its ends, so every normalizer sees it
  have hedge : NoEdge Str.isWhitespace (trimAscii s) := by
    have hcedge : NoEdge Str.isWhitespace c := by
      obtain rfl | ⟨hlen, hcid⟩ := hc
      · exact ⟨by simp, by simp⟩
      · exact (scheme_ends hlen hcid).2.2
    have hledge : NoEdge Str.isWhitespace l := by
      obtain rfl | rfl := hl <;> exact ⟨by simp; try decide, by simp; try decide⟩
    have hredge : NoEdge Str.isWhitespace r := by
      simp only [closings, List.mem_cons, List.not_mem_nil, or_false] at hr
      obtain rfl | rfl := hr <;> exact ⟨by simp; try decide, by simp; try decide⟩
    rw [hv]
    exact hledge.append ((hcedge.append hbare.edge).append hredge)
  have huri : stripUri (trimAscii s) = x := by
    rw [← hx]
    conv_rhs => rw [hs]
    change _ = stripUri (Str.trim _)
    rw [(trim_form hedge hw hw').1]
  obtain rfl | ⟨hlen, hcid⟩ := hc
  · refine ⟨w, w', l, ?_, r, hr, ?_, hw, hw'⟩
    · obtain rfl | rfl := hl <;> decide
    · exact hs.trans (by rw [hv]; simp)
  -- a scheme that `normalize_cid_uri` does not take off stays in its result
  obtain ⟨hhead, hlast, -⟩ := scheme_ends hlen hcid
  have hne : c ≠ [] := by
    rintro rfl
    simp at hlen
  have hkept : Str.trimEndChar '>' ((c ++ x ++ r).dropWhile (· == '<')) ≠ x := by
    have hstart : ∀ a ∈ (c ++ x ++ r).head?, (a == '<') = false := by
      intro a ha
      rw [List.append_assoc, List.head?_append_of_ne_nil _ hne] at ha
      by_contra hlt
      obtain rfl : a = '<' := by simpa using hlt
      exact hhead ha
    have hend : (c ++ x).getLast? ≠ some '>' := by
      rw [List.getLast?_append]
      cases hx' : x.getLast? with
      | none => exact hlast
      | some a => exact fun heq => hbare.closing (by simpa [hx'] using heq)
    rw [dropWhile_of_head hstart, trimEndChar_append hend hr]
    intro heq
    exact hne (List.append_left_eq_self.mp heq)
  obtain rfl | rfl := hl
  · by_cases hlower : c = "cid:"
    · subst hlower
      exact ⟨w, w', "cid:", by decide, r, hr, hs.trans (by rw [hv]; rfl), hw, hw'⟩
    by_cases hupper : c = "CID:"
    · subst hupper
      exact ⟨w, w', "CID:", by decide, r, hr, hs.trans (by rw [hv]; rfl), hw, hw'⟩
    exfalso
    apply hkept
    rw [hv, List.nil_append, stripUri, List.append_assoc,
      Str.trimStartMatches_of_none (stripPrefix_other rfl hlen hlower _),
      Str.trimStartMatches_of_none (stripPrefix_other rfl hlen hupper _), ← List.append_assoc] at huri
    exact huri
  · exfalso
    apply hkept
    rw [hv, stripUri, Str.trimStartMatches_of_none (stripPrefix_bracket (.inl rfl) _),
      Str.trimStartMatches_of_none (stripPrefix_bracket (.inr rfl) _)] at huri
    exact huri

/-- The normalizers agree on the forms of a bare identifier, where a bracket or a scheme in one
    case stands before it, a bracket after it and ASCII white space around them, and on no other
    ASCII text. -/
theorem normalizersAgree_iff (s : Str) (h : ∀ c ∈ s, c.toNat < 0x80) :
    (NormalizersAgree s ↔ ∃ x, IsBare x ∧ IsFormOf x s) ∧
      ∀ x, IsBare x → IsFormOf x s → normalizeCidUri s = x := by
  refine ⟨⟨fun hagree => ⟨_, isFormOf_of_agree h hagree⟩, ?_⟩,
    fun x hx hs => (normalize_form hx hs).1⟩
  rintro ⟨x, hx, hs⟩
  obtain ⟨huri, hcid, hmime⟩ := normalize_form hx hs
  obtain ⟨huri', hcid', hmime'⟩ := normalize_form hx (isFormOf_self x)
  have hinfix : x <:+: s := by
    rw [← hcid]
    exact infix_normalizeCid s
  have hbytes : normalizedCidBytes s.utf8 = x.utf8 := by
    rw [normalizedCidBytes_utf8 h, hmime]
  refine ⟨by rw [coverageNormalizeCid_eq, hcid, huri], by rw [hcid, huri], by rw [hbytes, huri],
    by rw [huri, huri'], ?_, by rw [hcid, hcid'], ?_⟩
  · rw [coverageNormalizeCid_eq, coverageNormalizeCid_eq, hcid, hcid']
  · rw [hbytes, normalizedCidBytes_utf8 (IsAscii.of_infix h hinfix), hmime']

/-- `<a@b>`, and the identifier of its forms. -/
theorem normalizersAgree_bracketed : NormalizersAgree (Str.lit "<a@b>") := by
  refine (normalizersAgree_iff _ (List.forall_mem_of_all (by decide))).1.mpr
    ⟨Str.lit "a@b", ⟨⟨?_, ?_⟩, by decide, by decide, by decide⟩, [], [], ['<'], by decide, ['>'],
      by decide, by decide, by simp, by simp⟩
  · exact Option.forall_mem_of_all (by decide)
  · exact Option.forall_mem_of_all (by decide)

/-- `<cid:a@b>`: the verifier leaves the scheme, the others take it off. -/
theorem not_normalizersAgree_scheme : ¬ NormalizersAgree (Str.lit "<cid:a@b>") := by
  intro h
  exact absurd h.xmlenc (by decide)

end Asx
