import Asx.Spec.MediaType

/-!
# The grammar of media types

`type "/" subtype *( OWS ";" OWS name "=" ( token / quoted-string ) )`, where the white space is
spaces. The recognizers of AS4 and of AS2 differ in the quoted strings alone: the first has
refused every byte that is not printable before it starts, the second refuses line breaks where
it meets them, and not after a backslash.

## Key results
- `parseParameters_iff`: the loop over the parameters, for any kind of quoted string
- `validateMediaType_iff`, `validMediaType_iff`: what the two recognizers accept
- `mediaTypes_exact_iff`: where they accept the grammar and agree
-/

namespace Asx

/-! ## The grammar -/

/-- Printable ASCII. -/
def IsPrintable (b : UInt8) : Prop := 0x20 ≤ b.toNat ∧ b.toNat < 0x7F

instance (b : UInt8) : Decidable (IsPrintable b) := inferInstanceAs (Decidable (_ ∧ _))

/-- A token. -/
def IsToken (t : Bytes) : Prop := t ≠ [] ∧ ∀ b ∈ t, isTchar b = true

/-- What stands in a quoted string, up to and with its closing quote: bytes of the kind `text`,
    and bytes of the kind `pair` after a backslash. -/
inductive QuotedTail (text pair : UInt8 → Prop) : Bytes → Prop
  | close : QuotedTail text pair [0x22]
  | text {b : UInt8} {s : Bytes} (hquote : b ≠ 0x22) (hescape : b ≠ 0x5C) (hb : text b)
      (hs : QuotedTail text pair s) : QuotedTail text pair (b :: s)
  | pair {b : UInt8} {s : Bytes} (hb : pair b) (hs : QuotedTail text pair s) :
      QuotedTail text pair (0x5C :: b :: s)

/-- A quoted string. -/
def IsQuoted (text pair : UInt8 → Prop) (q : Bytes) : Prop :=
  ∃ s, QuotedTail text pair s ∧ q = 0x22 :: s

/-- Spaces. -/
def IsSpaces (s : Bytes) : Prop := ∀ b ∈ s, b = 0x20

/-- Parameters, with quoted strings of some kind. -/
inductive IsParameters (quoted : Bytes → Prop) : Bytes → Prop
  | nil : IsParameters quoted []
  | cons {ows ows' name value rest : Bytes} (hows : IsSpaces ows) (hows' : IsSpaces ows')
      (hname : IsToken name) (hvalue : IsToken value ∨ quoted value)
      (hrest : IsParameters quoted rest) :
      IsParameters quoted (ows ++ 0x3B :: (ows' ++ (name ++ 0x3D :: (value ++ rest))))

/-- A media type, with quoted strings of some kind. -/
def IsMediaType (quoted : Bytes → Prop) (s : Bytes) : Prop :=
  ∃ type subtype parameters, IsToken type ∧ IsToken subtype ∧ IsParameters quoted parameters ∧
    s = type ++ 0x2F :: (subtype ++ parameters)

/-! ## Tokens and spaces -/

/-- A token is skipped whole where no token octet follows it. -/
theorem skipToken_append {t r : Bytes} (ht : IsToken t)
    (hr : ∀ b ∈ r.head?, isTchar b = false) : skipToken (t ++ r) = some r := by
  obtain ⟨hne, hall⟩ := ht
  obtain ⟨b, t, rfl⟩ := List.exists_cons_of_ne_nil hne
  have hb := hall b List.mem_cons_self
  have hdrop : r.dropWhile isTchar = r := by
    cases r with
    | nil => rfl
    | cons c r => rw [List.dropWhile_cons_of_neg (by simp [hr c rfl])]
  rw [skipToken, if_pos (by simpa using hb), List.dropWhile_append_of_pos hall, hdrop]

theorem skipToken_none {s : Bytes} (h : ∀ b ∈ s.head?, isTchar b = false) : skipToken s = none := by
  cases s with
  | nil => rfl
  | cons b s => simp [skipToken, h b rfl]

/-- Spaces are skipped up to the first other octet. -/
theorem skipSpaces_append {ows s : Bytes} (hows : IsSpaces ows) (hs : ∀ b ∈ s.head?, b ≠ 0x20) :
    skipSpaces (ows ++ s) = s := by
  have hdrop : s.dropWhile (· == 0x20) = s := by
    cases s with
    | nil => rfl
    | cons c s => rw [List.dropWhile_cons_of_neg (by simpa using hs c rfl)]
  rw [skipSpaces, List.dropWhile_append_of_pos (fun b hb => by simpa using hows b hb), hdrop]

theorem exists_skipSpaces (s : Bytes) : ∃ ows, IsSpaces ows ∧ s = ows ++ skipSpaces s := by
  refine ⟨s.takeWhile (· == 0x20), fun b hb => ?_, List.takeWhile_append_dropWhile.symm⟩
  simpa using List.mem_takeWhile_imp hb

theorem IsToken.head {t : Bytes} (h : IsToken t) (r : Bytes) :
    ∀ b ∈ (t ++ r).head?, isTchar b = true := by
  obtain ⟨b, t, rfl⟩ := List.exists_cons_of_ne_nil h.1
  intro c hc
  obtain rfl := Option.some.inj hc
  exact h.2 b List.mem_cons_self

/-- Parameters do not go on with a token. -/
theorem IsParameters.head {quoted : Bytes → Prop} {s : Bytes} (h : IsParameters quoted s) :
    ∀ b ∈ s.head?, isTchar b = false := by
  cases h with
  | nil => simp
  | @cons ows ows' name value rest hows =>
    intro b hb
    cases ows with
    | nil =>
      obtain rfl := Option.some.inj hb
      decide
    | cons c ows =>
      obtain rfl := Option.some.inj hb
      rw [hows c List.mem_cons_self]
      decide

/-! ## Quoted strings -/

/-- What `skip` takes off a text is of the kind `quoted`, and starts with a quote. -/
structure Skips (skip : Bytes → Option Bytes) (quoted : Bytes → Prop) : Prop where
  sound : ∀ {s r}, skip s = some r → ∃ q, quoted q ∧ s = q ++ r
  complete : ∀ {q} (r), quoted q → skip (q ++ r) = some r
  quote : ∀ {q}, quoted q → q.head? = some 0x22

/-- What is skipped behind a quote is the rest of a quoted string. -/
theorem skipQuoted_sound {s r : Bytes} (h : skipQuoted s = some r) :
    ∃ q, QuotedTail (fun _ => True) (fun _ => True) q ∧ s = q ++ r := by
  fun_induction skipQuoted s with
  | case1 => cases h
  | case2 s =>
    cases h
    exact ⟨[0x22], .close, rfl⟩
  | case3 => cases h
  | case4 b s ih =>
    obtain ⟨q, hq, rfl⟩ := ih h
    exact ⟨0x5C :: b :: q, .pair trivial hq, rfl⟩
  | case5 b s hquote hlast hescape ih =>
    obtain ⟨q, hq, rfl⟩ := ih h
    refine ⟨b :: q, .text hquote ?_ trivial hq, rfl⟩
    rintro rfl
    cases hq' : q ++ r with
    | nil => exact hlast rfl hq'
    | cons c t => exact hescape c t rfl hq'

/-- The rest of a quoted string is skipped whole, whatever follows it. -/
theorem skipQuoted_complete {q : Bytes} (h : QuotedTail (fun _ => True) (fun _ => True) q)
    (r : Bytes) : skipQuoted (q ++ r) = some r := by
  induction h with
  | close => rfl
  | @text b s hquote hescape hb hs ih =>
    rw [List.cons_append, skipQuoted]
    · exact ih
    · exact hquote
    · rintro rfl
      exact absurd rfl hescape
    · rintro c t rfl
      exact absurd rfl hescape
  | pair hb hs ih => exact ih

/-- Not a line break. -/
def IsLineByte (b : UInt8) : Prop := b ≠ 0x0D ∧ b ≠ 0x0A

/-- The AS2 check skips quoted strings without line breaks outside of its pairs. -/
theorem skipQuotedLine_sound {s r : Bytes} (h : skipQuotedLine s = some r) :
    ∃ q, QuotedTail IsLineByte (fun _ => True) q ∧ s = q ++ r := by
  fun_induction skipQuotedLine s with
  | case1 => cases h
  | case2 s =>
    cases h
    exact ⟨[0x22], .close, rfl⟩
  | case3 => cases h
  | case4 b s ih =>
    obtain ⟨q, hq, rfl⟩ := ih h
    exact ⟨0x5C :: b :: q, .pair trivial hq, rfl⟩
  | case5 => cases h
  | case6 => cases h
  | case7 b s hquote hlast hescape hcr hlf ih =>
    obtain ⟨q, hq, rfl⟩ := ih h
    refine ⟨b :: q, .text hquote ?_ ⟨hcr, hlf⟩ hq, rfl⟩
    rintro rfl
    cases hq' : q ++ r with
    | nil => exact hlast rfl hq'
    | cons c t => exact hescape c t rfl hq'

/-- Every such rest of a quoted string is skipped whole. -/
theorem skipQuotedLine_complete {q : Bytes} (h : QuotedTail IsLineByte (fun _ => True) q)
    (r : Bytes) : skipQuotedLine (q ++ r) = some r := by
  induction h with
  | close => rfl
  | @text b s hquote hescape hb hs ih =>
    rw [List.cons_append, skipQuotedLine]
    · exact ih
    · exact hquote
    · rintro rfl
      exact absurd rfl hescape
    · rintro c t rfl
      exact absurd rfl hescape
    · exact hb.1
    · exact hb.2
  | pair hb hs ih => exact ih

/-- The AS4 check reads quoted strings of any octets. -/
theorem skips_quotedString :
    Skips skipQuotedString (IsQuoted (fun _ => True) (fun _ => True)) where
  sound := by
    intro s r h
    unfold skipQuotedString at h
    split at h
    · obtain ⟨q, hq, rfl⟩ := skipQuoted_sound h
      exact ⟨0x22 :: q, ⟨q, hq, rfl⟩, rfl⟩
    · cases h
  complete := by
    rintro _ r ⟨s, hs, rfl⟩
    exact skipQuoted_complete hs r
  quote := by
    rintro _ ⟨s, hs, rfl⟩
    rfl

/-- The AS2 check reads quoted strings with line breaks in pairs only. -/
theorem skips_quotedStringLine :
    Skips skipQuotedStringLine (IsQuoted IsLineByte (fun _ => True)) where
  sound := by
    intro s r h
    unfold skipQuotedStringLine at h
    split at h
    · obtain ⟨q, hq, rfl⟩ := skipQuotedLine_sound h
      exact ⟨0x22 :: q, ⟨q, hq, rfl⟩, rfl⟩
    · cases h
  complete := by
    rintro _ r ⟨s, hs, rfl⟩
    exact skipQuotedLine_complete hs r
  quote := by
    rintro _ ⟨s, hs, rfl⟩
    rfl

/-! ## Parameters -/

/-- The loop over the parameters, with the function for quoted strings as an argument. -/
def parseParameters (skip : Bytes → Option Bytes) : Nat → Bytes → Option Unit
  | 0, _ => none
  | rounds + 1, s =>
    match skipSpaces s with
    | [] => if s = [] then some () else none
    | 0x3B :: parameter =>
      match skipToken (skipSpaces parameter) with
      | some (0x3D :: value) =>
        ((skipToken value).or (skip value)).bind (parseParameters skip rounds)
      | _ => none
    | _ => none

/-- The loop of the AS4 check is the general one, at its quoted strings. -/
theorem parseMediaParameters_eq : parseMediaParameters = parseParameters skipQuotedString := by
  funext rounds
  induction rounds with
  | zero => rfl
  | succ rounds ih =>
    funext s
    rw [parseMediaParameters, ih]
    rfl

/-- So is the loop of the AS2 check. -/
theorem parseMediaParametersLine_eq :
    parseMediaParametersLine = parseParameters skipQuotedStringLine := by
  funext rounds
  induction rounds with
  | zero => rfl
  | succ rounds ih =>
    funext s
    rw [parseMediaParametersLine, ih]
    rfl

section

variable {skip : Bytes → Option Bytes} {quoted : Bytes → Prop}

/-- A value is a token or a quoted string. -/
theorem value_sound (hskip : Skips skip quoted) {s r : Bytes}
    (h : (skipToken s).or (skip s) = some r) :
    ∃ value, (IsToken value ∨ quoted value) ∧ s = value ++ r := by
  obtain htoken | ⟨-, hquoted⟩ := Option.or_eq_some_iff.mp h
  · obtain ⟨t, rfl, ht⟩ := skipToken_some htoken
    exact ⟨t, .inl ht, rfl⟩
  · obtain ⟨q, hq, rfl⟩ := hskip.sound hquoted
    exact ⟨q, .inr hq, rfl⟩

/-- A token or a quoted string is taken as a value where no token octet follows it. -/
theorem value_complete (hskip : Skips skip quoted) {value r : Bytes}
    (h : IsToken value ∨ quoted value) (hr : ∀ b ∈ r.head?, isTchar b = false) :
    (skipToken (value ++ r)).or (skip (value ++ r)) = some r := by
  obtain ht | hq := h
  · rw [skipToken_append ht hr, Option.some_or]
  · have hnone : skipToken (value ++ r) = none := by
      refine skipToken_none fun b hb => ?_
      rw [List.head?_append, hskip.quote hq, Option.some_or] at hb
      obtain rfl := Option.some.inj hb
      decide
    rw [hnone, Option.none_or, hskip.complete r hq]

/-- One round of the loop. -/
theorem parseParameters_parameter {rounds : Nat} {s parameter value : Bytes}
    (hs : skipSpaces s = 0x3B :: parameter)
    (hname : skipToken (skipSpaces parameter) = some (0x3D :: value)) :
    parseParameters skip (rounds + 1) s =
      ((skipToken value).or (skip value)).bind (parseParameters skip rounds) := by
  simp only [parseParameters, hs, hname]

/-- What the loop accepts is a list of parameters. -/
theorem parseParameters_sound (hskip : Skips skip quoted) {rounds : Nat} {s : Bytes}
    (h : parseParameters skip rounds s = some ()) : IsParameters quoted s := by
  induction rounds generalizing s with
  | zero => cases h
  | succ rounds ih =>
    obtain ⟨ows, hows, hs⟩ := exists_skipSpaces s
    rw [parseParameters] at h
    split at h
    · split at h
      · rename_i hnil
        rw [hnil]
        exact .nil
      · cases h
    · rename_i parameter hparameter
      split at h
      · rename_i value hvalue
        obtain ⟨r, hr, hrest⟩ := Option.bind_eq_some_iff.mp h
        obtain ⟨name, hname, htoken⟩ := skipToken_some hvalue
        obtain ⟨text, htext, rfl⟩ := value_sound hskip hr
        obtain ⟨ows', hows', hs'⟩ := exists_skipSpaces parameter
        rw [hs, hparameter, hs', hname]
        exact .cons hows hows' htoken htext (ih hrest)
      · cases h
    · cases h

/-- A round takes a parameter, so the length of the text bounds the rounds. -/
theorem parseParameters_complete (hskip : Skips skip quoted) {s : Bytes}
    (h : IsParameters quoted s) {rounds : Nat} (hrounds : s.length < rounds) :
    parseParameters skip rounds s = some () := by
  induction h generalizing rounds with
  | nil =>
    obtain ⟨rounds, rfl⟩ := Nat.exists_eq_succ_of_ne_zero (Nat.ne_of_gt hrounds)
    rfl
  | @cons ows ows' name value rest hows hows' hname hvalue hrest ih =>
    obtain ⟨rounds, rfl⟩ := Nat.exists_eq_succ_of_ne_zero (Nat.ne_of_gt (Nat.zero_lt_of_lt hrounds))
    have hspaces : skipSpaces (ows' ++ (name ++ 0x3D :: (value ++ rest))) =
        name ++ 0x3D :: (value ++ rest) := by
      refine skipSpaces_append hows' fun b hb => ?_
      rintro rfl
      exact absurd (hname.head _ _ hb) (by decide)
    have htoken : skipToken (name ++ 0x3D :: (value ++ rest)) = some (0x3D :: (value ++ rest)) :=
      skipToken_append hname fun b hb => by
        obtain rfl := Option.some.inj hb
        decide
    have hrest' : rest.length < rounds := by
      simp only [List.length_append, List.length_cons] at hrounds
      omega
    have hsemicolon := @skipSpaces_append ows
      (0x3B :: (ows' ++ (name ++ 0x3D :: (value ++ rest)))) hows (by simp)
    rw [← hspaces] at htoken
    rw [parseParameters_parameter hsemicolon htoken, value_complete hskip hvalue hrest.head, Option.bind_some]
    exact ih hrest'

/-- The whole recognizer. -/
theorem parseMediaTypeWith_iff (hskip : Skips skip quoted) (s : Bytes) :
    (match skipToken s with
      | some (0x2F :: subtype) => (skipToken subtype).bind (parseParameters skip (s.length + 1))
      | _ => none) = some () ↔ IsMediaType quoted s := by
  constructor
  · intro h
    split at h
    · rename_i rest htype
      obtain ⟨parameters, hsubtype, hparameters⟩ := Option.bind_eq_some_iff.mp h
      obtain ⟨type, htext, htoken⟩ := skipToken_some htype
      obtain ⟨subtype, hsub, hsubtoken⟩ := skipToken_some hsubtype
      rw [htext, hsub]
      exact ⟨type, subtype, parameters, htoken, hsubtoken,
        parseParameters_sound hskip hparameters, rfl⟩
    · cases h
  · rintro ⟨type, subtype, parameters, htype, hsubtype, hparameters, rfl⟩
    have hslash : skipToken (type ++ 0x2F :: (subtype ++ parameters)) =
        some (0x2F :: (subtype ++ parameters)) :=
      skipToken_append htype fun b hb => by
        obtain rfl := Option.some.inj hb
        decide
    rw [hslash]
    change (skipToken (subtype ++ parameters)).bind _ = _
    rw [skipToken_append hsubtype hparameters.head, Option.bind_some]
    refine parseParameters_complete hskip hparameters ?_
    simp only [List.length_append, List.length_cons]
    omega

end

/-- The AS4 check accepts the media types with any octets in quoted strings. -/
theorem parseMediaType_iff (s : Bytes) :
    parseMediaType s = some () ↔ IsMediaType (IsQuoted (fun _ => True) (fun _ => True)) s := by
  rw [parseMediaType, parseMediaParameters_eq]
  exact parseMediaTypeWith_iff skips_quotedString s

/-- The AS2 check accepts those without line breaks in quoted strings, outside of pairs. -/
theorem parseMediaTypeLine_iff (s : Bytes) :
    parseMediaTypeLine s = some () ↔ IsMediaType (IsQuoted IsLineByte (fun _ => True)) s := by
  rw [parseMediaTypeLine, parseMediaParametersLine_eq]
  exact parseMediaTypeWith_iff skips_quotedStringLine s

/-! ## Printable bytes -/

/-- A quoted string of printable bytes. -/
abbrev IsPrintableQuoted : Bytes → Prop := IsQuoted IsPrintable IsPrintable

theorem isPrintable_of_isTchar {b : UInt8} (h : isTchar b = true) : IsPrintable b := by
  have hall : ∀ n : Fin 256, isTchar (.ofNat n) = true → IsPrintable (.ofNat n) := by
    decide +kernel
  have hb := hall ⟨b.toNat, b.toNat_lt⟩
  rw [UInt8.ofNat_toNat] at hb
  exact hb h

section

variable {text pair : UInt8 → Prop}

/-- Among printable texts, quoted strings do not depend on what they admit beyond these. -/
theorem quotedTail_printable_iff (htext : ∀ b, IsPrintable b → text b)
    (hpair : ∀ b, IsPrintable b → pair b) (s : Bytes) :
    QuotedTail IsPrintable IsPrintable s ↔
      QuotedTail text pair s ∧ ∀ b ∈ s, IsPrintable b := by
  constructor
  · intro h
    induction h with
    | close => exact ⟨.close, by simp; decide⟩
    | text hquote hescape hb hs ih =>
      exact ⟨.text hquote hescape (htext _ hb) ih.1, List.forall_mem_cons.mpr ⟨hb, ih.2⟩⟩
    | pair hb hs ih =>
      exact ⟨.pair (hpair _ hb) ih.1, List.forall_mem_cons.mpr
        ⟨by decide, List.forall_mem_cons.mpr ⟨hb, ih.2⟩⟩⟩
  · rintro ⟨h, hall⟩
    induction h with
    | close => exact .close
    | text hquote hescape hb hs ih =>
      obtain ⟨hb, hs⟩ := List.forall_mem_cons.mp hall
      exact .text hquote hescape hb (ih hs)
    | pair hb hs ih =>
      obtain ⟨hb, hs⟩ := List.forall_mem_cons.mp (List.forall_mem_cons.mp hall).2
      exact .pair hb (ih hs)

theorem isQuoted_printable_iff (htext : ∀ b, IsPrintable b → text b)
    (hpair : ∀ b, IsPrintable b → pair b) (q : Bytes) :
    IsPrintableQuoted q ↔ IsQuoted text pair q ∧ ∀ b ∈ q, IsPrintable b := by
  constructor
  · rintro ⟨s, hs, rfl⟩
    obtain ⟨htail, hall⟩ := (quotedTail_printable_iff htext hpair s).mp hs
    exact ⟨⟨s, htail, rfl⟩, List.forall_mem_cons.mpr ⟨by decide, hall⟩⟩
  · rintro ⟨⟨s, hs, rfl⟩, hall⟩
    exact ⟨s, (quotedTail_printable_iff htext hpair s).mpr
      ⟨hs, (List.forall_mem_cons.mp hall).2⟩, rfl⟩

theorem isParameters_printable_iff (htext : ∀ b, IsPrintable b → text b)
    (hpair : ∀ b, IsPrintable b → pair b) (s : Bytes) :
    IsParameters IsPrintableQuoted s ↔
      IsParameters (IsQuoted text pair) s ∧ ∀ b ∈ s, IsPrintable b := by
  have htoken : ∀ {t : Bytes}, IsToken t → ∀ b ∈ t, IsPrintable b := fun ht b hb =>
    isPrintable_of_isTchar (ht.2 b hb)
  have hspaces : ∀ {t : Bytes}, IsSpaces t → ∀ b ∈ t, IsPrintable b := by
    intro t ht b hb
    rw [ht b hb]
    decide
  constructor
  · intro h
    induction h with
    | nil => exact ⟨.nil, by simp⟩
    | @cons ows ows' name value rest hows hows' hname hvalue hrest ih =>
      have hvalue' : (IsToken value ∨ IsQuoted text pair value) ∧ ∀ b ∈ value, IsPrintable b := by
        obtain ht | hq := hvalue
        · exact ⟨.inl ht, htoken ht⟩
        · obtain ⟨hq, hall⟩ := (isQuoted_printable_iff htext hpair value).mp hq
          exact ⟨.inr hq, hall⟩
      refine ⟨.cons hows hows' hname hvalue'.1 ih.1, ?_⟩
      simp only [List.forall_mem_append, List.forall_mem_cons]
      exact ⟨hspaces hows, by decide, hspaces hows', htoken hname, by decide, hvalue'.2, ih.2⟩
  · rintro ⟨h, hall⟩
    induction h with
    | nil => exact .nil
    | @cons ows ows' name value rest hows hows' hname hvalue hrest ih =>
      simp only [List.forall_mem_append, List.forall_mem_cons] at hall
      obtain ⟨-, -, -, -, -, hall, hall'⟩ := hall
      refine .cons hows hows' hname (hvalue.imp_right fun hq => ?_) (ih hall')
      exact (isQuoted_printable_iff htext hpair value).mpr ⟨hq, hall⟩

/-- Of the grammar are the texts of a recognizer that are printable. -/
theorem isMediaType_printable_iff (htext : ∀ b, IsPrintable b → text b)
    (hpair : ∀ b, IsPrintable b → pair b) (s : Bytes) :
    IsMediaType IsPrintableQuoted s ↔
      IsMediaType (IsQuoted text pair) s ∧ ∀ b ∈ s, IsPrintable b := by
  have htoken : ∀ {t : Bytes}, IsToken t → ∀ b ∈ t, IsPrintable b := fun ht b hb =>
    isPrintable_of_isTchar (ht.2 b hb)
  constructor
  · rintro ⟨type, subtype, parameters, htype, hsubtype, hparameters, rfl⟩
    obtain ⟨hparameters, hall⟩ := (isParameters_printable_iff htext hpair _).mp hparameters
    refine ⟨⟨type, subtype, parameters, htype, hsubtype, hparameters, rfl⟩, ?_⟩
    simp only [List.forall_mem_append, List.forall_mem_cons]
    exact ⟨htoken htype, by decide, htoken hsubtype, hall⟩
  · rintro ⟨⟨type, subtype, parameters, htype, hsubtype, hparameters, rfl⟩, hall⟩
    simp only [List.forall_mem_append, List.forall_mem_cons] at hall
    exact ⟨type, subtype, parameters, htype, hsubtype,
      (isParameters_printable_iff htext hpair _).mpr ⟨hparameters, hall.2.2.2⟩, rfl⟩

end

/-! ## The two recognizers -/

/-- AS4 accepts exactly the grammar. -/
theorem validateMediaType_iff (value field : Str) :
    validateMediaType value field = .ok () ↔ IsMediaType IsPrintableQuoted value.utf8 := by
  have hprintable : (value.utf8.find? fun b => !(0x20 ≤ b && b < 0x7F)) = none ↔
      ∀ b ∈ value.utf8, IsPrintable b := by
    rw [List.find?_eq_none]
    refine forall₂_congr fun b _ => ?_
    simp [IsPrintable, UInt8.le_iff_toNat_le, UInt8.lt_iff_toNat_lt]
  rw [isMediaType_printable_iff (fun _ _ => trivial) (fun _ _ => trivial), ← parseMediaType_iff,
    ← hprintable]
  unfold validateMediaType
  dsimp only
  split
  · rename_i bad hbad
    rw [hbad]
    simp
  · rename_i hnone
    rw [hnone, Except.okOr_eq_ok]
    simp

/-- AS2 accepts, up to its limit, quoted strings of more bytes. -/
theorem validMediaType_iff (value : Str) :
    validMediaType value = true ↔ value.utf8.length ≤ 255 ∧
      IsMediaType (IsQuoted IsLineByte (fun _ => True)) value.utf8 := by
  rw [validMediaType, Bool.and_eq_true, decide_eq_true_eq, ← parseMediaTypeLine_iff]
  refine and_congr_right fun _ => ?_
  cases parseMediaTypeLine value.utf8 with
  | none => simp
  | some u => simp

/-- A media type for AS2 that has a byte in a quoted string which is not printable. -/
def UnprintableQuoted (value : Str) : Prop :=
  IsMediaType (IsQuoted IsLineByte (fun _ => True)) value.utf8 ∧
    ∃ b ∈ value.utf8, ¬ IsPrintable b

/-- A check of media types is exact on a value: it accepts the grammar, and what it accepts has no
    control octet. -/
structure AcceptsMediaTypes (accepted : Prop) (value : Str) : Prop where
  grammar : accepted ↔ IsMediaType IsPrintableQuoted value.utf8
  no_control : accepted → ∀ b ∈ value.utf8, 0x20 ≤ b.toNat ∧ b.toNat ≠ 0x7F

/-- To accept exactly the media types is to accept what the grammar derives and nothing else. -/
theorem acceptsMediaTypes_of_iff {accepted : Prop} {value : Str}
    (h : accepted ↔ IsMediaType IsPrintableQuoted value.utf8) : AcceptsMediaTypes accepted value := by
  refine ⟨h, fun haccepted b hb => ?_⟩
  have hprintable := ((@isMediaType_printable_iff (fun _ => True) (fun _ => True)
    (fun _ _ => trivial) (fun _ _ => trivial) _).mp (h.mp haccepted)).2 b hb
  exact ⟨hprintable.1, Nat.ne_of_lt hprintable.2⟩

/-- The check of AS4 is exact. Up to its limit the check of AS2 is exact and agrees with it on
    every value but those with an unprintable byte in a quoted string. -/
theorem mediaTypes_exact_iff (value field : Str) :
    AcceptsMediaTypes (validateMediaType value field = .ok ()) value ∧
      (value.utf8.length ≤ 255 →
        (AcceptsMediaTypes (validMediaType value = true) value ∧
            (validMediaType value = true ↔ validateMediaType value field = .ok ()) ↔
          ¬ UnprintableQuoted value)) := by
  refine ⟨acceptsMediaTypes_of_iff (validateMediaType_iff value field), fun hlength => ?_⟩
  have hline : IsMediaType IsPrintableQuoted value.utf8 ↔
      IsMediaType (IsQuoted IsLineByte (fun _ => True)) value.utf8 ∧
        ∀ b ∈ value.utf8, IsPrintable b := by
    refine isMediaType_printable_iff (fun b hb => ?_) (fun _ _ => trivial) _
    constructor
    · rintro rfl
      exact absurd hb (by decide)
    · rintro rfl
      exact absurd hb (by decide)
  constructor
  · rintro ⟨⟨hgrammar, -⟩, -⟩ ⟨hmedia, b, hb, hunprintable⟩
    have hvalid := (validMediaType_iff value).mpr ⟨hlength, hmedia⟩
    exact hunprintable ((hline.mp (hgrammar.mp hvalid)).2 b hb)
  · intro hprintable
    have hgrammar : validMediaType value = true ↔ IsMediaType IsPrintableQuoted value.utf8 := by
      rw [validMediaType_iff, hline]
      constructor
      · rintro ⟨-, hmedia⟩
        refine ⟨hmedia, fun b hb => ?_⟩
        by_contra hunprintable
        exact hprintable ⟨hmedia, b, hb, hunprintable⟩
      · rintro ⟨hmedia, -⟩
        exact ⟨hlength, hmedia⟩
    exact ⟨acceptsMediaTypes_of_iff hgrammar, hgrammar.trans (validateMediaType_iff value field).symm⟩

/-- A line break after a backslash passes the check of AS2, and ends the header line. -/
theorem not_acceptsMediaTypes_escapedBreak :
    ¬ AcceptsMediaTypes (validMediaType (Str.lit "a/b;c=\"\\\rX\"") = true)
      (Str.lit "a/b;c=\"\\\rX\"") := by
  intro h
  have haccepted : validMediaType (Str.lit "a/b;c=\"\\\rX\"") = true := by decide
  exact absurd (h.no_control haccepted 0x0D (by decide)).1 (by decide)

end Asx
