import Asx.ForStd.Except
import Asx.ForStd.Least
import Asx.ForStd.Trim
import Asx.Native.Bdxl

/-!
# Which SMP the DNS names

The U-NAPTR records of a participant are sorted by order and preference, stably, and the first
one with a usable substitution `!ere!uri!` decides. The fields of a substitution are read by a
fold over its characters; `Substitution` says what it accepts in terms of the text.

## Key results
- `unaptrUri_eq_ok`: the substitutions that are accepted, and what is made of them
- `unaptrUri_escaped`: an escaped URI is decoded to itself
- `selectSmpBaseUrl_eq_ok`: the record that is selected
- `bdxlSelection_exact_iff`: when the selected URI has a host
-/

namespace Asx

/-! ## Fields -/

/-- A field as it is written, and what it stands for: the delimiter is escaped inside it, and
    no digit is. -/
inductive Unescapes (delimiter : Char) : Str → Str → Prop
  | nil : Unescapes delimiter [] []
  | plain {c : Char} {raw text : Str} (hescape : c ≠ '\\') (hdelimiter : c ≠ delimiter)
      (rest : Unescapes delimiter raw text) : Unescapes delimiter (c :: raw) (c :: text)
  | escaped {c : Char} {raw text : Str} (hdigit : Str.isAsciiDigit c = false)
      (rest : Unescapes delimiter raw text) : Unescapes delimiter ('\\' :: c :: raw) (c :: text)

/-- A text and the fields that its delimiters split it into. -/
inductive SplitsInto (delimiter : Char) : Str → List Str → Prop
  | last {raw field : Str} (hfield : Unescapes delimiter raw field) :
      SplitsInto delimiter raw [field]
  | more {raw field rest : Str} {fields : List Str} (hfield : Unescapes delimiter raw field)
      (hrest : SplitsInto delimiter rest fields) :
      SplitsInto delimiter (raw ++ delimiter :: rest) (field :: fields)

namespace SplitsInto

variable {d c : Char} {s f : Str} {fs : List Str}

/-- A plain character belongs to the field before the next delimiter. -/
theorem cons_plain (hescape : c ≠ '\\') (hdelimiter : c ≠ d) (h : SplitsInto d s (f :: fs)) :
    SplitsInto d (c :: s) ((c :: f) :: fs) := by
  cases h with
  | last hfield => exact .last (.plain hescape hdelimiter hfield)
  | more hfield hrest => exact .more (.plain hescape hdelimiter hfield) hrest

/-- An escaped character belongs to it without its backslash. -/
theorem cons_escaped (hdigit : Str.isAsciiDigit c = false) (h : SplitsInto d s (f :: fs)) :
    SplitsInto d ('\\' :: c :: s) ((c :: f) :: fs) := by
  cases h with
  | last hfield => exact .last (.escaped hdigit hfield)
  | more hfield hrest => exact .more (.escaped hdigit hfield) hrest

end SplitsInto

/-! ## The loop over the characters -/

namespace UnaptrFields

/-- The fields that a state of the loop holds. -/
def fields (s : UnaptrFields) : List Str := s.done.reverse ++ [s.current]

/-- The loop ends with these fields: no escape is open and no digit was escaped. -/
def Ends (s : UnaptrFields) (fields : List Str) : Prop :=
  s.escaped = false ∧ s.sawBackreference = false ∧ s.fields = fields

/-- No escape is open and no digit was escaped so far. -/
def Open (s : UnaptrFields) : Prop := s.escaped = false ∧ s.sawBackreference = false

/-- More text in the current field. -/
def append (s : UnaptrFields) (text : Str) : UnaptrFields :=
  { s with current := s.current ++ text }

/-- The current field is complete. -/
def next (s : UnaptrFields) : UnaptrFields :=
  { s with
    done := s.current :: s.done
    current := [] }

variable {d c : Char} {s : UnaptrFields}

theorem Open.append (h : s.Open) (text : Str) : (s.append text).Open := h

theorem Open.next (h : s.Open) : s.next.Open := h

theorem append_append (s : UnaptrFields) (t u : Str) : (s.append t).append u = s.append (t ++ u) := by
  simp [UnaptrFields.append]

/-- A backslash is kept back until the next character. -/
theorem push_escape (h : s.Open) : s.push d '\\' = { s with escaped := true } := by
  simp [push, h.1]

theorem push_escaped (h : s.Open) (hdigit : Str.isAsciiDigit c = false) :
    ({ s with escaped := true } : UnaptrFields).push d c = s.append [c] := by
  simp [push, UnaptrFields.append, h.1, hdigit]

/-- An escaped digit is a back-reference, and the record is refused. -/
theorem sawBackreference_push_escaped (hdigit : Str.isAsciiDigit c = true) :
    (({ s with escaped := true } : UnaptrFields).push d c).sawBackreference = true := by
  simp [push, hdigit]

theorem push_plain (h : s.Open) (hescape : c ≠ '\\') (hdelimiter : c ≠ d) :
    s.push d c = s.append [c] := by
  simp [push, UnaptrFields.append, h.1, hescape, hdelimiter]

/-- An unescaped delimiter ends the field. -/
theorem push_delimiter (h : s.Open) (hd : d ≠ '\\') : s.push d d = s.next := by
  simp [push, UnaptrFields.next, h.1, hd]

/-- An escaped digit is not forgotten. -/
theorem sawBackreference_foldl {chars : Str} (h : s.sawBackreference = true) :
    (chars.foldl (push d) s).sawBackreference = true := by
  induction chars generalizing s with
  | nil => exact h
  | cons c chars ih =>
    rw [List.foldl_cons]
    refine ih ?_
    unfold push
    split
    · simp [h]
    · split
      · exact h
      · split <;> exact h

/-- A field is read to the end of the current one. -/
theorem foldl_unescapes {raw text : Str} (hraw : Unescapes d raw text) (h : s.Open) :
    raw.foldl (push d) s = s.append text := by
  induction hraw generalizing s with
  | nil => simp [UnaptrFields.append]
  | plain hescape hdelimiter _ ih =>
    rw [List.foldl_cons, push_plain h hescape hdelimiter, ih (h.append _), append_append]
    rfl
  | escaped hdigit _ ih =>
    rw [List.foldl_cons, List.foldl_cons, push_escape h, push_escaped h hdigit, ih (h.append _),
      append_append]
    rfl

/-- The loop reads the fields of a text. -/
theorem foldl_splitsInto (hd : d ≠ '\\') {chars f : Str} {fs : List Str}
    (hchars : SplitsInto d chars (f :: fs)) (h : s.Open) :
    (chars.foldl (push d) s).Ends (s.done.reverse ++ (s.current ++ f) :: fs) := by
  induction fs generalizing s f chars with
  | nil =>
    cases hchars with
    | last hfield =>
      rw [foldl_unescapes hfield h]
      exact ⟨h.1, h.2, rfl⟩
    | more hfield hrest => cases hrest
  | cons g fs ih =>
    cases hchars with
    | more hfield hrest =>
      rw [List.foldl_append, foldl_unescapes hfield h, List.foldl_cons,
        push_delimiter (h.append _) hd]
      have hends := ih hrest (h.append f).next
      simpa [UnaptrFields.next, UnaptrFields.append] using hends

/-- What the loop reads are the fields of the text: an escape takes two characters, so the
    induction is on the length. -/
theorem splitsInto_of_ends {chars : Str} {fields : List Str} (h : s.Open)
    (hends : (chars.foldl (push d) s).Ends fields) :
    ∃ f fs, SplitsInto d chars (f :: fs) ∧ fields = s.done.reverse ++ (s.current ++ f) :: fs := by
  induction hn : chars.length using Nat.strong_induction_on generalizing s chars with
  | h n ih =>
    cases chars with
    | nil =>
      refine ⟨[], [], .last .nil, ?_⟩
      rw [← hends.2.2]
      simp [UnaptrFields.fields]
    | cons c chars =>
      rw [List.foldl_cons] at hends
      rw [List.length_cons] at hn
      by_cases hescape : c = '\\'
      · rw [hescape, push_escape h] at hends
        cases chars with
        | nil => exact absurd hends.1 (by simp)
        | cons e chars =>
          rw [List.length_cons] at hn
          rw [List.foldl_cons] at hends
          cases hdigit : Str.isAsciiDigit e with
          | true =>
            have hsaw := hends.2.1
            rw [sawBackreference_foldl (sawBackreference_push_escaped hdigit)] at hsaw
            cases hsaw
          | false =>
            rw [push_escaped h hdigit] at hends
            obtain ⟨f, fs, hsplit, hfields⟩ := ih chars.length (by omega) (h.append _) hends rfl
            refine ⟨e :: f, fs, hescape ▸ hsplit.cons_escaped hdigit, ?_⟩
            rw [hfields]
            simp [UnaptrFields.append]
      · by_cases hdelimiter : c = d
        · subst hdelimiter
          rw [push_delimiter h hescape] at hends
          obtain ⟨f, fs, hsplit, hfields⟩ := ih chars.length (by omega) h.next hends rfl
          refine ⟨[], f :: fs, .more .nil hsplit, ?_⟩
          rw [hfields]
          simp [UnaptrFields.next]
        · rw [push_plain h hescape hdelimiter] at hends
          obtain ⟨f, fs, hsplit, hfields⟩ := ih chars.length (by omega) (h.append _) hends rfl
          refine ⟨c :: f, fs, hsplit.cons_plain hescape hdelimiter, ?_⟩
          rw [hfields]
          simp [UnaptrFields.append]

end UnaptrFields

/-! ## Substitutions -/

/-- The regexp is a substitution `d ere d uri d` with this URI: the delimiter is neither
    alphanumeric nor a backslash. -/
def Substitution (text : BdxlText) (regexp uri : Str) : Prop :=
  ∃ (d : Char) (ere ere' uri' : Str), text.isAlphanumeric d = false ∧ d ≠ '\\' ∧
    regexp = d :: (ere' ++ d :: (uri' ++ [d])) ∧ Unescapes d ere' ere ∧ Unescapes d uri' uri

/-- A URI of the scheme `https`, with whatever follows. -/
def IsHttps (uri : Str) : Prop := Str.lit "https://" <+: uri

theorem unescapes_nil_iff {d : Char} {raw : Str} : Unescapes d raw [] ↔ raw = [] := by
  constructor
  · intro h
    cases h
    rfl
  · rintro rfl
    exact .nil

/-- A substitution is an expression and a replacement, each ended by the delimiter. -/
theorem splitsInto_three {d : Char} {chars ere uri : Str} :
    SplitsInto d chars [ere, uri, []] ↔
      ∃ ere' uri', chars = ere' ++ d :: (uri' ++ [d]) ∧ Unescapes d ere' ere ∧
        Unescapes d uri' uri := by
  constructor
  · intro h
    cases h with
    | more hfield hrest =>
      cases hrest with
      | more huri hlast =>
        cases hlast with
        | last hnil =>
          rw [unescapes_nil_iff.mp hnil]
          exact ⟨_, _, rfl, hfield, huri⟩
        | more _ hnone => cases hnone
  · rintro ⟨ere', uri', rfl, here, huri⟩
    exact .more here (.more huri (.last .nil))

/-- The last steps of `unaptr_uri`, on the fields. -/
theorem unaptrUri_cons (text : BdxlText) (d : Char) (chars u : Str) :
    unaptrUri text (d :: chars) = .ok u ↔
      text.isAlphanumeric d = false ∧ d ≠ '\\' ∧ ∃ ere uri,
        (chars.foldl (UnaptrFields.push d) ⟨[], [], false, false⟩).Ends [ere, uri, []] ∧
        IsHttps uri ∧ u = Str.trimEndChar '/' uri := by
  have hscheme : ∀ uri : Str, ("https://" : Str).isPrefixOf uri = true ↔ IsHttps uri := by
    intro uri
    rw [List.isPrefixOf_iff_prefix]
    rfl
  simp only [unaptrUri, Except.bind_eq_ok, Except.ok.injEq, Except.rejectIf_eq_ok, not_or,
    exists_eq_left']
  generalize chars.foldl (UnaptrFields.push d) ⟨[], [], false, false⟩ = s
  have hfields : (s.current :: s.done).reverse = s.fields := by
    rw [List.reverse_cons, UnaptrFields.fields]
  rw [hfields]
  constructor
  · rintro ⟨-, ⟨halpha, hescape⟩, -, hescaped, -, hsaw, h⟩
    refine ⟨by simpa using halpha, hescape, ?_⟩
    split at h
    · rename_i ere uri hthree
      simp only [Except.bind_eq_ok, Except.rejectIf_eq_ok, Except.pure_eq_ok, not_not] at h
      obtain ⟨-, hhttps, rfl⟩ := h
      exact ⟨ere, uri, ⟨by simpa using hescaped, by simpa using hsaw, hthree⟩,
        (hscheme uri).mp hhttps, rfl⟩
    · cases h
  · rintro ⟨halpha, hescape, ere, uri, ⟨hescaped, hsaw, hthree⟩, hhttps, rfl⟩
    refine ⟨(), ⟨by simp [halpha], hescape⟩, (), by simp [hescaped], (), by simp [hsaw], ?_⟩
    rw [hthree]
    simp only [Except.bind_eq_ok, Except.rejectIf_eq_ok, Except.pure_eq_ok, not_not]
    exact ⟨(), (hscheme uri).mpr hhttps, trivial⟩

/-- The substitutions that are accepted. -/
theorem unaptrUri_eq_ok {text : BdxlText} {regexp u : Str} :
    unaptrUri text regexp = .ok u ↔
      ∃ uri, Substitution text regexp uri ∧ IsHttps uri ∧ u = Str.trimEndChar '/' uri := by
  cases regexp with
  | nil =>
    constructor
    · intro h
      cases h
    · rintro ⟨uri, ⟨d, ere, ere', uri', -, -, h, -⟩, -⟩
      cases h
  | cons d chars =>
    rw [unaptrUri_cons]
    constructor
    · rintro ⟨halpha, hescape, ere, uri, hends, hhttps, hu⟩
      obtain ⟨f, fs, hsplit, hfields⟩ := UnaptrFields.splitsInto_of_ends ⟨rfl, rfl⟩ hends
      simp only [List.reverse_nil, List.nil_append] at hfields
      rw [← hfields, splitsInto_three] at hsplit
      obtain ⟨ere', uri', rfl, here, huri⟩ := hsplit
      exact ⟨uri, ⟨d, ere, ere', uri', halpha, hescape, rfl, here, huri⟩, hhttps, hu⟩
    · rintro ⟨uri, ⟨d', ere, ere', uri', halpha, hescape, hregexp, here, huri⟩, hhttps, hu⟩
      obtain ⟨rfl, rfl⟩ := List.cons.inj hregexp
      refine ⟨halpha, hescape, ere, uri, ?_, hhttps, hu⟩
      have hsplit := splitsInto_three.mpr ⟨ere', uri', rfl, here, huri⟩
      exact UnaptrFields.foldl_splitsInto hescape hsplit ⟨rfl, rfl⟩

/-! ## Escaping -/

/-- A field with its delimiters and backslashes escaped. -/
def escapeField (d : Char) (field : Str) : Str :=
  field.flatMap fun c => if c = d ∨ c = '\\' then ['\\', c] else [c]

/-- `char::is_alphanumeric` holds of the ASCII digits. -/
def DigitsAlphanumeric (text : BdxlText) : Prop :=
  ∀ c, Str.isAsciiDigit c = true → text.isAlphanumeric c = true

/-- A field that is escaped is unescaped again. -/
theorem unescapes_escapeField {d : Char} (hdigit : Str.isAsciiDigit d = false) (field : Str) :
    Unescapes d (escapeField d field) field := by
  induction field with
  | nil => exact .nil
  | cons c field ih =>
    rw [escapeField, List.flatMap_cons]
    by_cases hc : c = d ∨ c = '\\'
    · rw [if_pos hc]
      refine .escaped ?_ ih
      obtain rfl | rfl := hc
      · exact hdigit
      · decide
    · rw [if_neg hc]
      rw [not_or] at hc
      exact .plain hc.2 hc.1 ih

/-- An escaped URI is decoded to itself, up to its trailing slashes. -/
theorem unaptrUri_escaped {text : BdxlText} (htext : DigitsAlphanumeric text) {d : Char}
    (halpha : text.isAlphanumeric d = false) (hescape : d ≠ '\\') (ere : Str) {uri : Str}
    (hhttps : IsHttps uri) :
    unaptrUri text (d :: (escapeField d ere ++ d :: (escapeField d uri ++ [d]))) =
      .ok (Str.trimEndChar '/' uri) := by
  have hdigit : Str.isAsciiDigit d = false := by
    by_contra hne
    rw [htext d (by simpa using hne)] at halpha
    cases halpha
  exact unaptrUri_eq_ok.mpr ⟨uri, ⟨d, ere, _, _, halpha, hescape, rfl,
    unescapes_escapeField hdigit ere, unescapes_escapeField hdigit uri⟩, hhttps, rfl⟩

/-! ## Authorities -/

/-- An `https` URI with an authority: the text up to the next `/`, `?` or `#` is not empty. -/
def HasAuthority (uri : Str) : Prop :=
  ∃ c rest, uri = Str.lit "https://" ++ c :: rest ∧ c ≠ '/' ∧ c ≠ '?' ∧ c ≠ '#'

theorem HasAuthority.isHttps {uri : Str} (h : HasAuthority uri) : IsHttps uri := by
  obtain ⟨c, rest, rfl, -⟩ := h
  exact List.prefix_append _ _

theorem trimEndChar_append_cons {c d : Char} (hc : c ≠ d) (pre rest : Str) :
    Str.trimEndChar d (pre ++ c :: rest) = pre ++ c :: Str.trimEndChar d rest := by
  have hrev : (pre ++ c :: rest).reverse = rest.reverse ++ c :: pre.reverse := by simp
  rw [Str.trimEndChar, Str.trimEndChar, hrev, List.dropWhile_append]
  split
  · rename_i hempty
    rw [List.isEmpty_iff.mp hempty, List.dropWhile_cons_of_neg (by simpa using hc)]
    simp
  · simp

/-- Trailing slashes do not belong to the authority. -/
theorem hasAuthority_trim {uri : Str} (h : IsHttps uri) :
    HasAuthority (Str.trimEndChar '/' uri) ↔ HasAuthority uri := by
  constructor
  · rintro ⟨c, rest, htrim, hc⟩
    obtain ⟨more, hmore⟩ := Str.trimEndChar_prefix '/' uri
    refine ⟨c, rest ++ more, ?_, hc⟩
    rw [← hmore, htrim]
    simp
  · rintro ⟨c, rest, rfl, hc⟩
    exact ⟨c, Str.trimEndChar '/' rest, trimEndChar_append_cons hc.1 _ _, hc⟩

/-! ## Selection -/

/-- The record is a terminal rule for an SMP and substitutes this URI. -/
def NamesSmp (text : BdxlText) (record : NaptrRecord) (uri : Str) : Prop :=
  (Str.eqIgnoreAsciiCase record.flags "U" = true ∧
    Str.eqIgnoreAsciiCase record.service "meta:smp" = true) ∧ Substitution text record.regexp uri

/-- The record names an SMP by an `https` URI. -/
def NamesHttps (text : BdxlText) (record : NaptrRecord) : Prop :=
  ∃ uri, NamesSmp text record uri ∧ IsHttps uri

/-- The record names an SMP by an `https` URI with an authority. -/
def NamesHost (text : BdxlText) (record : NaptrRecord) : Prop :=
  ∃ uri, NamesSmp text record uri ∧ HasAuthority uri

theorem NamesHost.namesHttps {text : BdxlText} {record : NaptrRecord}
    (h : NamesHost text record) : NamesHttps text record := by
  obtain ⟨uri, hnames, hauthority⟩ := h
  exact ⟨uri, hnames, hauthority.isHttps⟩

instance : Std.Total NaptrRecord.le where
  total a b := by
    unfold NaptrRecord.le
    omega

instance : IsTrans NaptrRecord NaptrRecord.le where
  trans a b c := by
    unfold NaptrRecord.le
    omega

/-- The loop over the candidates takes the first usable one. -/
theorem firstUsableUri_eq_ok {text : BdxlText} {records : List NaptrRecord} {u : Str} :
    firstUsableUri text records = .ok u ↔
      ∃ record, records.find? (fun r => (unaptrUri text r.regexp).isOk) = some record ∧
        unaptrUri text record.regexp = .ok u := by
  induction records with
  | nil =>
    constructor
    · intro h
      cases h
    · rintro ⟨record, h, -⟩
      cases h
  | cons record records ih =>
    rw [firstUsableUri, List.find?_cons]
    cases huri : unaptrUri text record.regexp with
    | ok uri => simp [Except.isOk, Except.toBool, huri]
    | error reason =>
      simp only [Except.isOk, Except.toBool, Except.mapError_eq_ok]
      exact ih

/-- A record gives a URL iff its substitution is one of the whole name by an `https` URI. -/
theorem isOk_unaptrUri_iff {text : BdxlText} {regexp : Str} :
    (unaptrUri text regexp).isOk = true ↔ ∃ uri, Substitution text regexp uri ∧ IsHttps uri := by
  constructor
  · intro h
    cases hu : unaptrUri text regexp with
    | ok u =>
      obtain ⟨uri, hsub, hhttps, -⟩ := unaptrUri_eq_ok.mp hu
      exact ⟨uri, hsub, hhttps⟩
    | error e =>
      rw [hu] at h
      cases h
  · rintro ⟨uri, hsub, hhttps⟩
    rw [unaptrUri_eq_ok.mpr ⟨uri, hsub, hhttps, rfl⟩]
    rfl

/-- The record that is selected is the first least of those with an `https` URI. -/
theorem selectSmpBaseUrl_eq_ok {text : BdxlText} {records : List NaptrRecord} {u : Str} :
    selectSmpBaseUrl text records = .ok u ↔
      ∃ record, records.IsFirstLeast NaptrRecord.le (NamesHttps text) record ∧
        unaptrUri text record.regexp = .ok u := by
  have hp : (fun r : NaptrRecord => (Str.eqIgnoreAsciiCase r.flags "U" &&
        Str.eqIgnoreAsciiCase r.service "meta:smp") = true ∧
        (unaptrUri text r.regexp).isOk = true) = NamesHttps text := by
    funext r
    simp only [NamesHttps, NamesSmp, isOk_unaptrUri_iff, Bool.and_eq_true, and_assoc,
      exists_and_left]
  simp only [selectSmpBaseUrl, Except.mapError_eq_ok, firstUsableUri_eq_ok,
    List.find?_insertionSort, List.isFirstLeast_filter, hp]

/-- The selection does what it is for. The URI of the least record that names a host is
    selected and begins with the host, the order of records without ties makes no difference,
    and an escaped URI is decoded. -/
structure SelectionExact (text : BdxlText) (records : List NaptrRecord) : Prop where
  selects : ∀ u, selectSmpBaseUrl text records = .ok u ↔ ∃ record uri,
    records.IsFirstLeast NaptrRecord.le (NamesHost text) record ∧ NamesSmp text record uri ∧
      HasAuthority uri ∧ u = Str.trimEndChar '/' uri
  host : ∀ u, selectSmpBaseUrl text records = .ok u → HasAuthority u
  order : (records.map fun r => (r.order, r.preference)).Nodup → ∀ records', records.Perm records' →
    ∀ u, selectSmpBaseUrl text records = .ok u ↔ selectSmpBaseUrl text records' = .ok u
  decodes : ∀ d ere uri, text.isAlphanumeric d = false → d ≠ '\\' → HasAuthority uri →
    unaptrUri text (d :: (escapeField d ere ++ d :: (escapeField d uri ++ [d]))) =
      .ok (Str.trimEndChar '/' uri)

/-- The selection does not depend on the order of the answer. -/
theorem selectSmpBaseUrl_perm {text : BdxlText} {records records' : List NaptrRecord}
    (hkeys : (records.map fun r => (r.order, r.preference)).Nodup)
    (hperm : records.Perm records') (u : Str) :
    selectSmpBaseUrl text records = .ok u ↔ selectSmpBaseUrl text records' = .ok u := by
  have hties : records.Pairwise fun x y => ¬ (NaptrRecord.le x y ∧ NaptrRecord.le y x) := by
    refine (List.pairwise_map.mp hkeys).imp fun {x y} hne hle => hne ?_
    unfold NaptrRecord.le at hle
    exact Prod.ext (by omega) (by omega)
  rw [selectSmpBaseUrl_eq_ok, selectSmpBaseUrl_eq_ok]
  simp only [List.IsFirstLeast.perm hties hperm]

/-- **BDXL selection**: it is exact if and only if the least record with an `https` URI, of
    those for an SMP, names a host in it. -/
theorem bdxlSelection_exact_iff (text : BdxlText) (htext : DigitsAlphanumeric text)
    (records : List NaptrRecord) :
    SelectionExact text records ↔
      ∀ record, records.IsFirstLeast NaptrRecord.le (NamesHttps text) record →
        NamesHost text record := by
  constructor
  · intro hexact record hleast
    obtain ⟨uri, hnames, hhttps⟩ := hleast.mem.2
    have hu := unaptrUri_eq_ok.mpr ⟨uri, hnames.2, hhttps, rfl⟩
    have hhost := hexact.host _ (selectSmpBaseUrl_eq_ok.mpr ⟨record, hleast, hu⟩)
    exact ⟨uri, hnames, (hasAuthority_trim hhttps).mp hhost⟩
  · intro hleast
    -- the first least record with an `https` URI is the first least one with a host
    have hsame : ∀ record, records.IsFirstLeast NaptrRecord.le (NamesHttps text) record ↔
        records.IsFirstLeast NaptrRecord.le (NamesHost text) record := by
      intro record
      constructor
      · intro h
        exact h.of_imp (fun x => NamesHost.namesHttps) (hleast record h)
      · intro h
        obtain ⟨first, hfirst⟩ := List.exists_isFirstLeast (r := NaptrRecord.le) h.mem.1
          h.mem.2.namesHttps
        have hhost := hfirst.of_imp (fun x => NamesHost.namesHttps) (hleast first hfirst)
        rwa [h.unique hhost]
    have hok : ∀ u, selectSmpBaseUrl text records = .ok u ↔ ∃ record uri,
        records.IsFirstLeast NaptrRecord.le (NamesHost text) record ∧ NamesSmp text record uri ∧
          HasAuthority uri ∧ u = Str.trimEndChar '/' uri := by
      intro u
      rw [selectSmpBaseUrl_eq_ok]
      constructor
      · rintro ⟨record, hrecord, hu⟩
        obtain ⟨uri, hnames, hauthority⟩ := hleast record hrecord
        rw [unaptrUri_eq_ok.mpr ⟨uri, hnames.2, hauthority.isHttps, rfl⟩, Except.ok.injEq] at hu
        exact ⟨record, uri, (hsame record).mp hrecord, hnames, hauthority, hu.symm⟩
      · rintro ⟨record, uri, hrecord, hnames, hauthority, rfl⟩
        exact ⟨record, (hsame record).mpr hrecord,
          unaptrUri_eq_ok.mpr ⟨uri, hnames.2, hauthority.isHttps, rfl⟩⟩
    refine ⟨hok, fun u hu => ?_, fun hkeys records' hperm => selectSmpBaseUrl_perm hkeys hperm,
      fun d ere uri halpha hescape hauthority =>
        unaptrUri_escaped htext halpha hescape ere hauthority.isHttps⟩
    obtain ⟨record, uri, -, -, hauthority, rfl⟩ := (hok u).mp hu
    exact (hasAuthority_trim hauthority.isHttps).mpr hauthority

/-! ## Two record sets -/

/-- The operations on ASCII texts; the hashes and the `Debug` forms are not used below. -/
def asciiBdxlText : BdxlText :=
  ⟨fun _ => [], fun _ => [], fun s => s.map Str.toAsciiLower, fun s => s, fun c => [c],
    Str.isAsciiAlphanumeric⟩

theorem digitsAlphanumeric_asciiBdxlText : DigitsAlphanumeric asciiBdxlText := by
  intro c hc
  simp [asciiBdxlText, Str.isAsciiAlphanumeric, hc]

/-- A terminal rule for an SMP. -/
def smpRecord (regexp : Str) : NaptrRecord := ⟨100, 10, ['U'], .lit "Meta:SMP", regexp, ['.']⟩

/-- A backup, which comes after `smpRecord`, and the SMP. -/
def smpRecords : List NaptrRecord :=
  [{ smpRecord (.lit "!.*!https://backup.example/!") with order := 200 },
    smpRecord (.lit "!.*!https://smp.example/!")]

/-- A set of records is exact where the least of them names a host. -/
theorem bdxlSelection_exact_two_hosts :
    selectSmpBaseUrl asciiBdxlText smpRecords = .ok (.lit "https://smp.example") ∧
    SelectionExact asciiBdxlText smpRecords := by
  have hselect : (selectSmpBaseUrl asciiBdxlText smpRecords).toOption =
      some (.lit "https://smp.example") := by decide +kernel
  have hselect := Except.toOption_eq_some.mp hselect
  refine ⟨hselect, (bdxlSelection_exact_iff _ digitsAlphanumeric_asciiBdxlText _).mpr ?_⟩
  intro record hrecord
  obtain ⟨uri, hnames, hhttps⟩ := hrecord.mem.2
  have hu := selectSmpBaseUrl_eq_ok.mpr
    ⟨record, hrecord, unaptrUri_eq_ok.mpr ⟨uri, hnames.2, hhttps, rfl⟩⟩
  rw [hselect, Except.ok.injEq] at hu
  refine ⟨uri, hnames, (hasAuthority_trim hhttps).mp ?_⟩
  exact ⟨'s', Str.lit "mp.example", hu.symm.trans (by decide), by decide⟩

/-- The scheme is tested before the trailing slashes are cut off, so `https://` is accepted and
    becomes `https:`. -/
theorem bdxlSelection_not_exact_empty_authority :
    selectSmpBaseUrl asciiBdxlText [smpRecord (.lit "!.*!https://!")] = .ok (.lit "https:") ∧
    ¬ SelectionExact asciiBdxlText [smpRecord (.lit "!.*!https://!")] := by
  have hselect : (selectSmpBaseUrl asciiBdxlText
      [smpRecord (.lit "!.*!https://!")]).toOption = some (.lit "https:") := by decide +kernel
  have hselect := Except.toOption_eq_some.mp hselect
  refine ⟨hselect, fun hexact => ?_⟩
  obtain ⟨c, rest, huri, -⟩ := hexact.host _ hselect
  have hlength := congrArg List.length huri
  simp [Str.lit, Str.written] at hlength

end Asx
