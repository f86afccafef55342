import Asx.Spec.MimeLines

/-!
# The framing of MIME parts

The segments between consecutive delimiters of a `multipart/related` body, and what the parser
makes of them. The parser looks for the end of a header block in the whole rest of the body, for
`CRLF CRLF` first and then for `LF LF`; a segment whose first blank line is another one is cut
elsewhere, and its headers or body may reach over the delimiter.

## Key results
- `partOf_iff`: when the part that is read is the segment
- `yields_iff`: the parts of a whole run
- `mimeFraming_iff`: the accepted messages that are framed by their delimiters
-/

namespace Asx

open StreamingMimeParser

/-! ## Segments -/

/-- A line end. -/
def IsEol (s : Bytes) : Prop := s = [0x0A] ∨ s = crlf

/-- The position after these bytes starts a line. -/
def StartsLine (pre : Bytes) : Prop := pre = [] ∨ [0x0A] <:+ pre

/-- The first blank line of a segment is `blank`, between `pre` and `post`. -/
structure FirstBlank (seg pre blank post : Bytes) : Prop where
  eq : seg = pre ++ (blank ++ post)
  eol : IsEol blank
  start : StartsLine pre
  first : ∀ pre' blank' post', seg = pre' ++ (blank' ++ post') → IsEol blank' → StartsLine pre' →
    pre.length ≤ pre'.length

/-- The part is the segment: its header block ends at the first blank line, and its body is what
    follows that. -/
def PartOf (seg : Bytes) (part : StreamingMimePartRef) : Prop :=
  ∃ pre blank, FirstBlank seg pre blank part.body ∧
    (pre = [] ∧ part.headers = [] ∨ ∃ eol, IsEol eol ∧ pre = part.headers ++ eol)

/-- The segments between consecutive delimiters, up to the closing one, each with the bytes from
    it on. -/
inductive Segments (boundary : Bytes) : Bytes → List (Bytes × Bytes) → Prop
  | last {rest seg epilogue : Bytes}
      (h : cutAt (boundaryCrlf boundary) rest =
        some (seg, boundaryCrlf boundary ++ (Str.utf8 "--" ++ epilogue))) :
      Segments boundary rest [(seg, rest)]
  | more {rest seg rest' : Bytes} {segs : List (Bytes × Bytes)}
      (h : cutAt (boundaryCrlf boundary) rest =
        some (seg, boundaryCrlf boundary ++ (crlf ++ rest')))
      (hrest : Segments boundary rest' segs) : Segments boundary rest ((seg, rest) :: segs)

/-- The parts are the segments, in order. -/
def Framed (boundary rest : Bytes) (parts : List StreamingMimePartRef) : Prop :=
  ∃ segs, Segments boundary rest segs ∧ List.Forall₂ (fun s part => PartOf s.1 part) segs parts

/-- The first blank line of the segment ends, as the line before it, with CRLF; or both end with
    LF, and nowhere in the rest of the body is there a CRLF twice. -/
def BlankSeen (seg rest : Bytes) : Prop :=
  (∃ headers post, FirstBlank seg (headers ++ crlf) crlf post) ∨
    (∃ headers post, FirstBlank seg (headers ++ [0x0A]) [0x0A] post) ∧ ¬ crlf ++ crlf <:+: rest

/-- The first blank line of every segment is seen. -/
def Separated (boundary rest : Bytes) : Prop :=
  ∃ segs, Segments boundary rest segs ∧ ∀ s ∈ segs, BlankSeen s.1 s.2

/-! ## One part -/

theorem cutHeaders_eq_some {rest : Bytes} {r : Bytes × Bytes} (h : cutHeaders rest = some r) :
    rest = r.1 ++ (crlf ++ (crlf ++ r.2)) ∨
      rest = r.1 ++ ([0x0A] ++ ([0x0A] ++ r.2)) ∧ ¬ crlf ++ crlf <:+: rest := by
  obtain ⟨⟨headers, tail⟩, hcut, rfl⟩ := Option.map_eq_some_iff.mp h
  rw [Option.or_eq_some_iff] at hcut
  obtain hcut | ⟨hnone, hcut⟩ := hcut
  · obtain ⟨hrest, after, hafter⟩ := cutAt_some hcut
    left
    rw [← hafter] at hrest ⊢
    rw [if_pos (List.isPrefixOf_iff_prefix.mpr (List.prefix_append _ _))]
    simpa [crlf] using hrest
  · obtain ⟨hrest, after, hafter⟩ := cutAt_some hcut
    have hno := cutAt_eq_none_iff.mp hnone
    right
    refine ⟨?_, hno⟩
    rw [← hafter] at hrest ⊢
    rw [if_neg (by simp [crlf])]
    simpa using hrest

/-- A delimiter starts with CR. -/
theorem head_boundaryCrlf {boundary s : Bytes} (h : boundaryCrlf boundary <+: s) :
    ∃ t, s = crlf ++ (boundaryStart boundary ++ t) := by
  obtain ⟨t, rfl⟩ := h
  exact ⟨t, by rw [boundaryCrlf, List.append_assoc]⟩

/-- The body does not end at the same place with and without a line end before it. -/
theorem not_shifted {boundary eol body following after following' : Bytes} (heol : IsEol eol)
    (h : cutAt (boundaryCrlf boundary) (body ++ following) = some (body, following))
    (heq : body ++ following = eol ++ after)
    (h' : cutAt (boundaryCrlf boundary) after = some (body, following')) : False := by
  obtain ⟨t, ht⟩ := head_boundaryCrlf (cutAt_some h).2
  dsimp only at ht
  obtain rfl | rfl := heol
  · cases body with
    | nil =>
      rw [ht] at heq
      simp [crlf] at heq
    | cons b body =>
      simp only [List.cons_append, List.nil_append, List.cons.injEq] at heq
      have hcut : cutAt (boundaryCrlf boundary) (body ++ following) = some (body, following) :=
        cutAt_suffix (p := [b]) h
      rw [← heq.2, hcut] at h'
      simp at h'
  · cases body with
    | nil =>
      rw [List.nil_append, ht, List.append_cancel_left_eq] at heq
      obtain ⟨t', ht'⟩ := head_boundaryCrlf (cutAt_some h').2
      dsimp only at ht'
      have hafter := (cutAt_some h').1
      rw [List.nil_append, ht', ← heq] at hafter
      have hdashes : Str.utf8 "--" = [0x2D, 0x2D] := by decide
      rw [boundaryStart, hdashes] at hafter
      simp [crlf] at hafter
    | cons b body =>
      cases body with
      | nil =>
        rw [ht] at heq
        simp [crlf] at heq
      | cons c body =>
        simp only [crlf, List.cons_append, List.nil_append, List.cons.injEq] at heq
        have hcut : cutAt (boundaryCrlf boundary) (body ++ following) = some (body, following) :=
          cutAt_suffix (p := [b, c]) h
        rw [← heq.2.2, hcut, Option.some.injEq, Prod.mk.injEq] at h'
        have hlen := congrArg List.length h'.1
        rw [List.length_cons, List.length_cons] at hlen
        omega

/-- A part that is its segment was cut at a blank line that the parser sees. -/
theorem blankSeen_of_partOf {boundary rest seg following headers body after following' : Bytes}
    (hseg : cutAt (boundaryCrlf boundary) rest = some (seg, following))
    (hheaders : cutHeaders rest = some (headers, after))
    (hbody : cutAt (boundaryCrlf boundary) after = some (body, following'))
    (h : PartOf seg ⟨headers, body⟩) : BlankSeen seg rest := by
  obtain ⟨hrest, -⟩ := cutAt_some hseg
  obtain ⟨pre, blank, hfirst, hpre⟩ := h
  have hjoin : rest = pre ++ (blank ++ (body ++ following)) := by
    rw [hrest, hfirst.eq]
    simp only [List.append_assoc]
  have hend : cutAt (boundaryCrlf boundary) (body ++ following) = some (body, following) := by
    refine cutAt_suffix (p := pre ++ blank) ?_
    rw [List.append_assoc, ← hjoin, hseg, hfirst.eq, List.append_assoc]
  have hsep := cutHeaders_eq_some hheaders
  dsimp only at hsep
  obtain ⟨rfl, rfl⟩ | ⟨eol, heol, rfl⟩ := hpre
  · -- the first line is blank: no separator starts the body there
    rw [List.nil_append] at hjoin
    obtain hsep | ⟨hsep, -⟩ := hsep
    · rw [hjoin, List.nil_append] at hsep
      obtain rfl | rfl := hfirst.eol
      · simp [crlf] at hsep
      · rw [List.append_cancel_left_eq] at hsep
        exact (not_shifted (.inr rfl) hend hsep hbody).elim
    · rw [hjoin, List.nil_append] at hsep
      obtain rfl | rfl := hfirst.eol
      · rw [List.append_cancel_left_eq] at hsep
        exact (not_shifted (.inl rfl) hend hsep hbody).elim
      · simp [crlf] at hsep
  · rw [List.append_assoc] at hjoin
    obtain hsep | ⟨hsep, hno⟩ := hsep
    · rw [hjoin, List.append_cancel_left_eq] at hsep
      obtain rfl | rfl := heol
      · simp [crlf] at hsep
      · rw [List.append_cancel_left_eq] at hsep
        obtain hblank | hblank := hfirst.eol
        · rw [hblank] at hsep
          simp [crlf] at hsep
        · rw [hblank] at hfirst
          exact .inl ⟨headers, body, hfirst⟩
    · refine .inr ⟨?_, hno⟩
      rw [hjoin, List.append_cancel_left_eq] at hsep
      obtain rfl | rfl := heol
      · rw [List.append_cancel_left_eq] at hsep
        obtain hblank | hblank := hfirst.eol
        · rw [hblank] at hfirst
          exact ⟨headers, body, hfirst⟩
        · rw [hblank] at hsep
          simp [crlf] at hsep
      · simp [crlf] at hsep

theorem startsLine_append {eol : Bytes} (heol : IsEol eol) (s : Bytes) : StartsLine (s ++ eol) := by
  obtain rfl | rfl := heol
  · exact .inr (List.suffix_append _ _)
  · exact .inr ⟨s ++ [0x0D], by simp [crlf]⟩

/-- The first blank line after a line with the same end is where the two ends are found. -/
theorem cutAt_firstBlank (following : Bytes) {seg headers eol post : Bytes} (heol : IsEol eol)
    (h : FirstBlank seg (headers ++ eol) eol post) :
    cutAt (eol ++ eol) (seg ++ following) =
      some (headers, eol ++ (eol ++ (post ++ following))) := by
  have hrest : seg ++ following = headers ++ ((eol ++ eol) ++ (post ++ following)) := by
    rw [h.eq]
    simp only [List.append_assoc]
  obtain ⟨⟨pre, tail⟩, hcut, hle⟩ := cutAt_of_occurrence headers
    (List.prefix_append (eol ++ eol) (post ++ following))
  rw [← hrest] at hcut
  obtain ⟨hsplit, t, ht⟩ := cutAt_some hcut
  dsimp only at hsplit ht hle
  -- an earlier occurrence would be an earlier blank line of the segment
  have hlen : pre.length = headers.length := by
    by_contra hne
    have hshort : (pre ++ eol ++ eol).length ≤ seg.length := by
      rw [h.eq]
      simp only [List.length_append]
      omega
    have hprefix : pre ++ eol ++ eol <+: seg :=
      List.prefix_of_prefix_length_le ⟨t, by rw [hsplit, ← ht]; simp only [List.append_assoc]⟩
        (List.prefix_append seg following) hshort
    obtain ⟨post', hpost⟩ := hprefix
    have hfirst := h.first (pre ++ eol) eol post' (by rw [← hpost]; simp only [List.append_assoc])
      heol (startsLine_append heol pre)
    rw [List.length_append, List.length_append] at hfirst
    omega
  obtain ⟨rfl, rfl⟩ := List.append_inj (hsplit.symm.trans hrest) hlen
  rw [hcut, List.append_assoc]

/-- Where the first blank line is seen, the part that is cut is the segment. -/
theorem cutHeaders_of_blankSeen {boundary rest seg following : Bytes}
    (hseg : cutAt (boundaryCrlf boundary) rest = some (seg, following)) (h : BlankSeen seg rest) :
    ∃ headers body, PartOf seg ⟨headers, body⟩ ∧
      cutHeaders rest = some (headers, body ++ following) ∧
      cutAt (boundaryCrlf boundary) (body ++ following) = some (body, following) := by
  obtain ⟨hrest, -⟩ := cutAt_some hseg
  dsimp only at hrest
  have hbody : ∀ {headers eol post : Bytes}, FirstBlank seg (headers ++ eol) eol post →
      cutAt (boundaryCrlf boundary) (post ++ following) = some (post, following) := by
    intro headers eol post hfirst
    refine cutAt_suffix (p := headers ++ eol ++ eol) ?_
    have hjoin : headers ++ eol ++ eol ++ post = seg := by
      rw [hfirst.eq]
      simp only [List.append_assoc]
    rw [← List.append_assoc, hjoin, ← hrest, hseg]
  obtain ⟨headers, post, hfirst⟩ | ⟨⟨headers, post, hfirst⟩, hno⟩ := h
  · refine ⟨headers, post, ⟨_, _, hfirst, .inr ⟨crlf, .inr rfl, rfl⟩⟩, ?_, hbody hfirst⟩
    rw [cutHeaders, hrest, cutAt_firstBlank following (.inr rfl) hfirst]
    simp [crlf]
  · refine ⟨headers, post, ⟨_, _, hfirst, .inr ⟨[0x0A], .inl rfl, rfl⟩⟩, ?_, hbody hfirst⟩
    have hcut := cutAt_firstBlank following (.inl rfl) hfirst
    rw [← hrest] at hcut
    rw [cutHeaders, cutAt_eq_none_iff.mpr hno, Option.none_or]
    change (cutAt ([0x0A] ++ [0x0A]) rest).map _ = _
    rw [hcut]
    simp [crlf]

/-! ## A run of the parser -/

/-- The parts that the parser yields, until it is exhausted. -/
inductive Yields : StreamingMimeParser → List StreamingMimePartRef → Prop
  | nil {p : StreamingMimeParser} (h : p.nextPartSlice = .ok none) : Yields p []
  | cons {p p' : StreamingMimeParser} {part : StreamingMimePartRef}
      {parts : List StreamingMimePartRef} (h : p.nextPartSlice = .ok (some (part, p')))
      (hrest : Yields p' parts) : Yields p (part :: parts)

/-- The two cuts behind a part. -/
theorem nextPartSlice_eq_ok {p p' : StreamingMimeParser} {part : StreamingMimePartRef}
    (h : p.nextPartSlice = .ok (some (part, p'))) :
    ∃ after following, cutHeaders p.rest = some (part.headers, after) ∧
      cutAt (boundaryCrlf p.boundary) after = some (part.body, following) := by
  unfold nextPartSlice at h
  split at h
  · cases h
  · obtain ⟨⟨headers, after⟩, hheaders, h⟩ := Except.bind_eq_ok.mp h
    obtain ⟨⟨body, following⟩, hbody, h⟩ := Except.bind_eq_ok.mp h
    obtain ⟨rest, -, h⟩ := Except.bind_eq_ok.mp h
    rw [Except.okOr_eq_ok] at hheaders hbody
    have hpart : part = ⟨headers, body⟩ := by
      split at h
      · cases h
        rfl
      · split at h
        · obtain ⟨_, -, h⟩ := Except.bind_eq_ok.mp h
          cases h
          rfl
        · split at h
          · cases h
            rfl
          · cases h
    subst hpart
    exact ⟨after, following, hheaders, hbody⟩

/-- A parser that is not at its end gives a part or fails. -/
theorem nextPartSlice_ne_none {p : StreamingMimeParser} (hopen : p.exhausted = false) :
    p.nextPartSlice ≠ .ok none := by
  intro h
  unfold nextPartSlice at h
  rw [hopen, if_neg Bool.false_ne_true] at h
  obtain ⟨_, -, h⟩ := Except.bind_eq_ok.mp h
  obtain ⟨_, -, h⟩ := Except.bind_eq_ok.mp h
  obtain ⟨_, -, h⟩ := Except.bind_eq_ok.mp h
  split at h
  · cases h
  · split at h
    · obtain ⟨_, -, h⟩ := Except.bind_eq_ok.mp h
      cases h
    · split at h
      · cases h
      · cases h

/-- An exhausted parser yields nothing more. -/
theorem Yields.eq_nil {p : StreamingMimeParser} {parts : List StreamingMimePartRef}
    (h : Yields p parts) (hend : p.exhausted = true) : parts = [] := by
  cases h with
  | nil => rfl
  | cons h =>
    rw [nextPartSlice, hend, if_pos rfl] at h
    cases h

section

variable {p : StreamingMimeParser} {headers body : Bytes}

/-- The part before a closing delimiter. -/
theorem nextPartSlice_last {epilogue : Bytes} (hopen : p.exhausted = false)
    (hheaders : cutHeaders p.rest = some (headers,
      body ++ (boundaryCrlf p.boundary ++ (Str.utf8 "--" ++ epilogue))))
    (hbody : cutAt (boundaryCrlf p.boundary)
        (body ++ (boundaryCrlf p.boundary ++ (Str.utf8 "--" ++ epilogue))) =
      some (body, boundaryCrlf p.boundary ++ (Str.utf8 "--" ++ epilogue))) :
    ∃ p', p.nextPartSlice = .ok (some (⟨headers, body⟩, p')) ∧ p'.exhausted = true := by
  have hstrip : stripPrefixBytes crlf (boundaryCrlf p.boundary ++ (Str.utf8 "--" ++ epilogue)) =
      some (boundaryEnd p.boundary ++ epilogue) := by
    rw [boundaryCrlf, List.append_assoc, stripPrefixBytes_append, boundaryEnd, List.append_assoc]
  have hend : (boundaryEnd p.boundary).isPrefixOf (boundaryEnd p.boundary ++ epilogue) = true :=
    List.isPrefixOf_iff_prefix.mpr (List.prefix_append _ _)
  refine ⟨⟨p.boundary, boundaryEnd p.boundary ++ epilogue, true⟩, ?_, rfl⟩
  simp only [nextPartSlice, hopen, Bool.false_eq_true, if_false, hheaders, Except.okOr, bind,
    Except.bind, hbody, hstrip, hend, if_true]
  rfl

/-- The part before another delimiter. -/
theorem nextPartSlice_more {rest' : Bytes} (hopen : p.exhausted = false)
    (hheaders : cutHeaders p.rest = some (headers,
      body ++ (boundaryCrlf p.boundary ++ (crlf ++ rest'))))
    (hbody : cutAt (boundaryCrlf p.boundary)
        (body ++ (boundaryCrlf p.boundary ++ (crlf ++ rest'))) =
      some (body, boundaryCrlf p.boundary ++ (crlf ++ rest'))) :
    p.nextPartSlice = .ok (some (⟨headers, body⟩, ⟨p.boundary, rest', false⟩)) := by
  have hstrip : stripPrefixBytes crlf (boundaryCrlf p.boundary ++ (crlf ++ rest')) =
      some (boundaryStart p.boundary ++ (crlf ++ rest')) := by
    rw [boundaryCrlf, List.append_assoc, stripPrefixBytes_append]
  have hend : (boundaryEnd p.boundary).isPrefixOf (boundaryStart p.boundary ++ (crlf ++ rest')) =
      false := by
    rw [Bool.eq_false_iff, ne_eq, List.isPrefixOf_iff_prefix, boundaryEnd,
      List.prefix_append_right_inj]
    have hdashes : Str.utf8 "--" = [0x2D, 0x2D] := by decide
    rw [hdashes]
    simp [crlf]
  have hstart : (boundaryStart p.boundary).isPrefixOf
      (boundaryStart p.boundary ++ (crlf ++ rest')) = true :=
    List.isPrefixOf_iff_prefix.mpr (List.prefix_append _ _)
  simp only [nextPartSlice, hopen, Bool.false_eq_true, if_false, hheaders, Except.okOr, bind,
    Except.bind, hbody, hstrip, hend, hstart, if_true, List.drop_left, stripPrefixBytes_append]
  rfl

end

/-- The parts of a run are the segments exactly when the blank lines are seen. -/
theorem yields_iff {boundary rest : Bytes} {segs : List (Bytes × Bytes)}
    (hsegs : Segments boundary rest segs) {parts : List StreamingMimePartRef}
    (h : Yields ⟨boundary, rest, false⟩ parts) :
    List.Forall₂ (fun s part => PartOf s.1 part) segs parts ↔ ∀ s ∈ segs, BlankSeen s.1 s.2 := by
  -- on the segments; a part that is not cut where its segment ends spoils those behind it
  induction hsegs generalizing parts with
  | @last rest seg epilogue hseg =>
    cases h with
    | nil hnone => exact absurd hnone (nextPartSlice_ne_none rfl)
    | @cons _ p' part parts hpart hrest =>
      constructor
      · intro hframed
        obtain ⟨hpartOf, -⟩ := List.forall₂_cons.mp hframed
        obtain ⟨after, following, hheaders, hbody⟩ := nextPartSlice_eq_ok hpart
        intro s hs
        rw [List.mem_singleton.mp hs]
        exact blankSeen_of_partOf hseg hheaders hbody hpartOf
      · intro hseen
        obtain ⟨headers, body, hpartOf, hheaders, hbody⟩ :=
          cutHeaders_of_blankSeen hseg (hseen _ List.mem_cons_self)
        obtain ⟨p'', hnext, hend⟩ := nextPartSlice_last
          (p := ⟨boundary, rest, false⟩) rfl hheaders hbody
        rw [hpart] at hnext
        cases hnext
        rw [hrest.eq_nil hend]
        exact .cons hpartOf .nil
  | @more rest seg rest' segs hseg hsegs ih =>
    cases h with
    | nil hnone => exact absurd hnone (nextPartSlice_ne_none rfl)
    | @cons _ p' part parts hpart hrest =>
      have hnext : BlankSeen seg rest → PartOf seg part ∧ p' = ⟨boundary, rest', false⟩ := by
        intro hseen
        obtain ⟨headers, body, hpartOf, hheaders, hbody⟩ := cutHeaders_of_blankSeen hseg hseen
        have hnext := nextPartSlice_more (p := ⟨boundary, rest, false⟩) rfl hheaders hbody
        rw [hpart] at hnext
        cases hnext
        exact ⟨hpartOf, rfl⟩
      rw [List.forall₂_cons, List.forall_mem_cons]
      constructor
      · rintro ⟨hpartOf, hframed⟩
        obtain ⟨after, following, hheaders, hbody⟩ := nextPartSlice_eq_ok hpart
        have hseen := blankSeen_of_partOf hseg hheaders hbody hpartOf
        obtain ⟨-, rfl⟩ := hnext hseen
        exact ⟨hseen, (ih hrest).mp hframed⟩
      · rintro ⟨hseen, hall⟩
        obtain ⟨hpartOf, rfl⟩ := hnext hseen
        exact ⟨hpartOf, (ih hrest).mpr hall⟩

/-- No part holds a delimiter. -/
theorem Framed.no_delimiter {boundary rest : Bytes} {parts : List StreamingMimePartRef}
    (h : Framed boundary rest parts) {part : StreamingMimePartRef} (hpart : part ∈ parts) :
    ¬ boundaryCrlf boundary <:+: part.headers ∧ ¬ boundaryCrlf boundary <:+: part.body := by
  obtain ⟨segs, hsegs, hparts⟩ := h
  have hclean : ∀ s ∈ segs, ¬ boundaryCrlf boundary <:+: s.1 := by
    clear hparts
    have hne : boundaryCrlf boundary ≠ [] := by simp [boundaryCrlf, crlf]
    induction hsegs with
    | last hseg =>
      have hno := not_infix_of_cutAt hne hseg
      intro s hs
      rw [List.mem_singleton.mp hs]
      exact hno
    | more hseg _ ih =>
      have hno := not_infix_of_cutAt hne hseg
      rw [List.forall_mem_cons]
      exact ⟨hno, ih⟩
  obtain ⟨s, hs, pre, blank, hfirst, hpre⟩ := hparts.exists_left hpart
  have hseg := hclean s hs
  rw [hfirst.eq] at hseg
  constructor
  · intro hheaders
    refine hseg (hheaders.trans ?_)
    obtain ⟨-, hnil⟩ | ⟨eol, -, rfl⟩ := hpre
    · rw [hnil]
      exact List.nil_infix
    · exact (List.prefix_append _ _).isInfix.trans (List.prefix_append _ _).isInfix
  · intro hbody
    exact hseg (hbody.trans ((List.suffix_append _ _).trans (List.suffix_append _ _)).isInfix)

/-! ## Messages -/

/-- What the parser reads of a body starts after its first delimiter. -/
theorem new_eq_ok {rawBody : Bytes} {boundary : Str} {p : StreamingMimeParser}
    (h : StreamingMimeParser.new rawBody boundary = .ok p) :
    p.boundary = Str.utf8 boundary ∧ p.exhausted = false ∧
      ∃ preamble, rawBody =
          preamble ++ (boundaryStart (Str.utf8 boundary) ++ (crlf ++ p.rest)) ∧
        (preamble = [] ∨ ∃ before following, preamble = before ++ crlf ∧
          cutAt (boundaryCrlf (Str.utf8 boundary)) rawBody = some (before, following)) := by
  -- a body from its first delimiter on
  have hfrom : ∀ first t : Bytes, first = boundaryStart (Str.utf8 boundary) ++ t →
      (Except.okOr (stripPrefixBytes crlf
          (first.drop (boundaryStart (Str.utf8 boundary)).length))
        (mimeError "multipart boundary delimiter not followed by CRLF") >>= fun rest =>
          (pure ⟨Str.utf8 boundary, rest, false⟩ : Result StreamingMimeParser)) = .ok p →
      p.boundary = Str.utf8 boundary ∧ p.exhausted = false ∧
        first = boundaryStart (Str.utf8 boundary) ++ (crlf ++ p.rest) := by
    rintro _ t rfl h
    obtain ⟨rest, hrest, h⟩ := Except.bind_eq_ok.mp h
    obtain rfl := Except.pure_eq_ok.mp h
    rw [List.drop_left, Except.okOr_eq_ok, stripPrefixBytes] at hrest
    split at hrest
    · rename_i hcrlf
      obtain ⟨t', rfl⟩ := List.isPrefixOf_iff_prefix.mp hcrlf
      rw [List.drop_left, Option.some.injEq] at hrest
      exact ⟨rfl, rfl, by rw [hrest]⟩
    · cases hrest
  unfold StreamingMimeParser.new at h
  dsimp only at h
  split at h
  · rename_i hprefix
    obtain ⟨first, hfirst, h⟩ := Except.bind_eq_ok.mp h
    obtain rfl := Except.pure_eq_ok.mp hfirst
    obtain ⟨t, ht⟩ := List.isPrefixOf_iff_prefix.mp hprefix
    obtain ⟨hboundary, hopen, hraw⟩ := hfrom rawBody t ht.symm h
    exact ⟨hboundary, hopen, [], hraw, .inl rfl⟩
  · obtain ⟨first, hfirst, h⟩ := Except.bind_eq_ok.mp h
    rw [Except.okOr_eq_ok] at hfirst
    obtain ⟨⟨before, following⟩, hcut, rfl⟩ := Option.map_eq_some_iff.mp hfirst
    obtain ⟨hraw, hdelimiter⟩ := cutAt_some hcut
    obtain ⟨t, ht⟩ := head_boundaryCrlf hdelimiter
    dsimp only at hraw ht h
    subst ht
    have hdrop : (crlf ++ (boundaryStart (Str.utf8 boundary) ++ t)).drop 2 =
        boundaryStart (Str.utf8 boundary) ++ t := rfl
    obtain ⟨hboundary, hopen, hrest⟩ := hfrom _ t hdrop h
    refine ⟨hboundary, hopen, before ++ crlf, ?_, .inr ⟨before, _, rfl, hcut⟩⟩
    rw [hraw, List.append_assoc, ← hrest, hdrop]

/-- The payload carries the part's identifier, type and body. -/
def ReadAs (part : StreamingMimePartRef) (payload : InboundAttachment) : Prop :=
  contentIdFromBlock part.headers = .ok (some payload.contentId) ∧
    payload.contentType = contentTypeFromBlock part.headers ∧ payload.bytes = part.body

/-- The payloads are the parts that the parser yields. -/
theorem payloadParts_eq_ok {session : SessionContext} {stage : Str} {room : Nat}
    {p : StreamingMimeParser} {payloads : List InboundAttachment}
    (h : payloadParts session stage room p = .ok payloads) :
    ∃ parts, Yields p parts ∧ List.Forall₂ ReadAs parts payloads := by
  induction room generalizing p payloads with
  | zero =>
    unfold payloadParts at h
    obtain ⟨next, hnext, h⟩ := Except.bind_eq_ok.mp h
    cases next with
    | none =>
      obtain rfl := Except.pure_eq_ok.mp h
      exact ⟨[], .nil hnext, .nil⟩
    | some next => cases h
  | succ room ih =>
    unfold payloadParts at h
    obtain ⟨next, hnext, h⟩ := Except.bind_eq_ok.mp h
    cases next with
    | none =>
      obtain rfl := Except.pure_eq_ok.mp h
      exact ⟨[], .nil hnext, .nil⟩
    | some next =>
      obtain ⟨part, p'⟩ := next
      obtain ⟨contentId?, hid, h⟩ := Except.bind_eq_ok.mp h
      obtain ⟨contentId, hsome, h⟩ := Except.bind_eq_ok.mp h
      obtain ⟨rest, hrest, h⟩ := Except.bind_eq_ok.mp h
      obtain rfl := Except.pure_eq_ok.mp h
      rw [Except.okOr_eq_ok] at hsome
      subst hsome
      obtain ⟨parts, hparts, hread⟩ := ih hrest
      exact ⟨part :: parts, .cons hnext hparts, .cons ⟨hid, rfl, rfl⟩ hread⟩

/-- A message was read from these parts of a body. -/
structure ReadFromParts (rawBody : Bytes) (contentType : Str) (message : MultipartAs4Payload)
    (boundary : Str) (rest : Bytes) (root : StreamingMimePartRef)
    (parts : List StreamingMimePartRef) : Prop where
  declared : parseMultipartBoundaryFromContentType contentType = .ok (some boundary)
  parser : StreamingMimeParser.new rawBody boundary = .ok ⟨Str.utf8 boundary, rest, false⟩
  yields : Yields ⟨Str.utf8 boundary, rest, false⟩ (root :: parts)
  soap : message.soapXml = root.body
  payloads : List.Forall₂ ReadAs parts message.payloads

/-- A message that is extracted is its first part and the others. -/
theorem extract_eq_ok {rawBody : Bytes} {contentType : Str} {session : SessionContext} {stage : Str}
    {message : MultipartAs4Payload}
    (h : extractMultipartRelatedPayloadIfPresent rawBody contentType session stage =
      .ok (some message)) :
    ∃ boundary rest root parts,
      ReadFromParts rawBody contentType message boundary rest root parts := by
  unfold extractMultipartRelatedPayloadIfPresent at h
  obtain ⟨boundary?, hboundary, h⟩ := Except.bind_eq_ok.mp h
  cases boundary? with
  | none =>
    obtain ⟨_, -, h⟩ := Except.bind_eq_ok.mp h
    cases h
  | some boundary =>
    obtain ⟨p, hp, h⟩ := Except.bind_eq_ok.mp h
    obtain ⟨next, hnext, h⟩ := Except.bind_eq_ok.mp h
    obtain ⟨⟨root, p'⟩, hfirst, h⟩ := Except.bind_eq_ok.mp h
    obtain ⟨_, -, h⟩ := Except.bind_eq_ok.mp h
    obtain ⟨_, -, h⟩ := Except.bind_eq_ok.mp h
    obtain ⟨_, -, h⟩ := Except.bind_eq_ok.mp h
    obtain ⟨payloads, hpayloads, h⟩ := Except.bind_eq_ok.mp h
    obtain rfl := Option.some.inj (Except.pure_eq_ok.mp h)
    rw [Except.okOr_eq_ok] at hfirst
    subst hfirst
    obtain ⟨parts, hparts, hread⟩ := payloadParts_eq_ok hpayloads
    obtain ⟨hbytes, hopen, -⟩ := new_eq_ok hp
    obtain ⟨bytes, rest, exhausted⟩ := p
    dsimp only at hbytes hopen
    subst hbytes hopen
    exact ⟨boundary, rest, root, parts, hboundary, hp, .cons hnext hparts, rfl, hread⟩

/-- The parts of an accepted message are the segments between its delimiters exactly when the
    parser sees the first blank line of every segment. -/
theorem mimeFraming_iff (rawBody : Bytes) (contentType : Str) (session : SessionContext)
    (stage : Str) (message : MultipartAs4Payload)
    (h : extractMultipartRelatedPayloadIfPresent rawBody contentType session stage =
      .ok (some message)) :
    ∃ boundary rest root parts,
      ReadFromParts rawBody contentType message boundary rest root parts ∧
      (Framed (Str.utf8 boundary) rest (root :: parts) ↔ Separated (Str.utf8 boundary) rest) := by
  obtain ⟨boundary, rest, root, parts, hread⟩ := extract_eq_ok h
  refine ⟨boundary, rest, root, parts, hread, ?_⟩
  exact exists_congr fun segs => and_congr_right fun hsegs => yields_iff hsegs hread.yields

/-! ## Two messages -/

/-- The first blank line, when the places before it were tried. -/
theorem firstBlank_of_forall_lt {pre blank post : Bytes} (heol : IsEol blank)
    (hstart : StartsLine pre)
    (hfirst : ∀ i < pre.length, ¬ (StartsLine ((pre ++ (blank ++ post)).take i) ∧
      ([0x0A] <+: (pre ++ (blank ++ post)).drop i ∨ crlf <+: (pre ++ (blank ++ post)).drop i))) :
    FirstBlank (pre ++ (blank ++ post)) pre blank post := by
  refine ⟨rfl, heol, hstart, ?_⟩
  intro pre' blank' post' heq heol' hstart'
  by_contra hlt
  refine hfirst pre'.length (by omega) ?_
  rw [heq, List.take_left, List.drop_left]
  refine ⟨hstart', ?_⟩
  obtain rfl | rfl := heol'
  · exact .inl (List.prefix_append _ _)
  · exact .inr (List.prefix_append _ _)

instance (pre : Bytes) : Decidable (StartsLine pre) := inferInstanceAs (Decidable (_ ∨ _))

/-- The first segment of a body. -/
theorem Segments.head {boundary rest : Bytes} {segs : List (Bytes × Bytes)}
    (h : Segments boundary rest segs) :
    ∃ seg following segs', cutAt (boundaryCrlf boundary) rest = some (seg, following) ∧
      segs = (seg, rest) :: segs' := by
  cases h with
  | last h => exact ⟨_, _, _, h, rfl⟩
  | more h _ => exact ⟨_, _, _, h, rfl⟩

/-- A message whose root part has header lines `headers`, and after it a part `x`. -/
def twoParts (headers : Str) : Bytes :=
  Str.utf8 "--b\r\n" ++ (Str.utf8 headers ++
    Str.utf8 "<s/>\r\n--b\r\nContent-ID: <p>\r\n\r\nx\r\n--b--")

/-- Lines that end with CRLF. -/
def crlfMessage : Bytes := twoParts "Content-Type: application/soap+xml\r\n\r\n"

/-- The parts of `crlfMessage` are its segments. -/
theorem mimeFraming_crlfMessage :
    extractMultipartRelatedPayloadIfPresent crlfMessage "multipart/related; boundary=b"
        ⟨"s", "p", true⟩ "t" =
      .ok (some ⟨Str.utf8 "<s/>", [⟨"p", none, Str.utf8 "x"⟩]⟩) ∧
    ∃ boundary rest root parts,
      ReadFromParts crlfMessage "multipart/related; boundary=b"
        ⟨Str.utf8 "<s/>", [⟨"p", none, Str.utf8 "x"⟩]⟩ boundary rest root parts ∧
      Framed (Str.utf8 boundary) rest (root :: parts) := by
  have haccepted : extractMultipartRelatedPayloadIfPresent crlfMessage
      "multipart/related; boundary=b" ⟨"s", "p", true⟩ "t" =
        .ok (some ⟨Str.utf8 "<s/>", [⟨"p", none, Str.utf8 "x"⟩]⟩) := by decide +kernel
  obtain ⟨boundary, rest, root, parts, hread, hiff⟩ := mimeFraming_iff _ _ _ _ _ haccepted
  refine ⟨haccepted, boundary, rest, root, parts, hread, hiff.mpr ?_⟩
  have hboundary : parseMultipartBoundaryFromContentType "multipart/related; boundary=b" =
      .ok (some (.lit "b")) := by decide +kernel
  have hnew : StreamingMimeParser.new crlfMessage "b" =
      .ok ⟨Str.utf8 "b", crlfMessage.drop 5, false⟩ := by decide +kernel
  obtain rfl : .lit "b" = boundary :=
    Option.some.inj (Except.ok.inj (hboundary.symm.trans hread.declared))
  obtain rfl : crlfMessage.drop 5 = rest :=
    congrArg StreamingMimeParser.rest (Except.ok.inj (hnew.symm.trans hread.parser))
  have hsecond : cutAt (boundaryCrlf (Str.utf8 (.lit "b")))
      (Str.utf8 "Content-ID: <p>\r\n\r\nx\r\n--b--") =
        some (Str.utf8 "Content-ID: <p>\r\n\r\nx",
          boundaryCrlf (Str.utf8 (.lit "b")) ++ (Str.utf8 "--" ++ [])) := by decide +kernel
  have hfirst : cutAt (boundaryCrlf (Str.utf8 (.lit "b"))) (crlfMessage.drop 5) =
      some (Str.utf8 "Content-Type: application/soap+xml\r\n\r\n<s/>",
        boundaryCrlf (Str.utf8 (.lit "b")) ++ (crlf ++
          Str.utf8 "Content-ID: <p>\r\n\r\nx\r\n--b--")) := by decide +kernel
  have hroot : FirstBlank (Str.utf8 "Content-Type: application/soap+xml" ++ crlf ++ (crlf ++
      Str.utf8 "<s/>")) (Str.utf8 "Content-Type: application/soap+xml" ++ crlf) crlf
        (Str.utf8 "<s/>") :=
    firstBlank_of_forall_lt (.inr rfl) (by decide +kernel) (by decide +kernel)
  have hpart : FirstBlank (Str.utf8 "Content-ID: <p>" ++ crlf ++ (crlf ++ Str.utf8 "x"))
      (Str.utf8 "Content-ID: <p>" ++ crlf) crlf (Str.utf8 "x") :=
    firstBlank_of_forall_lt (.inr rfl) (by decide +kernel) (by decide +kernel)
  refine ⟨_, .more hfirst (.last hsecond), ?_⟩
  rw [List.forall_mem_cons, List.forall_mem_singleton]
  exact ⟨.inl ⟨_, _, hroot⟩, .inl ⟨_, _, hpart⟩⟩

/-- The header block of the root ends with a blank line under LF. -/
def lfMessage : Bytes := twoParts "Content-Type: application/soap+xml\n\n"

/-- The message is accepted with the body of the second part as its root, and its part is no
    segment. -/
theorem mimeFraming_lfMessage :
    extractMultipartRelatedPayloadIfPresent lfMessage "multipart/related; boundary=b"
        ⟨"s", "p", true⟩ "t" = .ok (some ⟨Str.utf8 "x", []⟩) ∧
    ∀ boundary rest root parts,
      ReadFromParts lfMessage "multipart/related; boundary=b" ⟨Str.utf8 "x", []⟩ boundary rest root
        parts → ¬ Framed (Str.utf8 boundary) rest (root :: parts) := by
  refine ⟨by decide +kernel, ?_⟩
  rintro boundary rest root parts hread ⟨segs, hsegs, hparts⟩
  have hboundary : parseMultipartBoundaryFromContentType "multipart/related; boundary=b" =
      .ok (some (.lit "b")) := by decide +kernel
  have hnew : StreamingMimeParser.new lfMessage (.lit "b") =
      .ok ⟨Str.utf8 (.lit "b"), lfMessage.drop 5, false⟩ := by decide +kernel
  obtain rfl : .lit "b" = boundary :=
    Option.some.inj (Except.ok.inj (hboundary.symm.trans hread.declared))
  obtain rfl : lfMessage.drop 5 = rest :=
    congrArg StreamingMimeParser.rest (Except.ok.inj (hnew.symm.trans hread.parser))
  obtain ⟨seg, following, segs', hseg, rfl⟩ := hsegs.head
  obtain ⟨⟨pre, blank, hfirst, -⟩, -⟩ := List.forall₂_cons.mp hparts
  have hsuffix : Str.utf8 (.lit "x") <:+ seg := by
    have hjoin : seg = pre ++ (blank ++ root.body) := hfirst.eq
    rw [hjoin, ← hread.soap, ← List.append_assoc]
    exact List.suffix_append _ _
  have hcut : (cutAt (boundaryCrlf (Str.utf8 (.lit "b"))) (lfMessage.drop 5)).map Prod.fst =
      some (Str.utf8 "Content-Type: application/soap+xml\n\n<s/>") := by decide +kernel
  rw [hseg, Option.map_some, Option.some.injEq] at hcut
  subst hcut
  exact absurd hsuffix (by decide +kernel)

end Asx
