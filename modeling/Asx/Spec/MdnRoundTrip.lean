import Asx.ForStd.Ascii
import Asx.ForStd.Trim
import Asx.Native.MdnReport
import Asx.Spec.MimeRoundTrip

/-!
# Reading back an MDN

The values of an MDN stand behind the names of their fields, each on a line of its own, and none
of them can end its line. So the delimiters of the report are the three that were written, and
the notification between the last two holds the fields that were written and no others.

## Key results
- `partsAt_mdnReport`: the parts of a report
- `parseMdnFields_notificationPart`: the fields of its notification
- `generateMdn_roundTrip`: a generated MDN
-/

namespace Asx

/-! ## Values -/

/-- A value that may be written: trimmed, not empty and without CR, LF and NUL. -/
structure IsMdnValue (value : Str) : Prop where
  trimmed : Str.trim value = value
  nonempty : value ≠ []
  clean : ∀ c ∈ value, c ≠ '\r' ∧ c ≠ '\n' ∧ c ≠ '\x00'

/-- Lines that were written are read back as lines. -/
theorem lines_crlfLines {lines : List Str} (h : ∀ line ∈ lines, '\n' ∉ line) (s : Str) :
    Str.lines (crlfLines lines ++ s) = lines ++ Str.lines s := by
  induction lines with
  | nil => rfl
  | cons line lines ih =>
    rw [List.forall_mem_cons] at h
    have hcons : crlfLines (line :: lines) ++ s = line ++ '\r' :: '\n' :: (crlfLines lines ++ s) := by
      simp [crlfLines]
    rw [hcons, Str.lines_append h.1, ih h.2, List.cons_append]

/-! ## Fields -/

/-- The name of a field. -/
structure IsFieldName (name : Str) : Prop where
  nonempty : name ≠ []
  start : ∀ c ∈ name.head?, c ≠ ' ' ∧ c ≠ '\t'
  chars : ∀ c ∈ name, c ≠ ':' ∧ c ≠ '\r' ∧ c ≠ '\n'
  trimmed : Str.trim name = name

/-- What the field names of the notification are checked for. -/
theorem isFieldName_of_checks {name : Str}
    (h : (name ≠ [] ∧ name.head?.all (fun c => c ≠ ' ' ∧ c ≠ '\t') = true ∧
      Str.trim name = name) ∧ name.all (fun c => c ≠ ':' ∧ c ≠ '\r' ∧ c ≠ '\n') = true) :
    IsFieldName name where
  nonempty := h.1.1
  start := by
    intro c hc
    have hall := h.1.2.1
    rw [Option.mem_def.mp hc, Option.all_some] at hall
    exact of_decide_eq_true hall
  chars := by simpa using h.2
  trimmed := h.1.2.2

/-- A field on a line of its own. -/
theorem scanMdnLine_field (st : MdnScan) {line name key value : Str}
    (hline : line = name ++ ':' :: ' ' :: value) (hname : IsFieldName name)
    (hkey : Str.toAsciiLowercase name = key) (hnew : key ∉ st.seenKeys)
    (hvalue : Str.trim value = value) (hclean : '\r' ∉ value) :
    scanMdnLine st line = .ok ⟨st.fields.commit st.currentKey st.currentValue, some key, value,
      key :: st.seenKeys⟩ := by
  subst hline hkey
  have hcolon : ':' ∉ name := fun h => (hname.chars _ h).1 rfl
  have hcr : '\r' ∉ name ++ ':' :: ' ' :: value := by
    have hno : '\r' ∉ name := fun h => (hname.chars _ h).2.1 rfl
    simp [hno, hclean]
  have hspace : ¬ ([' '].isPrefixOf (name ++ ':' :: ' ' :: value) = true ∨
      ['\t'].isPrefixOf (name ++ ':' :: ' ' :: value) = true) := by
    cases hcons : name with
    | nil => exact absurd hcons hname.nonempty
    | cons c tail =>
      obtain ⟨hsp, htab⟩ := hname.start c (by simp [hcons])
      simp [List.isPrefixOf, hsp.symm, htab.symm]
  unfold scanMdnLine
  dsimp only
  rw [Str.trimEndChar_of_notMem hcr, if_neg (by simp), if_neg hspace, Str.splitOnce_append hcolon]
  dsimp only
  rw [hname.trimmed, if_neg hnew, Str.trim_space_append hvalue]

section

variable {f : MdnFields} {key value : Str}

theorem commit_finalRecipient (hkey : key = .lit "final-recipient") (h : f.finalRecipient = none) :
    f.commit (some key) value = { f with finalRecipient := some (Str.trim value) } := by
  subst hkey
  unfold MdnFields.commit
  dsimp only
  rw [if_pos ⟨by decide, h⟩]

theorem commit_originalMessageId (hkey : key = .lit "original-message-id")
    (h : f.originalMessageId = none) :
    f.commit (some key) value = { f with originalMessageId := some (Str.trim value) } := by
  subst hkey
  unfold MdnFields.commit
  dsimp only
  rw [if_neg (fun h => absurd h.1 (by decide)), if_pos ⟨by decide, h⟩]

theorem commit_disposition (hkey : key = .lit "disposition") (h : f.disposition = none) :
    f.commit (some key) value = { f with disposition := some (Str.trim value) } := by
  subst hkey
  unfold MdnFields.commit
  dsimp only
  rw [if_neg (fun h => absurd h.1 (by decide)), if_neg (fun h => absurd h.1 (by decide)),
    if_pos ⟨by decide, h⟩]

theorem commit_receivedContentMic (hkey : key = .lit "received-content-mic")
    (h : f.receivedContentMic = none) :
    f.commit (some key) value = { f with receivedContentMic := some (Str.trim value) } := by
  subst hkey
  unfold MdnFields.commit
  dsimp only
  rw [if_neg (fun h => absurd h.1 (by decide)), if_neg (fun h => absurd h.1 (by decide)),
    if_neg (fun h => absurd h.1 (by decide)), if_pos ⟨by decide, h⟩]

end

section

variable {finalRecipient originalMessageId disposition : Str}

theorem IsMdnValue.cr {value : Str} (h : IsMdnValue value) : '\r' ∉ value :=
  fun hc => (h.clean _ hc).1 rfl

theorem IsMdnValue.lf {value : Str} (h : IsMdnValue value) : '\n' ∉ value :=
  fun hc => (h.clean _ hc).2.1 rfl

theorem trim_recipient (h : IsMdnValue finalRecipient) :
    Str.trim (Str.lit "rfc822; " ++ finalRecipient) = Str.lit "rfc822; " ++ finalRecipient :=
  Str.trim_cons_append (by decide) h.nonempty h.trimmed

/-- The scan of the first three fields; the last of them is not committed yet. -/
theorem scan_notificationLines (hrecipient : IsMdnValue finalRecipient)
    (hid : IsMdnValue originalMessageId) (hdisposition : IsMdnValue disposition) :
    (notificationLines finalRecipient originalMessageId disposition none).foldlM scanMdnLine
        ⟨⟨none, none, none, none⟩, none, [], []⟩ =
      .ok ⟨⟨some (Str.lit "rfc822; " ++ finalRecipient), some originalMessageId, none, none⟩,
        some (Str.lit "disposition"), disposition,
        [Str.lit "disposition", Str.lit "original-message-id", Str.lit "final-recipient"]⟩ := by
  have hrecipientName : IsFieldName (Str.lit "Final-Recipient") :=
    isFieldName_of_checks (by decide)
  have hidName : IsFieldName (Str.lit "Original-Message-ID") :=
    isFieldName_of_checks (by decide)
  have hdispositionName : IsFieldName (Str.lit "Disposition") :=
    isFieldName_of_checks (by decide)
  have hcr : '\r' ∉ Str.lit "rfc822; " ++ finalRecipient := by
    rw [List.mem_append, not_or]
    exact ⟨by decide, hrecipient.cr⟩
  have h₁ := scanMdnLine_field ⟨⟨none, none, none, none⟩, none, [], []⟩
    (rfl : Str.lit "Final-Recipient: rfc822; " ++ finalRecipient = _) hrecipientName
    (by decide : _ = Str.lit "final-recipient") List.not_mem_nil (trim_recipient hrecipient) hcr
  have h₂ := scanMdnLine_field ⟨⟨none, none, none, none⟩, some (Str.lit "final-recipient"),
      Str.lit "rfc822; " ++ finalRecipient, [Str.lit "final-recipient"]⟩
    (rfl : Str.lit "Original-Message-ID: " ++ originalMessageId = _) hidName
    (by decide : _ = Str.lit "original-message-id") (by simp; decide) hid.trimmed hid.cr
  rw [commit_finalRecipient rfl rfl, trim_recipient hrecipient] at h₂
  have h₃ := scanMdnLine_field ⟨⟨some (Str.lit "rfc822; " ++ finalRecipient), none, none, none⟩,
      some (Str.lit "original-message-id"), originalMessageId,
      [Str.lit "original-message-id", Str.lit "final-recipient"]⟩
    (rfl : Str.lit "Disposition: " ++ disposition = _) hdispositionName
    (by decide : _ = Str.lit "disposition") (by simp; decide) hdisposition.trimmed hdisposition.cr
  rw [commit_originalMessageId rfl rfl, hid.trimmed] at h₃
  simp only [notificationLines, Option.toList_none, List.map_nil, List.append_nil, List.foldlM_cons,
    List.foldlM_nil, Except.bind_eq_ok, Except.pure_eq_ok]
  exact ⟨_, h₁, _, h₂, _, h₃, rfl⟩

variable {mic : Option Str}

/-- No line of the notification holds a line break. -/
theorem lf_notificationLines (hrecipient : IsMdnValue finalRecipient)
    (hid : IsMdnValue originalMessageId) (hdisposition : IsMdnValue disposition)
    (hmic : ∀ m ∈ mic, IsMdnValue m) :
    ∀ line ∈ notificationLines finalRecipient originalMessageId disposition mic, '\n' ∉ line := by
  have happend : ∀ {name value : Str}, '\n' ∉ name → '\n' ∉ value → '\n' ∉ name ++ value := by
    intro name value hname hvalue h
    exact (List.mem_append.mp h).elim hname hvalue
  intro line hline
  rw [notificationLines, List.mem_append] at hline
  obtain hline | hline := hline
  · simp only [List.mem_cons, List.not_mem_nil, or_false] at hline
    obtain rfl | rfl | rfl := hline
    · exact happend (by decide) hrecipient.lf
    · exact happend (by decide) hid.lf
    · exact happend (by decide) hdisposition.lf
  · obtain ⟨m, hm, rfl⟩ := List.mem_map.mp hline
    have hvalue := hmic m (Option.mem_toList.mp hm)
    rw [hvalue.trimmed]
    exact happend (by decide) hvalue.lf

/-- The fields of the notification are the values that were written. -/
theorem parseMdnFields_notificationPart (hrecipient : IsMdnValue finalRecipient)
    (hid : IsMdnValue originalMessageId) (hdisposition : IsMdnValue disposition)
    (hmic : ∀ m ∈ mic, IsMdnValue m) :
    parseMdnFields (notificationPart finalRecipient originalMessageId disposition mic) =
      .ok ⟨some (Str.lit "rfc822; " ++ finalRecipient), some originalMessageId, some disposition,
        mic⟩ := by
  have hlines : Str.lines (notificationPart finalRecipient originalMessageId disposition mic) =
      notificationLines finalRecipient originalMessageId disposition mic := by
    have h := lines_crlfLines (lf_notificationLines hrecipient hid hdisposition hmic) []
    rw [List.append_nil] at h
    rw [notificationPart, h]
    exact List.append_nil _
  have hscan := scan_notificationLines hrecipient hid hdisposition
  rw [parseMdnFields, hlines, Except.bind_eq_ok]
  cases mic with
  | none =>
    refine ⟨_, hscan, ?_⟩
    dsimp only
    rw [commit_disposition rfl rfl, hdisposition.trimmed]
    rfl
  | some m =>
    have hvalue := hmic m rfl
    have hmicName : IsFieldName (Str.lit "Received-Content-MIC") :=
      isFieldName_of_checks (by decide)
    have h₄ := scanMdnLine_field
      ⟨⟨some (Str.lit "rfc822; " ++ finalRecipient), some originalMessageId, none, none⟩,
        some (Str.lit "disposition"), disposition,
        [Str.lit "disposition", Str.lit "original-message-id", Str.lit "final-recipient"]⟩
      (rfl : Str.lit "Received-Content-MIC: " ++ m = _) hmicName
      (by decide : _ = Str.lit "received-content-mic") (by simp; decide) hvalue.trimmed hvalue.cr
    rw [commit_disposition rfl rfl, hdisposition.trimmed] at h₄
    have hsplit : notificationLines finalRecipient originalMessageId disposition (some m) =
        notificationLines finalRecipient originalMessageId disposition none ++
          [Str.lit "Received-Content-MIC: " ++ m] := by
      simp [notificationLines, hvalue.trimmed]
    simp only [hsplit, List.foldlM_append, List.foldlM_cons, List.foldlM_nil, Except.bind_eq_ok,
      Except.pure_eq_ok]
    refine ⟨_, ⟨_, hscan, _, h₄, rfl⟩, ?_⟩
    dsimp only
    rw [commit_receivedContentMic rfl rfl, hvalue.trimmed]

end

/-! ## Parts -/

/-- The lines before, between and after the delimiter lines. -/
def partsAt (delimiter : Str) : List Str → List (List Str)
  | [] => [[]]
  | line :: lines =>
    if delimiter.isPrefixOf line then [] :: partsAt delimiter lines
    else
      match partsAt delimiter lines with
      | [] => [[line]]
      | part :: parts => (line :: part) :: parts

/-- Lines that are no delimiters belong to one part. -/
theorem partsAt_append {delimiter : Str} {lines : List Str}
    (h : ∀ line ∈ lines, ¬ delimiter <+: line) (rest : List Str) :
    partsAt delimiter (lines ++ rest) =
      (lines ++ (partsAt delimiter rest).headD []) :: (partsAt delimiter rest).tail := by
  induction lines with
  | nil =>
    cases rest with
    | nil => rfl
    | cons line rest =>
      rw [List.nil_append, List.nil_append, partsAt]
      split
      · rfl
      · split
        · rfl
        · rfl
  | cons line lines ih =>
    rw [List.forall_mem_cons] at h
    rw [List.cons_append, partsAt, if_neg (mt List.isPrefixOf_iff_prefix.mp h.1), ih h.2]
    rfl

/-- A part begins at its delimiter. -/
theorem partsAt_delimiter {delimiter line : Str} (h : delimiter <+: line) (rest : List Str) :
    partsAt delimiter (line :: rest) = [] :: partsAt delimiter rest := by
  rw [partsAt, if_pos (List.isPrefixOf_iff_prefix.mpr h)]

/-- A header line is no delimiter: these begin with two dashes. -/
theorem not_startsWith_delimiter {c : Char} {line boundary : Str} (hc : c ≠ '-') :
    ¬ Str.lit "--" ++ boundary <+: c :: line := by
  intro h
  have hhead : '-' = c := (List.cons_prefix_cons.mp h).1
  exact hc hhead.symm

/-- The boundary of an MDN holds no line break. -/
theorem lf_mdnBoundary (originalMessageId : Str) :
    '\n' ∉ mdnBoundaryFromMessageId originalMessageId := by
  rw [mdnBoundaryFromMessageId, List.mem_append, not_or]
  refine ⟨by decide, fun h => ?_⟩
  have hlf := isAsciiAlphanumeric_hex16 h
  revert hlf
  decide

/-- The lines of a part are the ones that were written. -/
theorem partsAt_mdnReport {finalRecipient originalMessageId disposition text : Str}
    {mic : Option Str} (hrecipient : IsMdnValue finalRecipient)
    (hid : IsMdnValue originalMessageId) (hdisposition : IsMdnValue disposition)
    (hmic : ∀ m ∈ mic, IsMdnValue m) (htext : '\n' ∉ text)
    (hdash : ∀ c ∈ text.head?, c ≠ '-') :
    partsAt (Str.lit "--" ++ mdnBoundaryFromMessageId originalMessageId)
        (Str.lines (mdnReport finalRecipient originalMessageId disposition mic text)) =
      [[Str.lit "Content-Type: multipart/report; report-type=disposition-notification; boundary=" ++
          ['"'] ++ mdnBoundaryFromMessageId originalMessageId ++ ['"'],
        Str.lit "MIME-Version: 1.0", []],
      [Str.lit "Content-Type: text/plain; charset=us-ascii", [], text, []],
      [Str.lit "Content-Type: message/disposition-notification", []] ++
        notificationLines finalRecipient originalMessageId disposition mic ++ [[]],
      []] := by
  have hlf := lf_mdnBoundary originalMessageId
  have hbody := lf_notificationLines hrecipient hid hdisposition hmic
  -- a delimiter begins with a dash, a field line with the letter of its name
  have hbodyDelimiter : ∀ line ∈ notificationLines finalRecipient originalMessageId disposition mic,
      ¬ Str.lit "--" ++ mdnBoundaryFromMessageId originalMessageId <+: line := by
    intro line hline
    rw [notificationLines, List.mem_append] at hline
    obtain hline | hline := hline
    · simp only [List.mem_cons, List.not_mem_nil, or_false] at hline
      obtain rfl | rfl | rfl := hline
      · exact not_startsWith_delimiter (by decide : 'F' ≠ '-')
      · exact not_startsWith_delimiter (by decide : 'O' ≠ '-')
      · exact not_startsWith_delimiter (by decide : 'D' ≠ '-')
    · obtain ⟨m, -, rfl⟩ := List.mem_map.mp hline
      exact not_startsWith_delimiter (by decide : 'R' ≠ '-')
  have htextDelimiter : ¬ Str.lit "--" ++ mdnBoundaryFromMessageId originalMessageId <+: text := by
    cases text with
    | nil => simp [Str.lit, Str.written]
    | cons c text => exact not_startsWith_delimiter (hdash c rfl)
  have hclose : Str.lit "--" ++ mdnBoundaryFromMessageId originalMessageId <+:
      Str.lit "--" ++ mdnBoundaryFromMessageId originalMessageId ++ Str.lit "--" :=
    List.prefix_append _ _
  rw [mdnReport]
  generalize mdnBoundaryFromMessageId originalMessageId = boundary at *
  have hempty : ¬ Str.lit "--" ++ boundary <+: [] := by simp [Str.lit, Str.written]
  have hlast : ∀ line ∈ [[], Str.lit "--" ++ boundary ++ Str.lit "--"], '\n' ∉ line := by
    simp only [List.forall_mem_cons, List.mem_append, not_or]
    exact ⟨List.not_mem_nil, ⟨⟨by decide, hlf⟩, by decide⟩, List.forall_mem_nil _⟩
  have hclosing : Str.lines (crlfLines [[], Str.lit "--" ++ boundary ++ Str.lit "--"]) =
      [[], Str.lit "--" ++ boundary ++ Str.lit "--"] := by
    have h := lines_crlfLines hlast []
    rw [List.append_nil] at h
    exact h
  rw [lines_crlfLines, notificationPart, lines_crlfLines hbody, hclosing]
  · change partsAt _ ([_, _, []] ++ ((Str.lit "--" ++ boundary) :: ([_, [], text, []] ++
      ((Str.lit "--" ++ boundary) :: ([_, []] ++ (_ ++ ([[]] ++ [_]))))))) = _
    rw [partsAt_append, partsAt_delimiter List.prefix_rfl, partsAt_append,
      partsAt_delimiter List.prefix_rfl, ← List.append_assoc, ← List.append_assoc, partsAt_append,
      partsAt_delimiter hclose]
    · simp only [partsAt, List.headD_cons, List.tail_cons, List.append_nil]
    · simp only [List.forall_mem_append, List.forall_mem_cons]
      exact ⟨⟨⟨not_startsWith_delimiter (by decide : 'C' ≠ '-'), hempty, List.forall_mem_nil _⟩,
        hbodyDelimiter⟩, hempty, List.forall_mem_nil _⟩
    · simp only [List.forall_mem_cons]
      exact ⟨not_startsWith_delimiter (by decide : 'C' ≠ '-'), hempty, htextDelimiter, hempty,
        List.forall_mem_nil _⟩
    · simp only [List.forall_mem_cons]
      exact ⟨not_startsWith_delimiter (by decide : 'C' ≠ '-'),
        not_startsWith_delimiter (by decide : 'M' ≠ '-'), hempty, List.forall_mem_nil _⟩
  · simp only [List.forall_mem_cons, List.mem_append, not_or]
    exact ⟨⟨⟨⟨by decide, by decide⟩, hlf⟩, by decide⟩, by decide, List.not_mem_nil,
      ⟨by decide, hlf⟩, by decide, List.not_mem_nil, htext, List.not_mem_nil, ⟨by decide, hlf⟩,
      by decide, List.not_mem_nil, List.forall_mem_nil _⟩

/-! ## Generated MDNs -/

/-- A value without line breaks and NUL passes the check. -/
theorem checkMdnValue_ok {session : SessionContext} {field value : Str}
    (h : ∀ c ∈ value, c ≠ '\r' ∧ c ≠ '\n' ∧ c ≠ '\x00') :
    checkMdnValue session (field, value) = .ok () := by
  rw [checkMdnValue, Except.rejectIf_eq_ok, Bool.not_eq_true, List.any_eq_false]
  intro b hb hbad
  simp only [Bool.or_eq_true, beq_iff_eq] at hbad
  have hsmall : b.toNat < 0x80 := by
    obtain (rfl | rfl) | rfl := hbad <;> decide
  obtain ⟨c, hc, heq⟩ := Str.exists_of_mem_utf8 hb hsmall
  obtain ⟨hcr, hlf, hnul⟩ := h c hc
  obtain (rfl | rfl) | rfl := hbad
  · exact hcr (Char.ext (UInt32.toNat.inj heq))
  · exact hlf (Char.ext (UInt32.toNat.inj heq))
  · exact hnul (Char.ext (UInt32.toNat.inj heq))

/-- A MIC matches itself. -/
theorem micValuesMatch_self (mic : Str) : micValuesMatch mic mic = true := by
  have hdigest : ∀ digest, micDigestsMatch digest digest = true := by
    intro digest
    unfold micDigestsMatch
    dsimp only
    split
    · simp_all
    · simp
  unfold micValuesMatch
  dsimp only
  rw [hdigest, Bool.true_and]
  split
  · simp_all [Str.eqIgnoreAsciiCase]
  · rfl

/-- What reading back a report gives. -/
structure MdnReadBack (finalRecipient originalMessageId disposition : Str) (mic : Option Str)
    (text report : Str) : Prop where
  parts : partsAt (Str.lit "--" ++ mdnBoundaryFromMessageId originalMessageId) (Str.lines report) =
    [[Str.lit "Content-Type: multipart/report; report-type=disposition-notification; boundary=" ++
        ['"'] ++ mdnBoundaryFromMessageId originalMessageId ++ ['"'],
      Str.lit "MIME-Version: 1.0", []],
    [Str.lit "Content-Type: text/plain; charset=us-ascii", [], text, []],
    [Str.lit "Content-Type: message/disposition-notification", []] ++
      notificationLines finalRecipient originalMessageId disposition mic ++ [[]],
    []]
  fields : parseMdnFields (notificationPart finalRecipient originalMessageId disposition mic) =
    .ok ⟨some (Str.lit "rfc822; " ++ finalRecipient), some originalMessageId, some disposition, mic⟩
  mic : ∀ m ∈ mic, micValuesMatch m m = true

/-- A generated MDN has the two parts and the fields that were written; the final recipient is
    read with its address type. -/
theorem generateMdn_roundTrip (session : SessionContext) (originalMessageId disposition : Str)
    (mic : Option Str) (hrecipient : IsMdnValue session.partnerId)
    (hid : IsMdnValue originalMessageId) (hdisposition : IsMdnValue disposition)
    (hmic : ∀ m ∈ mic, IsMdnValue m) :
    ∃ report, generateMdn session originalMessageId disposition mic = .ok (Str.utf8 report) ∧
      MdnReadBack session.partnerId originalMessageId disposition mic mdnText report := by
  refine ⟨mdnReport session.partnerId originalMessageId disposition mic mdnText, ?_, ?_, ?_, ?_⟩
  · have hmicClean : ∀ c ∈ mic.getD [], c ≠ '\r' ∧ c ≠ '\n' ∧ c ≠ '\x00' := by
      cases mic with
      | none => simp
      | some m => exact (hmic m rfl).clean
    simp only [generateMdn, Except.bind_eq_ok, Except.rejectIf_eq_ok, Except.pure_eq_ok,
      Except.forM_eq_ok, List.forall_mem_cons, hid.trimmed, hdisposition.trimmed,
      checkMdnValue_ok hid.clean, checkMdnValue_ok hdisposition.clean,
      checkMdnValue_ok hmicClean, checkMdnValue_ok hrecipient.clean]
    exact ⟨(), hid.nonempty, (), hdisposition.nonempty, (), by simp, trivial⟩
  · refine partsAt_mdnReport hrecipient hid hdisposition hmic (by decide) fun c hc => ?_
    obtain rfl : 'T' = c := Option.some.inj hc
    decide
  · exact parseMdnFields_notificationPart hrecipient hid hdisposition hmic
  · exact fun m _ => micValuesMatch_self m

/-- A session with the partner `bob`. -/
def bobSession : SessionContext := ⟨"session", "bob", true⟩

theorem isMdnValue_of_checks {value : Str} (h : (Str.trim value = value ∧ value ≠ []) ∧
    value.all (fun c => c ≠ '\r' ∧ c ≠ '\n' ∧ c ≠ '\x00') = true) : IsMdnValue value where
  trimmed := h.1.1
  nonempty := h.1.2
  clean := by simpa using h.2

/-- The MDN of a message, with a MIC. -/
theorem generateMdn_bob :
    ∃ report, generateMdn bobSession (.lit "<m@x>") (.lit "a; processed")
        (some (.lit "aGk=, sha-256")) = .ok (Str.utf8 report) ∧
      MdnReadBack (.lit "bob") (.lit "<m@x>") (.lit "a; processed") (some (.lit "aGk=, sha-256"))
        mdnText report := by
  refine generateMdn_roundTrip bobSession (.lit "<m@x>") (.lit "a; processed")
    (some (.lit "aGk=, sha-256")) (isMdnValue_of_checks (by decide))
    (isMdnValue_of_checks (by decide)) (isMdnValue_of_checks (by decide)) ?_
  rintro m ⟨⟩
  exact isMdnValue_of_checks (by decide)

/-- The recipient `bob` is not read back as `bob`. -/
theorem generateMdn_bob_recipient :
    IsMdnValue (.lit "bob") ∧ ∃ fields,
      parseMdnFields (notificationPart (.lit "bob") (.lit "<m@x>") (.lit "a; processed") none) =
        .ok fields ∧
      fields.finalRecipient = some (.lit "rfc822; bob") ∧
      fields.finalRecipient ≠ some (.lit "bob") := by
  refine ⟨isMdnValue_of_checks (by decide), ⟨some (.lit "rfc822; bob"), some (.lit "<m@x>"),
    some (.lit "a; processed"), none⟩, ?_, rfl, by decide⟩
  decide +kernel

end Asx
