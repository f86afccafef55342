import Asx.Native.Mdn

/-!
# The fields of a notification

A notification is a block of header fields. A line that begins with a blank or a tab continues
the field before it, so the fields are those of the logical lines, each a physical line with
the lines that continue it. `parse_mdn_fields` walks the physical lines and keeps the field
that is still open.

## Key results
- `scanMdnLines_fields`: the loop adds the fields of the lines that it still has to read
- `parseMdnFields_eq`: each member of `MdnFields` is the value of the field of its name
- `parseMdnWithSigner_ok`: which entity the fields of an MDN are read from
-/

namespace Asx

/-! ## Logical lines -/

/-- A line that continues the field before it. -/
def isContinuation (line : Str) : Bool := [' '].isPrefixOf line || ['\t'].isPrefixOf line

/-- The lines of a text that are not empty, without the carriage returns at their ends. -/
def contentLines (text : List Str) : List Str :=
  (text.map (Str.trimEndChar '\r')).filter (· ≠ [])

/-- The logical lines, each with its continuations, after the continuations that stand in
    front of the first of them. -/
def logicalLines : List Str → List Str × List (Str × List Str)
  | [] => ([], [])
  | line :: rest =>
    let (continued, logical) := logicalLines rest
    if isContinuation line then (line :: continued, logical) else ([], (line, continued) :: logical)

/-- The value of a field: what stands after its name, and a blank and each continuation. No
    blank stands before the first piece that is not empty. -/
def unfoldedValue (value : Str) (continued : List Str) : Str :=
  continued.foldl (fun v line => (if v = [] then [] else v ++ [' ']) ++ Str.trim line) value

/-- The field of a logical line: its name in lower case and its value. -/
def logicalField (line : Str × List Str) : Option (Str × Str) :=
  (Str.splitOnce ':' line.1).map fun field =>
    (Str.toAsciiLowercase (Str.trim field.1),
      Str.trim (unfoldedValue (Str.trim field.2) line.2))

/-- The fields of a notification. -/
def notificationFields (text : Str) : List (Str × Str) :=
  (logicalLines (contentLines (Str.lines text))).2.filterMap logicalField

example : notificationFields (Str.lit "Disposition:\r\n a; processed\r\nOriginal-Message-ID: <m@s>") =
    [(Str.lit "disposition", Str.lit "a; processed"),
      (Str.lit "original-message-id", Str.lit "<m@s>")] := by decide +kernel

/-! ## The scan -/

/-- What a scan has of a field list: for each member the value of the first field with its
    name, unless the member is there already. -/
def MdnFields.orFields (f : MdnFields) (fields : List (Str × Str)) : MdnFields where
  finalRecipient := f.finalRecipient <|> fields.lookup "final-recipient".toList
  originalMessageId := f.originalMessageId <|> fields.lookup "original-message-id".toList
  disposition := f.disposition <|> fields.lookup "disposition".toList
  receivedContentMic := f.receivedContentMic <|> fields.lookup "received-content-mic".toList

theorem MdnFields.orFields_nil (f : MdnFields) : f.orFields [] = f := by
  simp [MdnFields.orFields]

theorem or_lookup_cons (member : Option Str) (name key value : Str) (fields : List (Str × Str)) :
    ((if key = name then member <|> some value else member) <|> fields.lookup name) =
      (member <|> List.lookup name ((key, value) :: fields)) := by
  by_cases h : key = name
  · rw [if_pos h, h, List.lookup_cons, beq_self_eq_true]
    cases member <;> rfl
  · rw [if_neg h, List.lookup_cons, beq_false_of_ne (Ne.symm h)]

/-- A field goes to the member of its name, if that has no value yet. -/
theorem MdnFields.commit_eq (f : MdnFields) (key value : Str) :
    f.commit (some key) value =
      { finalRecipient := if key = "final-recipient".toList then
          f.finalRecipient <|> some (Str.trim value) else f.finalRecipient
        originalMessageId := if key = "original-message-id".toList then
          f.originalMessageId <|> some (Str.trim value) else f.originalMessageId
        disposition := if key = "disposition".toList then
          f.disposition <|> some (Str.trim value) else f.disposition
        receivedContentMic := if key = "received-content-mic".toList then
          f.receivedContentMic <|> some (Str.trim value) else f.receivedContentMic } := by
  obtain ⟨recipient, id, disposition, mic⟩ := f
  unfold MdnFields.commit
  by_cases h₁ : key = "final-recipient".toList
  · subst h₁
    cases recipient <;> simp
  by_cases h₂ : key = "original-message-id".toList
  · subst h₂
    cases id <;> simp
  by_cases h₃ : key = "disposition".toList
  · subst h₃
    cases disposition <;> simp
  by_cases h₄ : key = "received-content-mic".toList
  · subst h₄
    cases mic <;> simp
  simp only [h₁, h₂, h₃, h₄, false_and, if_false]

/-- Committing a field adds it in front of the fields that follow. -/
theorem MdnFields.orFields_commit (f : MdnFields) (key value : Str) (fields : List (Str × Str)) :
    (f.commit (some key) value).orFields fields =
      f.orFields ((key, Str.trim value) :: fields) := by
  rw [MdnFields.commit_eq]
  unfold MdnFields.orFields
  dsimp only
  rw [or_lookup_cons, or_lookup_cons, or_lookup_cons, or_lookup_cons]

/-- The field that is still open in a scan, with the lines that continue it. -/
def MdnScan.openField (st : MdnScan) (continued : List Str) : List (Str × Str) :=
  (st.currentKey.map fun key =>
    (key, Str.trim (unfoldedValue st.currentValue continued))).toList

/-- The fields of a scan once its open field is closed. -/
theorem MdnScan.orFields_commit (st : MdnScan) (fields : List (Str × Str)) :
    (st.fields.commit st.currentKey st.currentValue).orFields fields =
      st.fields.orFields (st.openField [] ++ fields) := by
  unfold MdnScan.openField
  cases hkey : st.currentKey with
  | none => rfl
  | some key =>
    rw [MdnFields.orFields_commit]
    rfl

theorem contentLines_cons (raw : Str) (lines : List Str) :
    contentLines (raw :: lines) =
      if Str.trimEndChar '\r' raw = [] then contentLines lines
      else Str.trimEndChar '\r' raw :: contentLines lines := by
  unfold contentLines
  rw [List.map_cons, List.filter_cons]
  by_cases h : Str.trimEndChar '\r' raw = [] <;> simp [h]

/-- The scan of the lines that are left: the open field takes the lines that continue it, and
    the fields of the logical lines follow. -/
theorem scanMdnLines_fields {lines : List Str} {st st' : MdnScan}
    (h : lines.foldlM scanMdnLine st = .ok st') :
    st'.fields.commit st'.currentKey st'.currentValue =
      st.fields.orFields (st.openField (logicalLines (contentLines lines)).1 ++
        (logicalLines (contentLines lines)).2.filterMap logicalField) := by
  induction lines generalizing st with
  | nil =>
    rw [List.foldlM_nil, Except.pure_eq_ok] at h
    subst h
    show _ = st.fields.orFields (st.openField [] ++ [])
    rw [← MdnScan.orFields_commit, MdnFields.orFields_nil]
  | cons raw lines ih =>
    rw [List.foldlM_cons, Except.bind_eq_ok] at h
    obtain ⟨next, hstep, hrest⟩ := h
    rw [ih hrest, contentLines_cons]
    unfold scanMdnLine at hstep
    dsimp only at hstep
    generalize Str.trimEndChar '\r' raw = line at hstep ⊢
    by_cases hempty : line = []
    · -- an empty line is passed over
      rw [if_pos hempty, Except.ok.injEq] at hstep
      rw [if_pos hempty, hstep]
    rw [if_neg hempty] at hstep ⊢
    by_cases hcontinued : isContinuation line
    · -- a continuation goes to the open field
      have hcond : [' '].isPrefixOf line ∨ ['\t'].isPrefixOf line := by
        simpa [isContinuation] using hcontinued
      rw [if_pos hcond, Except.ok.injEq] at hstep
      subst hstep
      simp only [logicalLines, hcontinued, if_true]
      rfl
    · -- any other line closes the open field and may open one
      have hcond : ¬ ([' '].isPrefixOf line ∨ ['\t'].isPrefixOf line) := by
        simpa [isContinuation] using hcontinued
      rw [if_neg hcond] at hstep
      simp only [logicalLines, hcontinued, if_false, Bool.false_eq_true, List.filterMap_cons]
      cases honce : Str.splitOnce ':' line with
      | none =>
        rw [honce, Except.ok.injEq] at hstep
        subst hstep
        have hfield : logicalField (line, (logicalLines (contentLines lines)).1) = none := by
          rw [logicalField, honce, Option.map_none]
        rw [hfield]
        exact MdnScan.orFields_commit st _
      | some field =>
        obtain ⟨key, value⟩ := field
        rw [honce] at hstep
        dsimp only at hstep
        split at hstep
        · cases hstep
        rw [Except.ok.injEq] at hstep
        subst hstep
        have hfield : logicalField (line, (logicalLines (contentLines lines)).1) =
            some (Str.toAsciiLowercase (Str.trim key),
              Str.trim (unfoldedValue (Str.trim value) (logicalLines (contentLines lines)).1)) := by
          rw [logicalField, honce, Option.map_some]
        rw [hfield]
        exact MdnScan.orFields_commit st _

/-- Each member is the value of the first field of its name. -/
theorem parseMdnFields_eq {text : Str} {f : MdnFields} (h : parseMdnFields text = .ok f) :
    f = (⟨none, none, none, none⟩ : MdnFields).orFields (notificationFields text) := by
  simp only [parseMdnFields, Except.bind_eq_ok, Except.pure_eq_ok] at h
  obtain ⟨st, hscan, rfl⟩ := h
  exact scanMdnLines_fields hscan

/-! ## The notification -/

/-- The octets that carry the fields: those of the entity if it is a notification, of its second
    part if it is a report, and all octets of a report without parts. -/
inductive NotificationOctets (mail : ParsedMail) (whole : Bytes) : Bytes → Prop
  | entity {octets : Bytes} (hself : isNotification mail = true) (hbody : mail.body = some octets) :
    NotificationOctets mail whole octets
  | report {part : ParsedMail} {octets : Bytes} (hreport : isReportMdn mail = true)
    (hpart : mail.subparts[1]? = some part) (hnotification : isNotification part = true)
    (honly : (mail.subparts.filter isNotification).length = 1) (hbody : part.body = some octets) :
    NotificationOctets mail whole octets
  | noParts (hreport : isReportMdn mail = true) (hempty : mail.subparts = []) :
    NotificationOctets mail whole whole

/-- The fields of an MDN are those of the notification in an entity. -/
structure ReadFromEntity (lib : MdnLibrary) (entity : Bytes) (parsed : ParsedMdn) : Prop where
  fields : ∃ mail octets text, lib.parseMail entity = some mail ∧
    NotificationOctets mail entity octets ∧ Str.fromUtf8 octets = some text ∧
    parsed.finalRecipient = (notificationFields text).lookup "final-recipient".toList ∧
    parsed.originalMessageId = (notificationFields text).lookup "original-message-id".toList ∧
    some parsed.disposition = (notificationFields text).lookup "disposition".toList ∧
    parsed.receivedContentMic = (notificationFields text).lookup "received-content-mic".toList

/-- What `resolve_signed_content_notification_part` and `report_notification_part` find. -/
theorem reportNotificationPart_ok {session : SessionContext} {report : ParsedMail}
    {part : Option ParsedMail} (h : reportNotificationPart session report = .ok part) :
    (part = none ∧ report.subparts = []) ∨
      ∃ found, part = some found ∧ report.subparts[1]? = some found ∧
        isNotification found = true ∧ (report.subparts.filter isNotification).length = 1 := by
  unfold reportNotificationPart at h
  dsimp only at h
  split at h
  · rename_i hempty
    rw [Except.ok.injEq] at h
    exact .inl ⟨h.symm, List.isEmpty_iff.mp hempty⟩
  split at h
  · cases h
  split at h
  · cases h
  rename_i hmany
  split at h
  · rename_i found hfound
    rw [Except.ok.injEq] at h
    obtain ⟨hpart, hnotification⟩ := Option.filter_eq_some_iff.mp hfound
    refine .inr ⟨found, h.symm, hpart, hnotification, ?_⟩
    have hmem : found ∈ report.subparts.filter isNotification :=
      List.mem_filter.mpr ⟨List.mem_of_getElem? hpart, hnotification⟩
    have hpos := List.length_pos_of_mem hmem
    omega
  · cases h

/-- The octets that `mdnFields` reads, for a part that was found in an entity. -/
theorem notificationOctets_of_report {session : SessionContext} {mail : ParsedMail} {whole : Bytes}
    {part : Option ParsedMail} {octets : Bytes} (hreport : isReportMdn mail = true)
    (h : reportNotificationPart session mail = .ok part)
    (hoctets : (part.elim (some whole) ParsedMail.body) = some octets) :
    NotificationOctets mail whole octets := by
  rcases reportNotificationPart_ok h with ⟨rfl, hempty⟩ | ⟨found, rfl, hpart, hnotification, honly⟩
  · rw [Option.elim_none, Option.some.injEq] at hoctets
    subst hoctets
    exact .noParts hreport hempty
  · exact .report hreport hpart hnotification honly hoctets

theorem notificationOctets_of_signedContent {session : SessionContext} {mail : ParsedMail}
    {whole : Bytes} {part : Option ParsedMail} {octets : Bytes}
    (h : resolveSignedContentNotificationPart session mail = .ok part)
    (hoctets : (part.elim (some whole) ParsedMail.body) = some octets) :
    NotificationOctets mail whole octets := by
  unfold resolveSignedContentNotificationPart at h
  split at h
  · rename_i hself
    rw [Except.ok.injEq] at h
    subst h
    exact .entity hself hoctets
  split at h
  · rename_i hreport
    exact notificationOctets_of_report hreport h hoctets
  · cases h

/-- What `mdnFields` reads: the octets of the part, or the whole entity if there is none. -/
theorem mdnFields_ok {session : SessionContext} {raw : Bytes}
    {verified : Option VerifiedSmimeEntity} {part : Option ParsedMail} {f : MdnFields}
    (h : mdnFields session raw verified part = .ok f) :
    ∃ octets text,
      part.elim (some ((verified.map VerifiedSmimeEntity.entity).getD raw)) ParsedMail.body =
        some octets ∧
      Str.fromUtf8 octets = some text ∧
      f = (⟨none, none, none, none⟩ : MdnFields).orFields (notificationFields text) := by
  unfold mdnFields at h
  cases part with
  | none =>
    simp only [parseMdnFieldsFromBytes, Except.bind_eq_ok, Except.okOr_eq_ok] at h
    obtain ⟨text, htext, hfields⟩ := h
    exact ⟨_, text, rfl, htext, parseMdnFields_eq hfields⟩
  | some part =>
    simp only [parseMdnFieldsFromBytes, Except.bind_eq_ok, Except.okOr_eq_ok] at h
    obtain ⟨body, hbody, text, htext, hfields⟩ := h
    exact ⟨body, text, hbody, htext, parseMdnFields_eq hfields⟩

/-- What `parse_mdn_with_signer` returns: the fields of the notification in the verified entity if
    the MDN is signed and the verifier returns one, and otherwise in the report that was received. -/
theorem parseMdnWithSigner_ok {lib : MdnLibrary} {session : SessionContext} {body : Bytes}
    {requireSigned : Bool} {parsed : ParsedMdn} {signerDer : Option Bytes}
    {signerPath : List Bytes}
    (h : parseMdnWithSigner lib session body requireSigned = .ok (parsed, signerDer, signerPath)) :
    (parsed.isSigned = true → ∃ verified, lib.verifyAndDecrypt body = .ok verified ∧
        signerDer = verified.bind VerifiedSmimeEntity.signerDer ∧
        ∀ entity, verified = some entity → ReadFromEntity lib entity.entity parsed) ∧
      (parsed.isSigned = false → requireSigned = false ∧ ReadFromEntity lib body parsed) := by
  simp only [parseMdnWithSigner, Except.bind_eq_ok, Except.rejectIf_eq_ok, Except.pure_eq_ok,
    Except.okOr_eq_ok, Prod.mk.injEq] at h
  obtain ⟨_, -, _, -, mail, hmail, _, hrequire, verified, hverified, part, hpart, _, hreport, _, -,
    fields, hfields, disposition, hdisposition, _, -, _, -, rfl, rfl, -⟩ := h
  obtain ⟨octets, text, hoctets, htext, rfl⟩ := mdnFields_ok hfields
  dsimp only
  constructor
  · intro hsigned
    rw [verifiedMdnEntity, if_pos hsigned, Except.mapError_eq_ok] at hverified
    refine ⟨verified, hverified, rfl, fun entity hentity => ?_⟩
    subst hentity
    simp only [mdnNotification, Except.bind_eq_ok, Except.okOr_eq_ok] at hpart
    obtain ⟨entityMail, hentityMail, _, -, hresolve⟩ := hpart
    exact ⟨entityMail, octets, text, hentityMail,
      notificationOctets_of_signedContent hresolve hoctets, htext, rfl, rfl, hdisposition.symm, rfl⟩
  · intro hunsigned
    have hnotRequired : requireSigned = false := by
      by_contra hnot
      exact hrequire ⟨by simpa using hnot, hunsigned⟩
    rw [verifiedMdnEntity, if_neg (by simp [hunsigned]), Except.ok.injEq] at hverified
    subst hverified
    simp only [mdnNotification, resolveMdnNotificationPart, hunsigned, Bool.false_eq_true,
      if_false] at hpart
    refine ⟨hnotRequired, mail, octets, text, hmail, ?_, htext, rfl, rfl, hdisposition.symm, rfl⟩
    by_cases hisReport : isReportMdn mail
    · rw [if_pos hisReport] at hpart
      exact notificationOctets_of_report hisReport hpart hoctets
    · -- an unsigned message that is no report is refused
      rw [if_neg hisReport, Except.ok.injEq] at hpart
      subst hpart
      exact absurd ⟨rfl, hunsigned, by simpa using hisReport⟩ hreport

end Asx
