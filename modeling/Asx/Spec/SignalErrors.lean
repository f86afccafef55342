import Asx.Spec.SignalRoundTrip

/-!
# Error signals on the wire

An error signal is read as its message info and one error with the fields that were written. The
writer names the message that failed twice, in `eb:RefToMessageId` and in the attribute
`refToMessageInError`; the reader takes the first and knows the other only as `refToMessageId`.

Key results:
- `parse_error`: the envelope of any error is read as its message info and that error
- `error_signal_read_back`: what `error_signal` writes
- `generated_error_read_back`: what `generate_error_signal` writes
-/

namespace Asx

open Xml XmlCall

/-- The `eb:Description` of an error, as it is written. -/
def descriptionMarkup (description : Str) : Markup :=
  .element (ebName (.lit "Description")) [⟨⟨.lit "xml", .lit "lang"⟩, .lit "en"⟩] [.text description]

/-- `eb:Error` with these attributes. -/
def errorMarkup (items : List Attr) (description : Str) (detail : Option Str) : Markup :=
  .element (ebName (.lit "Error")) items
    (descriptionMarkup description :: detail.toList.map (ebLeaf (.lit "ErrorDetail")))

/-- What the reader takes from an error. -/
def errorAsRead (items : List Attr) (description : Str) (detail : Option Str) : As4ReceivedError :=
  let value := fun (name : Str) => ((items.find? fun a => a.name.loc = name).map Attr.value).bind nonBlank
  { errorCode := (value "errorCode").getD "unknown"
    severity := value "severity"
    category := value "category"
    origin := value "origin"
    refToMessageId := value "refToMessageId"
    shortDescription := value "shortDescription"
    description := nonBlank description
    errorDetail := detail.bind nonBlank }

section

variable {ρ : Str → Option Str} (heb : ρ (.lit "eb") = some Ns.ebms3) (items : List Attr)
  (description : Str) (detail : Option Str)

theorem undeclaring_description : Undeclaring (descriptionMarkup description).tree := by
  rw [descriptionMarkup, Markup.tree]
  cases description with
  | nil => exact ⟨rfl, trivial⟩
  | cons c cs => exact ⟨rfl, trivial, trivial⟩

theorem treeList_error : Markup.treeList
    (descriptionMarkup description :: detail.toList.map (ebLeaf (.lit "ErrorDetail"))) =
      (descriptionMarkup description).tree ::
        detail.toList.map fun d => (ebLeaf (.lit "ErrorDetail") d).tree := by
  have helements : ∀ v, ∃ q items ms, ebLeaf (.lit "ErrorDetail") v = .element q items ms :=
    fun v => ⟨_, _, _, rfl⟩
  rw [descriptionMarkup, treeList_element, treeList_map helements]

theorem undeclaring_error (hitems : declsOf items = []) :
    Undeclaring (errorMarkup items description detail).tree := by
  rw [errorMarkup, Markup.tree, treeList_error]
  exact ⟨hitems, undeclaring_description _, undeclaringList_map fun d => undeclaring_ebLeaf _ d⟩

include heb

theorem named_error (loc : Str) :
    named ρ Ns.ebms3 loc (errorMarkup items description detail).tree =
      (if .lit "Error" = loc then [(errorMarkup items description detail).tree] else []) ++
        ((if .lit "Description" = loc then [(descriptionMarkup description).tree] else []) ++
        if .lit "ErrorDetail" = loc then
          detail.toList.map fun d => (ebLeaf (.lit "ErrorDetail") d).tree
        else []) := by
  have hdescription : named ρ Ns.ebms3 loc (descriptionMarkup description).tree =
      if .lit "Description" = loc then [(descriptionMarkup description).tree] else [] := by
    rw [descriptionMarkup, named_eb heb]
    cases description <;> exact List.append_nil _
  rw [errorMarkup, named_eb heb, treeList_error, namedList, hdescription]
  cases detail with
  | none => simp only [Option.toList_none, List.map_nil, namedList, ite_self]
  | some d =>
    simp only [Option.toList_some, List.map_cons, List.map_nil, namedList, named_ebLeaf heb,
      List.append_nil]

/-- An error is read as it was written. -/
theorem readError_eq {n : Node} (hn : Settled ρ n) (hitems : attrsOf items = items)
    (htree : n.tree = (errorMarkup items description detail).tree) :
    readError n = errorAsRead items description detail := by
  have hattribute : ∀ name, signalAttribute n name =
      ((items.find? fun a => a.name.loc = name).map Attr.value).bind nonBlank := by
    intro name
    have hfound : n.attribute? name = (items.find? fun a => a.name.loc = name).map Attr.value := by
      rw [Node.attribute?, htree, errorMarkup, Markup.tree, Tree.attrs, hitems]
    cases hvalue : n.attribute? name with
    | none => rw [signalAttribute_none hvalue, ← hfound, hvalue]; rfl
    | some v => rw [signalAttribute_eq hvalue, ← hfound, hvalue]; rfl
  -- the two children that are read
  have hchild : ∀ (loc : Str) (value : Option Str),
      ((named ρ Ns.ebms3 loc (errorMarkup items description detail).tree).head?.map
        fun t => (texts t).flatten) = value →
      (n.descendants.find? (isEb · loc)).bind elementText = value.bind nonBlank := by
    intro loc value h
    have hfound := hn.find? Ns.ebms3 loc
    rw [htree] at hfound
    rw [← hfound] at h
    cases hnode : n.descendants.find? (isEb · loc) with
    | none =>
      have hnode : n.descendants.find? (·.hasTagName Ns.ebms3 loc) = none := hnode
      rw [hnode] at h
      rw [← h]
      rfl
    | some m =>
      have hnode : n.descendants.find? (·.hasTagName Ns.ebms3 loc) = some m := hnode
      rw [hnode] at h
      rw [← h, Option.bind_some, elementText_eq]
      rfl
  have hdescription := hchild "Description" (some description) (by
    rw [named_error heb]
    simp [lit_eq_toList, descriptionMarkup, flatten_texts_leaf])
  have hdetail := hchild "ErrorDetail" detail (by
    rw [named_error heb]
    cases detail <;> simp [lit_eq_toList, ebLeaf, flatten_texts_leaf])
  simp only [readError, hdescription, hdetail, hattribute]
  rfl

end

/-- The envelope of an error is read as its message info and that error. -/
theorem parse_error {spec : SignalEnvelope} (h : spec.Sound)
    (hother : ∀ n ∈ spec.namespaces, n.2 ≠ Ns.ebms3) {items : List Attr}
    (hdecls : declsOf items = []) (hitems : attrsOf items = items) (description : Str)
    (detail : Option Str) {doc : Document}
    (hdoc : doc.children = [(spec.envelope [] [errorMarkup items description detail]).tree])
    (session : SessionContext) (stage : Str) :
    parseAs4SignalEnvelope doc session stage = .ok
      { hasSignalMessage := true
        hasSignature := doc.descendants.any (isDsElement · "Signature")
        messageId := nonBlank spec.messageId
        refToMessageId := spec.refToMessageId.bind nonBlank
        timestamp := nonBlank spec.timestamp
        errors := [errorAsRead items description detail] } := by
  have heb := spec.means_eb
  have hnamed := named_error heb items description detail
  have hbodyList : Markup.treeList [errorMarkup items description detail] =
      [(errorMarkup items description detail).tree] := by
    rw [errorMarkup, treeList_element, treeList_nil]
  have hbody : BodyReads spec.means [errorMarkup items description detail] := by
    refine ⟨?_, ?_, ?_, ?_⟩
    · rw [hbodyList]
      exact ⟨undeclaring_error items description detail hdecls, trivial⟩
    · rw [hbodyList, namedList, namedList, hnamed]
      simp [lit_eq_toList]
    · rw [hbodyList, namedList, namedList, hnamed]
      simp [lit_eq_toList]
    · rw [hbodyList, namedList, namedList, hnamed]
      simp [lit_eq_toList]
  have hsecurity : ForeignList (.lit "eb") Ns.ebms3 (Markup.treeList []) := trivial
  obtain ⟨signal, htree, hsettled, hparse⟩ := SignalEnvelope.parse_frame h hother hsecurity hbody
    hdoc session stage
  have hsignal : ∀ loc, named spec.means Ns.ebms3 loc signal.tree =
      (if .lit "SignalMessage" = loc then [signal.tree] else []) ++
        (named spec.means Ns.ebms3 loc spec.messageInfo.tree ++
          named spec.means Ns.ebms3 loc (errorMarkup items description detail).tree) := by
    intro loc
    rw [htree, SignalEnvelope.signalMessage, named_eb heb, SignalEnvelope.messageInfo,
      treeList_element, namedList, hbodyList, namedList, namedList, List.append_nil]
  obtain ⟨error, hone, herrorTree, herror⟩ := hsettled.exists_of_named Ns.ebms3 "Error"
    (t := (errorMarkup items description detail).tree) (by
      rw [hsignal, spec.named_messageInfo heb, hnamed]
      simp [lit_eq_toList])
  have hreceipts : ebDescendants signal "Receipt" = [] := hsettled.eq_nil_of_named (by
    rw [hsignal, spec.named_messageInfo heb, hnamed]
    simp [lit_eq_toList])
  have herrors : ebDescendants signal "Error" = [error] := hone
  rw [hparse, hreceipts, herrors]
  have hread := readError_eq heb items description detail herror hitems herrorTree
  have htake : [error].take maxSignalErrors = [error] := rfl
  rw [htake, List.map_singleton, hread]
  rfl

/-! ## Errors as they are written -/

theorem writes_description (description : Str) :
    Writes (writeDescription description) [descriptionMarkup description] :=
  fun _ _ _ _ _ => rfl

theorem givenOnce_error {items : List Attr} (hdecls : declsOf items = [])
    (honce : ((attrsOf items).map fun a => a.name.loc).Nodup) (description : Str)
    (detail : Option Str) : GivenOnce (errorMarkup items description detail) := by
  have hempty : (declaredBy []).Nodup ∧ ((attrsOf []).map fun a => a.name.loc).Nodup :=
    ⟨List.nodup_nil, List.nodup_nil⟩
  refine ⟨⟨by rw [declaredBy, hdecls]; exact List.nodup_nil, honce⟩,
    ⟨⟨List.nodup_nil, List.nodup_singleton _⟩, trivial, trivial⟩, ?_⟩
  exact givenOnceList_map fun d => ⟨hempty, trivial, trivial⟩

/-- Errors in an envelope without further namespaces: the text parses, and one error is read. -/
theorem parse_writtenError {spec : SignalEnvelope} (hplain : spec.namespaces = [])
    (hreserve : spec.reserveSecurity = false) {calls : List XmlCall} {items : List Attr}
    {description : Str} {detail : Option Str}
    (hwrites : Writes calls [errorMarkup items description detail])
    (hlegal : calls.all legalCall = true) (hdecls : declsOf items = [])
    (hitems : attrsOf items = items) (honce : (items.map fun a => a.name.loc).Nodup)
    {written : XmlDoc × Option Nat} (hwrite : writeSignal spec calls = .ok written) {text : Str}
    (htext : written.1.intoString = .ok text) :
    ∃ doc, parse text = some doc ∧ ∀ reader stage, parseAs4SignalEnvelope doc reader stage = .ok
      { hasSignalMessage := true
        hasSignature := doc.descendants.any (isDsElement · "Signature")
        messageId := nonBlank spec.messageId
        refToMessageId := spec.refToMessageId.bind nonBlank
        timestamp := nonBlank spec.timestamp
        errors := [errorAsRead items description detail] } := by
  have hsound : spec.Sound := by
    refine ⟨by rw [hplain]; exact fun n hn => absurd hn List.not_mem_nil, ?_⟩
    rw [hplain]
    show [Str.lit "S12", .lit "eb"].Nodup
    decide
  have hother : ∀ n ∈ spec.namespaces, n.2 ≠ Ns.ebms3 := by
    rw [hplain]
    exact fun n hn => absurd hn List.not_mem_nil
  obtain ⟨text', ok, hstring, hparse⟩ := SignalEnvelope.parse_writeSignal hsound hwrites hlegal
    ⟨givenOnce_error hdecls (by rw [hitems]; exact honce) description detail, trivial⟩ hreserve
    hwrite
  rw [htext, Except.ok.injEq] at hstring
  subst hstring
  exact ⟨_, hparse, parse_error hsound hother hdecls hitems description detail rfl⟩

/-- The attributes that `error_signal` gives an error. -/
def errorItems (refToMessageId : Option Str) (code shortDescription category : Str) : List Attr :=
  [⟨⟨[], .lit "errorCode"⟩, code⟩, ⟨⟨[], .lit "severity"⟩, .lit "failure"⟩,
    ⟨⟨[], .lit "shortDescription"⟩, shortDescription⟩, ⟨⟨[], .lit "category"⟩, category⟩,
    ⟨⟨[], .lit "origin"⟩, .lit "ebMS"⟩] ++
  refToMessageId.toList.map fun v => ⟨⟨[], .lit "refToMessageInError"⟩, v⟩

theorem writes_error (refToMessageId : Option Str)
    (code shortDescription category description : Str) (detail : Option Str) :
    Writes (writeError refToMessageId code shortDescription category description detail)
      [errorMarkup (errorItems refToMessageId code shortDescription category) description detail] := by
  intro q items content rest nodes
  have hrefTo := gives_optionalAttr (.lit "refToMessageInError") "eb:Error/@refToMessageInError"
    refToMessageId
  have hdetail : Writes (detail.toList.map fun d => .leaf (.lit "eb:ErrorDetail") d "eb:ErrorDetail")
      (detail.toList.map (ebLeaf (.lit "ErrorDetail"))) :=
    writes_optional (fun v => writes_leaf _ v _) _
  simp only [writeError, List.append_assoc, List.cons_append, List.nil_append,
    Description.run_start, Description.run_attr, hrefTo.run, (writes_description _).run,
    hdetail.run, Description.run_endElement, Description.run_nil]
  rfl

theorem legal_writeError (refToMessageId : Option Str)
    (code shortDescription category description : Str) (detail : Option Str) :
    (writeError refToMessageId code shortDescription category description detail).all legalCall =
      true := by
  have hrefTo : (optionalAttr (.lit "refToMessageInError") "eb:Error/@refToMessageInError"
      refToMessageId).all legalCall = true := legal_optionalAttr rfl _ _
  have hdetail : (detail.toList.map fun d =>
      .leaf (.lit "eb:ErrorDetail") d "eb:ErrorDetail").all legalCall = true := by
    cases detail <;> rfl
  rw [writeError, List.all_append, List.all_append, List.all_append, List.all_append, hrefTo,
    hdetail]
  rfl

/-- For every error signal that `error_signal` writes: the bytes are a text that parses, and the
    signal parser gives the ids and one error with the fields that were written, trimmed, a blank
    code read as `unknown` and a blank text as none. -/
theorem error_signal_read_back (now : SystemTime) (messageId : Str) (refToMessageId : Option Str)
    (code shortDescription category description : Str) (detail : Option Str) (bytes : Bytes)
    (h : errorSignal now messageId refToMessageId code shortDescription category description detail =
      .ok bytes) :
    ∃ text doc, bytes = Str.utf8 text ∧ parse text = some doc ∧
      ∀ reader stage, parseAs4SignalEnvelope doc reader stage = .ok
        { hasSignalMessage := true
          hasSignature := doc.descendants.any (isDsElement · "Signature")
          messageId := nonBlank messageId
          refToMessageId := refToMessageId.bind nonBlank
          timestamp := nonBlank (formatRfc3339Secs now)
          errors := [
            { errorCode := (nonBlank code).getD (.lit "unknown")
              severity := some (.lit "failure")
              category := nonBlank category
              origin := some (.lit "ebMS")
              refToMessageId := none
              shortDescription := nonBlank shortDescription
              description := nonBlank description
              errorDetail := detail.bind nonBlank }] } := by
  simp only [errorSignal, Except.bind_eq_ok, Except.pure_eq_ok] at h
  obtain ⟨written, hwrite, text, htext, rfl⟩ := h
  let items := errorItems refToMessageId code shortDescription category
  have hdecls : declsOf items = [] := by cases refToMessageId <;> rfl
  have hitems : attrsOf items = items := by cases refToMessageId <;> rfl
  have honce : (items.map fun a => a.name.loc).Nodup := by
    cases refToMessageId with
    | none =>
      show [Str.lit "errorCode", .lit "severity", .lit "shortDescription", .lit "category",
        .lit "origin"].Nodup
      decide
    | some v =>
      show [Str.lit "errorCode", .lit "severity", .lit "shortDescription", .lit "category",
        .lit "origin", .lit "refToMessageInError"].Nodup
      decide
  obtain ⟨doc, hparse, hread⟩ := parse_writtenError rfl rfl
    (writes_error refToMessageId code shortDescription category description detail)
    (legal_writeError refToMessageId code shortDescription category description detail) hdecls
    hitems honce hwrite htext
  refine ⟨text, doc, rfl, hparse, fun reader stage => ?_⟩
  have herror : errorAsRead items description detail =
      { errorCode := (nonBlank code).getD (.lit "unknown")
        severity := some (.lit "failure")
        category := nonBlank category
        origin := some (.lit "ebMS")
        refToMessageId := none
        shortDescription := nonBlank shortDescription
        description := nonBlank description
        errorDetail := detail.bind nonBlank } := by
    cases refToMessageId <;> rfl
  rw [hread, herror]

/-- The error signal for one message is read back. -/
theorem error_signal_read_back_one :
    ∃ bytes text doc, errorSignal 0 "err@x" (some "msg@x") "EBMS:0101" "FailedAuthentication"
        "Processing" "no match" none = .ok bytes ∧
      bytes = Str.utf8 text ∧ parse text = some doc ∧
      ∃ parsed, parseAs4SignalEnvelope doc ⟨"session", "s", true⟩ "read" = .ok parsed ∧
        parsed.errors.map (·.errorCode) = [.lit "EBMS:0101"] := by
  have hok : (errorSignal 0 "err@x" (some "msg@x") "EBMS:0101" "FailedAuthentication" "Processing"
      "no match" none).isOk = true := by decide +kernel
  cases hbytes : errorSignal 0 "err@x" (some "msg@x") "EBMS:0101" "FailedAuthentication"
      "Processing" "no match" none with
  | error e =>
    rw [hbytes] at hok
    cases hok
  | ok bytes =>
    obtain ⟨text, doc, htext, hdoc, hread⟩ := error_signal_read_back _ _ _ _ _ _ _ _ _ hbytes
    exact ⟨bytes, text, doc, rfl, htext, hdoc, _, hread _ _, rfl⟩

/-- For every error signal that `generate_error_signal` writes: the same, with the code and the
    severity of the caller. -/
theorem generated_error_read_back (session : SessionContext) (now : SystemTime)
    (messageId refToMessageId : Str) (errorCode : As4ErrorCode) (severity : As4ErrorSeverity)
    (description : Str) (bytes : Bytes)
    (h : generateErrorSignal session now messageId refToMessageId errorCode severity description =
      .ok bytes) :
    ∃ text doc, bytes = Str.utf8 text ∧ parse text = some doc ∧
      ∀ reader stage, parseAs4SignalEnvelope doc reader stage = .ok
        { hasSignalMessage := true
          hasSignature := doc.descendants.any (isDsElement · "Signature")
          messageId := some (Str.trim messageId)
          refToMessageId := some (Str.trim refToMessageId)
          timestamp := nonBlank (formatRfc3339Secs now)
          errors := [
            { errorCode := errorCode.ebmsCode
              severity := some severity.asStr
              category := some (.lit "CONTENT")
              origin := some (.lit "ebMS")
              refToMessageId := none
              shortDescription := none
              description := some (Str.trim description)
              errorDetail := none }] } := by
  simp only [generateErrorSignal, validateReceiptSignalIds, Except.bind_eq_ok,
    Except.rejectIf_eq_ok, Except.pure_eq_ok] at h
  obtain ⟨_, ⟨_, hid, href⟩, _, hdescription, written, hwrite, text, htext, rfl⟩ := h
  let items : List Attr := [⟨⟨[], .lit "errorCode"⟩, errorCode.ebmsCode⟩,
    ⟨⟨[], .lit "severity"⟩, severity.asStr⟩, ⟨⟨[], .lit "category"⟩, .lit "CONTENT"⟩,
    ⟨⟨[], .lit "origin"⟩, .lit "ebMS"⟩]
  have honce : (items.map fun a => a.name.loc).Nodup := by
    show [Str.lit "errorCode", .lit "severity", .lit "category", .lit "origin"].Nodup
    decide
  obtain ⟨doc, hparse, hread⟩ := parse_writtenError rfl rfl
    (show Writes _ [errorMarkup items description none] from fun _ _ _ _ _ => rfl) rfl rfl rfl honce
    hwrite htext
  refine ⟨text, doc, rfl, hparse, fun reader stage => ?_⟩
  have hid : nonBlank messageId = some (Str.trim messageId) := if_neg hid
  have href : nonBlank refToMessageId = some (Str.trim refToMessageId) := if_neg href
  have hdescription : nonBlank description = some (Str.trim description) := if_neg hdescription
  have herror : errorAsRead items description none =
      { errorCode := errorCode.ebmsCode
        severity := some severity.asStr
        category := some (.lit "CONTENT")
        origin := some (.lit "ebMS")
        refToMessageId := none
        shortDescription := none
        description := some (Str.trim description)
        errorDetail := none } := by
    rw [← hdescription]
    cases errorCode <;> cases severity <;> rfl
  rw [hread, herror, ← hid, ← href]
  rfl

end Asx
