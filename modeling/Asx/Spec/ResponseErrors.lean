import Asx.ForStd.Failures
import Asx.Native.Mdn
import Asx.Native.Receipt

/-!
# The errors of a response

What the verification of a response fails with is decided by the code, also where a library
fails: its errors are replaced. No such error has the code `CapacityExhausted`, the one that is
read as a transport error wherever it comes from.

## Main results
- `verifySyncResponse_code`: the verification of an AS4 response
- `checkMdn_code`: that of an MDN
- `verifySyncResponse_error`: the `eb:Error` elements of a response that is read as a refusal
-/

namespace Asx

open Except Xml

/-- The code of an error is not `CapacityExhausted`. -/
def NotCapacity (err : AsxError) : Prop := err.code ≠ .capacityExhausted

/-! ## Multipart bodies -/

theorem notCapacity_mimeError (message : Str) : NotCapacity (mimeError message) := by
  intro h
  cases h

/-- No error about the boundary parameter is `CapacityExhausted`. -/
theorem boundaryParameter_code (segments : List Str) :
    FailsIn NotCapacity (boundaryParameter segments) := by
  induction segments with
  | nil => exact .error (notCapacity_mimeError _)
  | cons segment rest ih =>
    unfold boundaryParameter
    dsimp only
    split
    · apply FailsIn.bind (.rejectIf (notCapacity_mimeError _))
      intro _
      exact .bind (.rejectIf (notCapacity_mimeError _)) fun _ => .pure _
    · exact ih

theorem parseMultipartBoundaryFromContentType_code (contentType : Str) :
    FailsIn NotCapacity (parseMultipartBoundaryFromContentType contentType) := by
  unfold parseMultipartBoundaryFromContentType
  split
  · split
    · exact boundaryParameter_code _
    · exact .ok _
  · exact .ok _

theorem headerValueFromLines_code (name : Bytes) (lines : List Bytes) :
    FailsIn NotCapacity (headerValueFromLines name lines) := by
  induction lines with
  | nil => exact .ok _
  | cons line rest ih =>
    unfold headerValueFromLines
    dsimp only
    split
    · exact ih
    split
    · exact .error (notCapacity_mimeError _)
    split
    · exact .bind (.okOr (notCapacity_mimeError _)) fun _ => .pure _
    · exact ih

theorem contentIdFromBlock_code (headers : Bytes) :
    FailsIn NotCapacity (contentIdFromBlock headers) := by
  unfold contentIdFromBlock
  refine .bind (headerValueFromLines_code _ _) fun value => ?_
  cases value with
  | none => exact .pure _
  | some value => exact .bind (.rejectIf (notCapacity_mimeError _)) fun _ => .pure _

theorem StreamingMimeParser.new_code (body : Bytes) (boundary : Str) :
    FailsIn NotCapacity (StreamingMimeParser.new body boundary) := by
  unfold StreamingMimeParser.new
  dsimp only
  split
  · exact .bind (.pure _) fun _ => .bind (.okOr (notCapacity_mimeError _)) fun _ => .pure _
  · exact .bind (.okOr (notCapacity_mimeError _)) fun _ =>
      .bind (.okOr (notCapacity_mimeError _)) fun _ => .pure _

theorem StreamingMimeParser.nextPartSlice_code (parser : StreamingMimeParser) :
    FailsIn NotCapacity parser.nextPartSlice := by
  unfold StreamingMimeParser.nextPartSlice
  split
  · exact .ok _
  refine .bind (.okOr (notCapacity_mimeError _)) fun headers => ?_
  refine .bind (.okOr (notCapacity_mimeError _)) fun body => ?_
  refine .bind (.okOr (notCapacity_mimeError _)) fun rest => ?_
  split
  · exact .pure _
  split
  · exact .bind (.okOr (notCapacity_mimeError _)) fun _ => .pure _
  split
  · exact .pure _
  · exact .throw (notCapacity_mimeError _)

/-- The loop over the parts fails where one of its rounds does, or with too many parts. -/
theorem payloadParts_code (session : SessionContext) (stage : Str) (room : Nat)
    (parser : StreamingMimeParser) : FailsIn NotCapacity (payloadParts session stage room parser) := by
  induction room generalizing parser with
  | zero =>
    unfold payloadParts
    refine .bind parser.nextPartSlice_code fun part => ?_
    cases part with
    | none => exact .pure _
    | some part => exact .throw (by intro h; cases h)
  | succ room ih =>
    unfold payloadParts
    refine .bind parser.nextPartSlice_code fun part => ?_
    cases part with
    | none => exact .pure _
    | some part =>
      refine .bind (contentIdFromBlock_code _) fun contentId => ?_
      refine .bind (.okOr (by intro h; cases h)) fun _ => ?_
      exact .bind (ih _) fun _ => .pure _

/-- No MIME error is `CapacityExhausted`. -/
theorem extractMultipart_code (body : Bytes) (contentType : Str) (session : SessionContext)
    (stage : Str) : FailsIn NotCapacity
      (extractMultipartRelatedPayloadIfPresent body contentType session stage) := by
  unfold extractMultipartRelatedPayloadIfPresent
  refine .bind (parseMultipartBoundaryFromContentType_code _) fun boundary => ?_
  cases boundary with
  | none => exact .bind (.rejectIf (by intro h; cases h)) fun _ => .pure _
  | some boundary =>
    refine .bind (StreamingMimeParser.new_code _ _) fun parser => ?_
    refine .bind parser.nextPartSlice_code fun first => ?_
    refine .bind (.okOr (by intro h; cases h)) fun root => ?_
    refine .bind (headerValueFromLines_code _ _) fun rootType => ?_
    refine .bind (.okOr (by intro h; cases h)) fun rootType => ?_
    refine .bind (.rejectIf (by intro h; cases h)) fun _ => ?_
    exact .bind (payloadParts_code _ _ _ _) fun _ => .pure _

theorem bytesToUtf8Str_code (bytes : Bytes) (stage : Str) (session : SessionContext) :
    FailsIn NotCapacity (bytesToUtf8Str bytes stage session) := .okOr (by intro h; cases h)

/-! ## Signals -/

theorem notCapacity_signalError {session : SessionContext} {stage : Str} {code : ErrorCode}
    {message : Str} (h : code ≠ .capacityExhausted) :
    NotCapacity (signalError session stage code message) := h

theorem notCapacity_receiptError {session : SessionContext} {messageId : Str} {code : ErrorCode}
    {message : Str} (h : code ≠ .capacityExhausted) :
    NotCapacity (receiptError session messageId code message) := h

theorem fillSlot_code (session : SessionContext) (stage loc : Str) (slot : Option Str) (n : Node) :
    FailsIn NotCapacity (fillSlot session stage loc slot n) := by
  unfold fillSlot
  split
  · exact .ok _
  · exact .bind (.rejectIf (notCapacity_signalError (by decide))) fun _ => .pure _

/-- No error of the signal parser is `CapacityExhausted`: past a limit it is a parse error. -/
theorem parseAs4SignalEnvelope_code (doc : Document) (session : SessionContext) (stage : Str) :
    FailsIn NotCapacity (parseAs4SignalEnvelope doc session stage) := by
  unfold parseAs4SignalEnvelope
  refine .bind (.rejectIf (notCapacity_signalError (by decide))) fun _ => ?_
  split
  · exact .pure _
  · unfold readSignal
    refine .bind (.foldlM (fun out info => ?_) _ _) fun _ => ?_
    · unfold readMessageInfo
      refine .bind (.foldlM (fillSlot_code _ _ _) _ _) fun _ => ?_
      refine .bind (.foldlM (fillSlot_code _ _ _) _ _) fun _ => ?_
      exact .bind (.foldlM (fillSlot_code _ _ _) _ _) fun _ => .pure _
    refine .bind (.foldlM (fun out receipt => ?_) _ _) fun _ => .pure _
    unfold readReceipt
    refine .bind (.foldlM (fun refs reference => ?_) _ _) fun _ => .pure _
    exact .bind (.rejectIf (notCapacity_signalError (by decide))) fun _ => .pure _
  · exact .throw (notCapacity_signalError (by decide))

/-! ## The verification -/

/-- A malformed pin of the session is an invalid input. -/
theorem sessionSignerPins_code (session : SessionContext) (pins : List Bytes) (fingerprint : Str) :
    FailsIn NotCapacity (sessionSignerPins session pins fingerprint) := by
  unfold sessionSignerPins
  dsimp only
  split
  · exact .ok _
  split
  · exact .ok _
  split
  · exact .ok _
  · exact .error (by intro h; cases h)

/-- The pins of a policy fail as those of the session do, or because one is malformed. -/
theorem receiptPins_code {session : SessionContext} {policy : As4ReceiptPolicy} {messageId : Str}
    {pins : Result (List Bytes)} (h : FailsIn NotCapacity pins) :
    FailsIn NotCapacity (receiptPins session policy messageId pins) := by
  unfold receiptPins
  split
  · exact h
  split
  · exact .ok _
  split
  · exact .ok _
  · exact .error (notCapacity_receiptError (by decide))

/-- The errors of the signature's verifier are replaced. -/
theorem verifiedReceiptCoverage_code (pki : Pki) (session : SessionContext) (messageId : Str)
    (doc : Document) (opts : WsSecVerifyOptions) :
    FailsIn NotCapacity (verifiedReceiptCoverage pki session messageId doc opts) := by
  unfold verifiedReceiptCoverage
  split
  · exact .ok _
  · exact .error (notCapacity_receiptError (by decide))
  · exact .error (notCapacity_receiptError (by decide))

theorem enforceSignalSignatureCoverage_code (session : SessionContext) (doc : Document)
    (stage messageId : Str) (coverage : VerifiedSignatureCoverage) :
    FailsIn NotCapacity (enforceSignalSignatureCoverage session doc stage messageId coverage) := by
  unfold enforceSignalSignatureCoverage
  split
  · exact .rejectIf (by intro h; cases h)
  · exact .error (by intro h; cases h)

/-- The check of a receipt's signature fails as its pins do, or as the verification does. -/
theorem verifyReceiptSignature_code {pki : Pki} {session : SessionContext}
    {policy : As4ReceiptPolicy} {chainPolicy : ChainPolicy} {pins : Result (List Bytes)}
    {now : SystemTime} {messageId : Str} {doc : Document} {parsed : ParsedAs4SignalEnvelope}
    (h : FailsIn NotCapacity pins) : FailsIn NotCapacity
      (verifyReceiptSignature pki session policy chainPolicy pins now messageId doc parsed) := by
  unfold verifyReceiptSignature
  split
  · unfold verifyPresentSignature
    refine .bind (receiptPins_code h) fun pins => ?_
    refine .bind (.rejectIf (notCapacity_receiptError (by decide))) fun _ => ?_
    refine .bind (verifiedReceiptCoverage_code _ _ _ _ _) fun coverage => ?_
    exact .bind (enforceSignalSignatureCoverage_code _ _ _ _ _) fun _ => .pure _
  · exact .bind (.rejectIf (notCapacity_receiptError (by decide))) fun _ => .pure _

theorem checkReceiptFreshness_code (session : SessionContext) (policy : As4ReceiptPolicy)
    (messageId : Str) (timestamp : Option Str) (now : SystemTime) :
    FailsIn NotCapacity (checkReceiptFreshness session policy messageId timestamp now) := by
  unfold checkReceiptFreshness
  split
  · exact .ok _
  · refine .bind (.okOr (notCapacity_receiptError (by decide))) fun timestamp => ?_
    refine .bind (.okOr (notCapacity_receiptError (by decide))) fun seconds => ?_
    exact .rejectIf (notCapacity_receiptError (by decide))

/-- The references of a message that was sent are read like those of any other. -/
theorem sentSignatureReferences_code (roxmltree : Roxmltree) (session : SessionContext)
    (messageId : Str) (sent : As4SendOutput) :
    FailsIn NotCapacity (sentSignatureReferences roxmltree session messageId sent) := by
  unfold sentSignatureReferences
  refine .bind (extractMultipart_code _ _ _ _) fun multipart => ?_
  refine .bind (bytesToUtf8Str_code _ _ _) fun soap => ?_
  refine .bind (.mapError fun err => by intro h; cases h) fun refs => ?_
  exact .bind (.rejectIf (notCapacity_receiptError (by decide))) fun _ => .pure _

theorem decodeXmlBase64_code (value label stage : Str) :
    FailsIn NotCapacity (decodeXmlBase64 value label stage) := .okOr (by intro h; cases h)

theorem checkDistinctUris_code (session : SessionContext) (messageId : Str)
    (earlier refs : List As4NriReference) :
    FailsIn NotCapacity (checkDistinctUris session messageId earlier refs) := by
  induction refs generalizing earlier with
  | nil => exact .ok _
  | cons reference rest ih =>
    exact .bind (.rejectIf (notCapacity_receiptError (by decide))) fun _ => ih _

theorem checkEchoed_code (session : SessionContext) (messageId : Str)
    (receiptRefs : List As4NriReference) (sentRef : As4NriReference) :
    FailsIn NotCapacity (checkEchoed session messageId receiptRefs sentRef) := by
  unfold checkEchoed
  refine .bind (.okOr (notCapacity_receiptError (by decide))) fun echoed => ?_
  refine .bind (.rejectIf (notCapacity_receiptError (by decide))) fun _ => ?_
  refine .bind (decodeXmlBase64_code _ _ _) fun _ => ?_
  refine .bind (decodeXmlBase64_code _ _ _) fun _ => ?_
  exact .rejectIf (notCapacity_receiptError (by decide))

/-- The comparison of the references fails as their parser does, or at one of them. -/
theorem verifyNonRepudiation_code (roxmltree : Roxmltree) (session : SessionContext)
    (policy : As4ReceiptPolicy) (messageId : Str) (sent : As4SendOutput)
    (receiptRefs : List As4NriReference) : FailsIn NotCapacity
      (verifyNonRepudiation roxmltree session policy messageId sent receiptRefs) := by
  unfold verifyNonRepudiation
  split
  · exact .bind (.rejectIf (notCapacity_receiptError (by decide))) fun _ => .pure _
  · refine .bind (sentSignatureReferences_code _ _ _ _) fun sentRefs => ?_
    refine .bind (checkDistinctUris_code _ _ _ _) fun _ => ?_
    refine .bind (.forM (checkEchoed_code _ _ _) _) fun _ => ?_
    refine .bind ?_ fun _ => .pure _
    unfold checkUnexpected
    split
    · exact .rejectIf (notCapacity_receiptError (by decide))
    · exact .ok _

/-- An answer without a signal is empty, too large, malformed or not UTF-8. -/
theorem extractSignalSoap_code (session : SessionContext) (body : Bytes) (contentType : Str)
    (policy : As4ReceiptPolicy) :
    FailsIn NotCapacity (extractSignalSoap session body contentType policy) := by
  unfold extractSignalSoap
  refine .bind (.rejectIf (by intro h; cases h)) fun _ => ?_
  refine .bind (.rejectIf (by intro h; cases h)) fun _ => ?_
  exact .bind (extractMultipart_code _ _ _ _) fun _ => bytesToUtf8Str_code _ _ _

/-- No failure of the verification of a response is read as a transport error. -/
theorem verifySyncResponse_code (ctx : ReceiptContext) (now : SystemTime) (sent : As4SendOutput)
    (body : Bytes) (contentType : Str) :
    FailsIn NotCapacity (verifySyncResponse ctx now sent body contentType) := by
  unfold verifySyncResponse
  dsimp only
  refine .bind (extractSignalSoap_code _ _ _ _) fun soap => ?_
  refine .bind (.mapError fun err => by intro h; cases h) fun doc => ?_
  refine .bind (parseAs4SignalEnvelope_code _ _ _) fun parsed => ?_
  refine .bind (.rejectIf (notCapacity_receiptError (by decide))) fun _ => ?_
  refine .bind (.rejectIf (notCapacity_receiptError (by decide))) fun _ => ?_
  split
  · unfold acceptErrorSignal
    exact .bind (.bind (.rejectIf (notCapacity_receiptError (by decide))) fun _ => .pure _)
      fun _ => .pure _
  · refine .bind (.rejectIf (notCapacity_receiptError (by decide))) fun _ => ?_
    unfold acceptReceipt
    refine .bind (.okOr (notCapacity_receiptError (by decide))) fun refToMessageId => ?_
    refine .bind (.rejectIf (notCapacity_receiptError (by decide))) fun _ => ?_
    refine .bind (verifyReceiptSignature_code (sessionSignerPins_code _ _ _)) fun signer => ?_
    refine .bind (checkReceiptFreshness_code _ _ _ _ _) fun _ => ?_
    exact .bind (verifyNonRepudiation_code _ _ _ _ _ _) fun _ => .pure _

/-! ## MDNs -/

/-- No error of an MDN's fields is `CapacityExhausted`. -/
theorem parseMdnFields_code (text : Str) : FailsIn NotCapacity (parseMdnFields text) := by
  unfold parseMdnFields
  refine .bind (.foldlM (fun st line => ?_) _ _) fun _ => .pure _
  unfold scanMdnLine
  dsimp only
  split
  · exact .ok _
  split
  · exact .ok _
  split
  · exact .ok _
  split
  · exact .error (by intro h; cases h)
  · exact .ok _

theorem parseMdnFieldsFromBytes_code (raw : Bytes) :
    FailsIn NotCapacity (parseMdnFieldsFromBytes raw) :=
  .bind (.okOr (by intro h; cases h)) fun _ => parseMdnFields_code _

theorem reportNotificationPart_code (session : SessionContext) (report : ParsedMail) :
    FailsIn NotCapacity (reportNotificationPart session report) := by
  unfold reportNotificationPart
  dsimp only
  split
  · exact .ok _
  split
  · exact .error (by intro h; cases h)
  split
  · exact .error (by intro h; cases h)
  split
  · exact .ok _
  · exact .error (by intro h; cases h)

theorem resolveSignedContent_code (session : SessionContext) (signed : ParsedMail) :
    FailsIn NotCapacity (resolveSignedContentNotificationPart session signed) := by
  unfold resolveSignedContentNotificationPart
  split
  · exact .ok _
  split
  · exact reportNotificationPart_code _ _
  · exact .error (by intro h; cases h)

/-- Nor is one of looking for the report, in a signed MDN or in a plain one. -/
theorem mdnNotification_code (lib : MdnLibrary) (session : SessionContext) (mail : ParsedMail)
    (verified : Option VerifiedSmimeEntity) :
    FailsIn NotCapacity (mdnNotification lib session mail verified) := by
  unfold mdnNotification
  split
  · unfold resolveMdnNotificationPart
    split
    · exact reportNotificationPart_code _ _
    split
    · split
      · exact .ok _
      · exact resolveSignedContent_code _ _
    · exact .ok _
  · refine .bind (.okOr (by intro h; cases h)) fun entityMail => ?_
    exact .bind (.rejectIf (by intro h; cases h)) fun _ => resolveSignedContent_code _ _

/-- No error of reading an MDN is `CapacityExhausted`; its size limit is `PayloadTooLarge`. -/
theorem parseMdnWithSigner_code (lib : MdnLibrary) (session : SessionContext) (raw : Bytes)
    (requireSigned : Bool) :
    FailsIn NotCapacity (parseMdnWithSigner lib session raw requireSigned) := by
  unfold parseMdnWithSigner
  refine .bind (.rejectIf (by intro h; cases h)) fun _ => ?_
  refine .bind (.rejectIf (by intro h; cases h)) fun _ => ?_
  refine .bind (.okOr (by intro h; cases h)) fun mail => ?_
  refine .bind (.rejectIf (by intro h; cases h)) fun _ => ?_
  refine .bind ?_ fun verified => ?_
  · unfold verifiedMdnEntity
    split
    · exact .mapError fun err => by intro h; cases h
    · exact .ok _
  refine .bind (mdnNotification_code _ _ _ _) fun part => ?_
  refine .bind (.rejectIf (by intro h; cases h)) fun _ => ?_
  refine .bind (.rejectIf (by intro h; cases h)) fun _ => ?_
  refine .bind ?_ fun fields => ?_
  · unfold mdnFields
    split
    · exact .bind (.okOr (by intro h; cases h)) fun _ => parseMdnFieldsFromBytes_code _
    · exact parseMdnFieldsFromBytes_code _
  refine .bind (.okOr (by intro h; cases h)) fun disposition => ?_
  refine .bind (.rejectIf (by intro h; cases h)) fun _ => ?_
  exact .bind (.rejectIf (by intro h; cases h)) fun _ => .pure _

/-- No verdict on an MDN is read as a transport error. -/
theorem checkMdn_code {lib : MdnLibrary} {session : SessionContext} {pins : List Bytes}
    {requireSigned : Bool} {raw : Bytes} {contentType : Option Str} {expectedId expectedMic : Str}
    {err : AsxError}
    (h : (checkMdn lib session pins requireSigned raw contentType expectedId expectedMic).verdict =
      .indeterminate err) : NotCapacity err := by
  unfold checkMdn at h
  dsimp only at h
  split at h
  · cases h
    exact fun h => by cases h
  split at h
  · rename_i err' herr
    cases h
    exact parseMdnWithSigner_code _ _ _ _ _ herr
  split at h
  · cases h
    exact fun h => by cases h
  split at h
  · cases h
    exact fun h => by cases h
  -- the verdict on the disposition
  unfold dispositionVerdict at h
  dsimp only at h
  split at h
  · cases h
  split at h
  · split at h
    · split at h
      · cases h
      · cases h
        exact fun h => by cases h
    · cases h
      exact fun h => by cases h
  · cases h
    exact fun h => by cases h

/-! ## Refusals -/

/-- The `eb:Error` elements of a document. -/
def errorElements (doc : Document) : List Node := (signalNodes doc).flatMap (ebDescendants · "Error")

/-- The document of a response, as `verify_sync_response_inner` parses it. -/
def ResponseDocument (ctx : ReceiptContext) (body : Bytes) (contentType : Str) (doc : Document) :
    Prop :=
  ∃ soap, extractSignalSoap ctx.session body contentType ctx.policy = .ok soap ∧
    parseXml ctx.roxmltree soap .envelope syncResponseStage = .ok doc

/-- The errors that the signal parser gives are those of the `eb:Error` elements, up to its limit. -/
theorem parseAs4SignalEnvelope_errors {doc : Document} {session : SessionContext} {stage : Str}
    {parsed : ParsedAs4SignalEnvelope} (h : parseAs4SignalEnvelope doc session stage = .ok parsed) :
    parsed.errors = ((errorElements doc).take maxSignalErrors).map readError := by
  simp only [parseAs4SignalEnvelope, bind_eq_ok] at h
  obtain ⟨_, -, h⟩ := h
  unfold errorElements
  split at h
  · rename_i hnone
    rw [pure_eq_ok] at h
    subst h
    rw [hnone]
    rfl
  · rename_i signal hone
    simp only [readSignal, bind_eq_ok, pure_eq_ok] at h
    obtain ⟨_, -, _, -, rfl⟩ := h
    rw [hone, List.flatMap_cons, List.flatMap_nil, List.append_nil]
  · cases h

/-- A response that is read as a refusal has a document, and its errors are the first of the
    document's `eb:Error` elements. -/
theorem verifySyncResponse_error {ctx : ReceiptContext} {now : SystemTime} {sent : As4SendOutput}
    {body : Bytes} {contentType : Str} {signal : As4ErrorSignal} {signer : VerifiedReceiptSigner}
    (h : verifySyncResponse ctx now sent body contentType = .ok (.error signal, signer)) :
    ∃ doc, ResponseDocument ctx body contentType doc ∧ signal.errors ≠ [] ∧
      signal.errors = ((errorElements doc).take maxSignalErrors).map readError := by
  simp only [verifySyncResponse, bind_eq_ok, mapError_eq_ok] at h
  obtain ⟨soap, hsoap, doc, hdoc, parsed, hparsed, _, -, _, -, h⟩ := h
  refine ⟨doc, ⟨soap, hsoap, hdoc⟩, ?_⟩
  rw [← parseAs4SignalEnvelope_errors hparsed]
  split at h
  · rename_i herrors
    simp only [acceptErrorSignal, bind_eq_ok, pure_eq_ok, Prod.mk.injEq] at h
    obtain ⟨_, ⟨_, -, rfl⟩, hsignal, -⟩ := h
    cases hsignal
    exact ⟨herrors, rfl⟩
  · simp only [acceptReceipt, bind_eq_ok, pure_eq_ok, Prod.mk.injEq] at h
    obtain ⟨_, -, _, -, _, -, _, -, _, -, _, -, hsignal, -⟩ := h
    cases hsignal

end Asx
