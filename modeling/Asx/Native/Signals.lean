import Asx.Native.Calendar
import Asx.Native.Receipt
import Asx.Native.SignedInfo
import Asx.Native.SoapBuilder

/-!
# Writing signals

`as4/signals.rs` and `as4/types/error_codes.rs`: receipts and error signals, as calls of the XML
writer. Left out are the generators that sign with a key in PEM form and the check of that key;
the signed receipt of the endpoint is drafted here and sealed with a header that its caller has
made.
-/

namespace Asx

open XmlCall

/-! ## Error codes -/

/-- `As4ErrorCode`. -/
inductive As4ErrorCode where
  | valueNotRecognized
  | featureNotSupported
  | valueInconsistent
  | other
  | missingReceipt
  | invalidReceipt
  | decompressionFailure
deriving DecidableEq, Repr

/-- `ebms_code`. -/
def As4ErrorCode.ebmsCode : As4ErrorCode → Str
  | .valueNotRecognized => .lit "EBMS:0001"
  | .featureNotSupported => .lit "EBMS:0002"
  | .valueInconsistent => .lit "EBMS:0003"
  | .other => .lit "EBMS:0004"
  | .missingReceipt => .lit "EBMS:0301"
  | .invalidReceipt => .lit "EBMS:0302"
  | .decompressionFailure => .lit "EBMS:0303"

/-- `As4ErrorSeverity`. -/
inductive As4ErrorSeverity where
  | failure
  | warning
deriving DecidableEq, Repr

/-- `as_str`. -/
def As4ErrorSeverity.asStr : As4ErrorSeverity → Str
  | .failure => .lit "Failure"
  | .warning => .lit "Warning"

/-! ## The frame of a signal -/

/-- `SignalEnvelope`. -/
structure SignalEnvelope where
  /-- Namespaces beyond `S12` and `eb`, declared on the envelope. -/
  namespaces : List (Str × Str)
  /-- Whether the position of `wsse:Security` is reserved. -/
  reserveSecurity : Bool
  messagingId : Option Str
  bodyId : Option Str
  timestamp : Str
  messageId : Str
  refToMessageId : Option Str
deriving DecidableEq, Repr

namespace SignalEnvelope

/-- The calls of `write_signal` before the position of `wsse:Security`. -/
def headerCalls (spec : SignalEnvelope) : List XmlCall :=
  [start (.lit "S12:Envelope"), ns (.lit "S12") Ns.soap12, ns (.lit "eb") Ns.ebms3] ++
  spec.namespaces.map (fun n => ns n.1 n.2) ++ [start (.lit "S12:Header")]

/-- `eb:MessageInfo`. -/
def messageInfoCalls (spec : SignalEnvelope) : List XmlCall :=
  [start (.lit "eb:MessageInfo"), leaf (.lit "eb:Timestamp") spec.timestamp "eb:Timestamp",
    leaf (.lit "eb:MessageId") spec.messageId "eb:MessageId"] ++
  spec.refToMessageId.toList.map
    (fun refTo => leaf (.lit "eb:RefToMessageId") refTo "eb:RefToMessageId") ++
  [endElement]

/-- The calls after it; `body` writes the signal itself. -/
def messageCalls (spec : SignalEnvelope) (body : List XmlCall) : List XmlCall :=
  [start (.lit "eb:Messaging"),
    attr (.lit "S12:mustUnderstand") (.lit "true") "S12:mustUnderstand"] ++
  optionalAttr (.lit "wsu:Id") "wsu:Id" spec.messagingId ++
  [start (.lit "eb:SignalMessage")] ++ spec.messageInfoCalls ++ body ++
  [endElement, endElement, endElement, start (.lit "S12:Body")] ++
  optionalAttr (.lit "wsu:Id") "wsu:Id" spec.bodyId ++ [endElement, endElement]

end SignalEnvelope

/-- `write_signal`. -/
def writeSignal (spec : SignalEnvelope) (body : List XmlCall) : Result (XmlDoc × Option Nat) := do
  let out ← XmlOut.new.run spec.headerCalls
  let reserved := if spec.reserveSecurity then (out.slot.1, some out.slot.2) else (out, none)
  let out ← reserved.1.run (spec.messageCalls body)
  let doc ← out.finish
  pure (doc, reserved.2)

/-! ## Receipts -/

/-- The round of the loop of `write_receipt`. -/
def writeNriReference (r : As4NriReference) : List XmlCall :=
  [start (.lit "ebbpsig:MessagePartNRInformation"), start (.lit "ds:Reference"),
    attr (.lit "URI") r.uri "ds:Reference/@URI", start (.lit "ds:DigestMethod"),
    attr (.lit "Algorithm") r.digestMethodUri "ds:DigestMethod/@Algorithm", endElement,
    leaf (.lit "ds:DigestValue") r.digestValueB64 "ds:DigestValue", endElement, endElement]

/-- `write_receipt`. -/
def writeReceipt (nriRefs : List As4NriReference) : List XmlCall :=
  [start (.lit "eb:Receipt"), start (.lit "ebbpsig:NonRepudiationInformation")] ++
    nriRefs.flatMap writeNriReference ++ [endElement, endElement]

/-- `validate_receipt_signal_ids`. -/
def validateReceiptSignalIds (session : SessionContext) (stage messageId refToMessageId : Str) :
    Result Unit := do
  Except.rejectIf (Str.trim messageId = [])
    ⟨.invalidInput, "message_id must not be empty", .forSession stage session⟩
  Except.rejectIf (Str.trim refToMessageId = [])
    ⟨.invalidInput, "ref_to_message_id must not be empty", .forSession stage session⟩

/-- `generate_receipt_with_nri`; `now` is what the session's clock reads. -/
def generateReceiptWithNri (session : SessionContext) (now : SystemTime)
    (messageId refToMessageId : Str) (nriRefs : List As4NriReference) : Result Bytes := do
  validateReceiptSignalIds session "as4_generate_receipt" messageId refToMessageId
  let written ← writeSignal
    { namespaces := if nriRefs = [] then [(.lit "ebbpsig", Ns.ebbpSignals)]
        else [(.lit "ebbpsig", Ns.ebbpSignals), (.lit "ds", Ns.ds)]
      reserveSecurity := false
      messagingId := none
      bodyId := none
      timestamp := formatRfc3339Secs now
      messageId
      refToMessageId := some refToMessageId } (writeReceipt nriRefs)
  let text ← written.1.intoString
  pure (Str.utf8 text)

/-- `generate_receipt`. -/
def generateReceipt (session : SessionContext) (now : SystemTime)
    (messageId refToMessageId : Str) : Result Bytes :=
  generateReceiptWithNri session now messageId refToMessageId []

/-- `RECEIPT_MESSAGING_WSU_ID`. -/
def receiptMessagingWsuId : Str := .lit "as4-receipt-messaging"

/-- `RECEIPT_BODY_WSU_ID`. -/
def receiptBodyWsuId : Str := .lit "as4-receipt-body"

/-- `SignalDraft`: a receipt built up to its signature. -/
structure ReceiptDraft where
  doc : XmlDoc
  slot : Nat
  prepared : PreparedSignature
  now : SystemTime
deriving DecidableEq, Repr

/-- The envelope of a signed receipt. -/
def signedReceiptEnvelope (now : SystemTime) (messageId refToMessageId : Str) : SignalEnvelope where
  namespaces := [(.lit "ebbpsig", Ns.ebbpSignals), (.lit "wsse", Ns.wsse), (.lit "wsu", Ns.wsu),
    (.lit "ds", Ns.ds)]
  reserveSecurity := true
  messagingId := some receiptMessagingWsuId
  bodyId := some receiptBodyWsuId
  timestamp := formatRfc3339Secs now
  messageId
  refToMessageId := some refToMessageId

/-- `draft_receipt`. -/
def draftReceipt (roxmltree : Roxmltree) (digests : Digests) (now : SystemTime)
    (messageId refToMessageId : Str) (nriRefs : List As4NriReference)
    (algorithm : SignatureAlgorithm) : Result ReceiptDraft := do
  let written ← writeSignal (signedReceiptEnvelope now messageId refToMessageId)
    (writeReceipt nriRefs)
  let slot ← Except.okOr written.2 ⟨.invalidInput,
    "a signed signal needs a reserved wsse:Security slot", .new "as4_generate_signed_receipt"⟩
  let prepared ← prepareEnvelopeSignature roxmltree digests written.1.textWithEmptySlots
    ['#' :: receiptMessagingWsuId, '#' :: receiptBodyWsuId] [] algorithm
  pure ⟨written.1, slot, prepared, now⟩

/-- The end of `finish_signal`, with the `wsse:Security` that `security_header` has made. -/
def finishSignal (draft : ReceiptDraft) (header : Str) : Result Bytes := do
  let doc ← draft.doc.fill draft.slot header
  let text ← doc.intoString
  pure (Str.utf8 text)

/-! ## Error signals -/

/-- The `eb:Description` of an error. -/
def writeDescription (description : Str) : List XmlCall :=
  [start (.lit "eb:Description"), attr (.lit "xml:lang") (.lit "en") "xml:lang",
    text description "eb:Description", endElement]

/-- `generate_error_signal`. -/
def generateErrorSignal (session : SessionContext) (now : SystemTime)
    (messageId refToMessageId : Str) (errorCode : As4ErrorCode) (severity : As4ErrorSeverity)
    (description : Str) : Result Bytes := do
  validateReceiptSignalIds session "as4_generate_error_signal" messageId refToMessageId
  Except.rejectIf (Str.trim description = []) ⟨.invalidInput, "description must not be empty",
    .forSession "as4_generate_error_signal" session⟩
  let written ← writeSignal ⟨[], false, none, none, formatRfc3339Secs now, messageId,
      some refToMessageId⟩
    ([start (.lit "eb:Error"), attr (.lit "errorCode") errorCode.ebmsCode "eb:Error/@errorCode",
      attr (.lit "severity") severity.asStr "eb:Error/@severity",
      attr (.lit "category") (.lit "CONTENT") "eb:Error/@category",
      attr (.lit "origin") (.lit "ebMS") "eb:Error/@origin"] ++
      writeDescription description ++ [endElement])
  let text ← written.1.intoString
  pure (Str.utf8 text)

/-- The `eb:Error` of `error_signal`. -/
def writeError (refToMessageId : Option Str) (code shortDescription category description : Str)
    (detail : Option Str) : List XmlCall :=
  [start (.lit "eb:Error"), attr (.lit "errorCode") code "eb:Error/@errorCode",
    attr (.lit "severity") (.lit "failure") "eb:Error/@severity",
    attr (.lit "shortDescription") shortDescription "eb:Error/@shortDescription",
    attr (.lit "category") category "eb:Error/@category",
    attr (.lit "origin") (.lit "ebMS") "eb:Error/@origin"] ++
  optionalAttr (.lit "refToMessageInError") "eb:Error/@refToMessageInError" refToMessageId ++
  writeDescription description ++
  detail.toList.map (fun d => leaf (.lit "eb:ErrorDetail") d "eb:ErrorDetail") ++ [endElement]

/-- `error_signal`. -/
def errorSignal (now : SystemTime) (messageId : Str) (refToMessageId : Option Str)
    (code shortDescription category description : Str) (detail : Option Str) : Result Bytes := do
  let written ← writeSignal ⟨[], false, none, none, formatRfc3339Secs now, messageId,
      refToMessageId⟩
    (writeError refToMessageId code shortDescription category description detail)
  let text ← written.1.intoString
  pure (Str.utf8 text)

end Asx
