import Asx.Native.Mdn
import Asx.Native.MimePackaging

/-!
# Writing an MDN

`generate_mdn` and `mdn_report` of `as2/mdn.rs`: the `multipart/report` of a disposition
notification, as a text before it is encoded.
-/

namespace Asx

/-- Lines, each of them ended. -/
def crlfLines (lines : List Str) : Str := lines.flatMap fun line => line ++ ['\r', '\n']

/-- `mdn_boundary_from_message_id`. -/
def mdnBoundaryFromMessageId (originalMessageId : Str) : Str :=
  let h := (Str.utf8 originalMessageId).foldl
    (fun h b => (h ^^^ b.toUInt64) * 1099511628211) (14695981039346656037 : UInt64)
  .lit "asx-mdn-" ++ MimePackageBuilder.hex16 h

/-- The lines of the `notification_part`. -/
def notificationLines (finalRecipient originalMessageId disposition : Str)
    (receivedContentMic : Option Str) : List Str :=
  [Str.lit "Final-Recipient: rfc822; " ++ finalRecipient, Str.lit "Original-Message-ID: " ++ originalMessageId,
    Str.lit "Disposition: " ++ disposition] ++
    receivedContentMic.toList.map fun mic => Str.lit "Received-Content-MIC: " ++ Str.trim mic

/-- The `notification_part` of `mdn_report`. -/
def notificationPart (finalRecipient originalMessageId disposition : Str)
    (receivedContentMic : Option Str) : Str :=
  crlfLines (notificationLines finalRecipient originalMessageId disposition receivedContentMic)

/-- `mdn_report`. -/
def mdnReport (finalRecipient originalMessageId disposition : Str)
    (receivedContentMic : Option Str) (text : Str) : Str :=
  let boundary := mdnBoundaryFromMessageId originalMessageId
  crlfLines
      [Str.lit "Content-Type: multipart/report; report-type=disposition-notification; boundary=" ++
          ['"'] ++ boundary ++ ['"'],
        .lit "MIME-Version: 1.0", [], .lit "--" ++ boundary,
        .lit "Content-Type: text/plain; charset=us-ascii", [], text, [], .lit "--" ++ boundary,
        .lit "Content-Type: message/disposition-notification", []] ++
    (notificationPart finalRecipient originalMessageId disposition receivedContentMic ++
      crlfLines [[], .lit "--" ++ boundary ++ .lit "--"])

/-- The text of a generated MDN. -/
def mdnText : Str := .lit "The message has been received and processed by ASX."

/-- The check of one value of `generate_mdn`. -/
def checkMdnValue (session : SessionContext) (value : Str × Str) : Result Unit :=
  Except.rejectIf ((Str.utf8 value.2).any (fun b => b == 0x0D || b == 0x0A || b == 0) = true)
    ⟨.invalidInput, value.1 ++ " must not contain CR, LF or NUL",
      .forSession "as2_generate_mdn" session⟩

/-- `generate_mdn`. -/
def generateMdn (session : SessionContext) (originalMessageId disposition : Str)
    (receivedContentMic : Option Str) : Result Bytes := do
  Except.rejectIf (Str.trim originalMessageId = []) ⟨.invalidInput,
    "original_message_id must not be empty", .forSession "as2_generate_mdn" session⟩
  Except.rejectIf (Str.trim disposition = []) ⟨.invalidInput,
    "disposition must not be empty", .forSession "as2_generate_mdn" session⟩
  forM ([("original_message_id", originalMessageId), ("disposition", disposition),
    ("received_content_mic", receivedContentMic.getD []), ("partner_id", session.partnerId)] :
      List (Str × Str)) (checkMdnValue session)
  pure (Str.utf8 (mdnReport session.partnerId originalMessageId disposition receivedContentMic
    mdnText))

end Asx
