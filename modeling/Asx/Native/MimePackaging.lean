import Asx.Native.Mime

/-!
# MIME packaging of the send path

`as4/mime_packaging.rs`: the checks of a Content-ID and of a media type, and the builder of a
`multipart/related` body. A builder's writes into a `Vec` do not fail, so a writer here returns
the bytes that it appends.
-/

namespace Asx

/-! ## Checks -/

/-- The refusal of a caller's value. -/
def sendInputError (message : Str) : AsxError := ⟨.invalidInput, message, .new "as4_send_validate"⟩

/-- A byte as `{:02X}` prints it. -/
def hexUpperByte (b : UInt8) : Str := Str.toAsciiUppercase (hexLower [b])

/-- Whether a byte may not stand in a Content-ID. -/
def isBadContentIdByte (b : UInt8) : Bool :=
  !(0x21 ≤ b && b ≤ 0x7E) || b == 0x22 || b == 0x3C || b == 0x3E || b == 0x5C

/-- `validate_content_id`. -/
def validateContentId (value field : Str) : Result Unit := do
  let bytes := Str.utf8 value
  Except.rejectIf (bytes = [] ∨ bytes.length > 255) (sendInputError (field ++
    " must be 1-255 bytes, got " ++ showNat bytes.length ++ " bytes"))
  match bytes.find? isBadContentIdByte with
  | some bad => throw (sendInputError (field ++ " contains byte 0x" ++ hexUpperByte bad ++
      "; a Content-ID is printable ASCII without space, '\"', '<', '>' or '\\'"))
  | none => pure ()

/-- `is_tchar`. -/
def isTchar (b : UInt8) : Bool :=
  (0x41 ≤ b && b ≤ 0x5A) || (0x61 ≤ b && b ≤ 0x7A) || (0x30 ≤ b && b ≤ 0x39) ||
    (Str.utf8 "!#$%&'*+-.^_`|~").contains b

/-- `token`: what follows the token at the front, which is not empty. -/
def skipToken (s : Bytes) : Option Bytes :=
  if s.head?.any isTchar then some (s.dropWhile isTchar) else none

/-- The loop of `quoted_string`, after the opening quote. -/
def skipQuoted : Bytes → Option Bytes
  | [] => none
  | 0x22 :: s => some s
  | [0x5C] => none
  | 0x5C :: _ :: s => skipQuoted s
  | _ :: s => skipQuoted s

/-- `quoted_string`: what follows the quoted string at the front. -/
def skipQuotedString : Bytes → Option Bytes
  | 0x22 :: s => skipQuoted s
  | _ => none

/-- `skip_spaces`. -/
def skipSpaces (s : Bytes) : Bytes := s.dropWhile (· == 0x20)

/-- The loop of `parse` over the parameters. Every round takes at least one byte, so the length
    of the value bounds their number. -/
def parseMediaParameters : Nat → Bytes → Option Unit
  | 0, _ => none
  | rounds + 1, s =>
    match skipSpaces s with
    | [] => if s = [] then some () else none
    | 0x3B :: parameter =>
      match skipToken (skipSpaces parameter) with
      | some (0x3D :: value) =>
        ((skipToken value).or (skipQuotedString value)).bind (parseMediaParameters rounds)
      | _ => none
    | _ => none

/-- The `parse` of `validate_media_type`. -/
def parseMediaType (bytes : Bytes) : Option Unit :=
  match skipToken bytes with
  | some (0x2F :: subtype) => (skipToken subtype).bind (parseMediaParameters (bytes.length + 1))
  | _ => none

/-- `validate_media_type`. -/
def validateMediaType (value field : Str) : Result Unit :=
  let bytes := Str.utf8 value
  match bytes.find? fun b => !(0x20 ≤ b && b < 0x7F) with
  | some bad => .error (sendInputError (field ++ " contains byte 0x" ++ hexUpperByte bad ++
      "; a media type is printable ASCII"))
  | none => Except.okOr (parseMediaType bytes) (sendInputError (field ++ " " ++ Str.debug value ++
      " is not a media type (type/subtype with optional ; name=value parameters)"))

/-! ## The builder -/

/-- `MIME_BOUNDARY_PREFIX`. -/
def mimeBoundaryPrefix : Str := "----boundary-asx-"

/-- `MimeAttachment`. -/
structure MimeAttachment where
  contentId : Str
  contentType : Str
  transferEncoding : Str
  body : Bytes
  disposition : Option Str := none
deriving DecidableEq, Repr

/-- `write_crlf_line`. -/
def writeCrlfLine (line stage : Str) : Result Bytes :=
  match (Str.utf8 line).find? fun b => b < 0x20 || b == 0x7F with
  | some bad => .error ⟨.invalidInput, "MIME header line contains control character 0x" ++
      hexUpperByte bad, .new stage⟩
  | none => .ok (Str.utf8 line ++ crlf)

/-- `write_attachment`. -/
def writeAttachment (attachment : MimeAttachment) : Result Bytes := do
  let type ← writeCrlfLine ("Content-Type: " ++ attachment.contentType) "mime_packaging"
  let encoding ← writeCrlfLine ("Content-Transfer-Encoding: " ++ attachment.transferEncoding)
    "mime_packaging"
  let id ← writeCrlfLine ("Content-ID: <" ++ attachment.contentId ++ ">") "mime_packaging"
  let disposition ← match attachment.disposition with
    | some disposition => writeCrlfLine ("Content-Disposition: " ++ disposition) "mime_packaging"
    | none => pure []
  pure (type ++ encoding ++ id ++ disposition ++ crlf ++ attachment.body ++ crlf)

/-- `MimePackageBuilder`. -/
structure MimePackageBuilder where
  boundary : Str
  rootSoapContentType : Str
  soapAttachment : Option MimeAttachment
  attachments : List MimeAttachment
deriving DecidableEq, Repr

namespace MimePackageBuilder

/-- `{:016x}`. -/
def hex16 (n : UInt64) : Str := List.leftpad 16 '0' (Str.hexNat n.toNat)

/-- `MimePackageBuilder::new`, for the random bytes and the value of the counter. -/
def new (random counter : UInt64) : MimePackageBuilder where
  boundary := mimeBoundaryPrefix ++ hex16 (random + counter)
  rootSoapContentType := "application/soap+xml"
  soapAttachment := none
  attachments := []

/-- `with_soap_body`. -/
def withSoapBody (b : MimePackageBuilder) (soapXml : Bytes) : MimePackageBuilder :=
  let soap : MimeAttachment :=
    { contentId := "soap-body@example.com"
      contentType := b.rootSoapContentType ++ "; charset=UTF-8"
      transferEncoding := "8bit"
      body := soapXml }
  { b with soapAttachment := some soap }

/-- `add_attachments`. -/
def addAttachments (b : MimePackageBuilder) (attachments : List MimeAttachment) :
    MimePackageBuilder :=
  { b with attachments := b.attachments ++ attachments }

/-- A part with the delimiter before it. -/
def writePart (b : MimePackageBuilder) (attachment : MimeAttachment) : Result Bytes := do
  let delimiter ← writeCrlfLine ("--" ++ b.boundary) "mime_packaging"
  let part ← writeAttachment attachment
  pure (delimiter ++ part)

/-- `build`. -/
def build (b : MimePackageBuilder) : Result Bytes := do
  let soap ← Except.okOr b.soapAttachment ⟨.policyViolation,
    "MIME package requires at least a SOAP body attachment", .new "mime_packaging"⟩
  let root ← b.writePart soap
  let parts ← b.attachments.mapM b.writePart
  let closing ← writeCrlfLine ("--" ++ b.boundary ++ "--") "mime_packaging"
  pure (root ++ parts.flatten ++ closing)

/-- `content_type`. -/
def contentType (b : MimePackageBuilder) : Str :=
  "multipart/related; boundary=\"" ++ b.boundary ++ "\"; type=\"" ++ b.rootSoapContentType ++ "\""

end MimePackageBuilder

end Asx
