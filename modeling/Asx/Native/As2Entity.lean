import Asx.ForStd.Base64
import Asx.ForStd.Lossy
import Asx.Native.Mdn
import Asx.Native.MimePackaging

/-!
# MIME entities of AS2

`as2/mic.rs`: the entity that is sent, signed and digested. `crypto/as2_smime.rs`: a verified
entity, split into its header block and its content. `as2/client.rs`: `valid_media_type`. A
`VerifiedSmimeEntity` stores where its content starts; here that is computed from its bytes.
-/

namespace Asx

/-! ## The outbound entity -/

/-- `build_mime_entity`. -/
def buildMimeEntity (contentType : Str) (contentTransferEncoding : Option Str) (content : Bytes) :
    Bytes :=
  Str.utf8 "Content-Type: " ++ Str.utf8 contentType ++ crlf ++
    (match contentTransferEncoding with
      | some cte => Str.utf8 "Content-Transfer-Encoding: " ++ Str.utf8 cte ++ crlf
      | none => []) ++ crlf ++ content

/-- `content_requires_base64`. -/
def contentRequiresBase64 (content : Bytes) : Bool :=
  content.any fun b => b ≥ 0x80 || (b < 0x20 && !(b == 0x09 || b == 0x0D || b == 0x0A))

/-- `wrap_base64_lines`. -/
def wrapBase64Lines (encoded : Str) : Str := ['\r', '\n'].intercalate (encoded.chunks 76)

/-- `build_outbound_entity`. -/
def buildOutboundEntity (contentType : Str) (content : Bytes) : Bytes :=
  if contentRequiresBase64 content then
    buildMimeEntity contentType (some "base64")
      (Str.utf8 (wrapBase64Lines (Base64.encode content)))
  else buildMimeEntity contentType (some "binary") content

/-! ## A verified entity -/

/-- `find_mime_header_break`: where the content starts, after the first blank line. -/
def findMimeHeaderBreak (bytes : Bytes) : Option Nat :=
  let crlfBreak := (cutAt [0x0D, 0x0A, 0x0D, 0x0A] bytes).map fun r => r.1.length + 4
  let lfBreak := (cutAt [0x0A, 0x0A] bytes).map fun r => r.1.length + 2
  match crlfBreak, lfBreak with
  | some a, some b => some (min a b)
  | some a, none => some a
  | none, some b => some b
  | none, none => none

/-- One line of the loop of `header_value`. -/
def unfoldHeaderLine (lines : List Str) (raw : Str) : List Str :=
  let line := (Str.stripSuffix ['\r'] raw).getD raw
  if line = [] then lines
  else
    match lines.getLast? with
    | some last =>
      if line.head? = some ' ' ∨ line.head? = some '\t' then
        lines.dropLast ++ [last ++ ' ' :: Str.trim line]
      else lines ++ [line]
    | none => lines ++ [line]

/-- `header_value`: the value of a header in a raw block, with folded lines joined. -/
def headerValue (headers : Bytes) (wantedLower : Str) : Option Str :=
  let lines := (Str.splitChar '\n' (Str.fromUtf8Lossy headers)).foldl unfoldHeaderLine []
  lines.findSome? fun line =>
    (Str.splitOnce ':' line).bind fun (name, value) =>
      if Str.eqIgnoreAsciiCase (Str.trim name) wantedLower then some (Str.trim value) else none

namespace VerifiedSmimeEntity

/-- `VerifiedSmimeEntity::from_entity_bytes`. -/
def fromEntityBytes (entity : Bytes) : VerifiedSmimeEntity := ⟨entity, none, []⟩

/-- `content_start`. -/
def contentStart (v : VerifiedSmimeEntity) : Nat := (findMimeHeaderBreak v.entity).getD 0

/-- `VerifiedSmimeEntity::content`. -/
def content (v : VerifiedSmimeEntity) : Bytes := v.entity.drop v.contentStart

/-- `VerifiedSmimeEntity::headers`. -/
def headers (v : VerifiedSmimeEntity) : Bytes := v.entity.take v.contentStart

/-- `VerifiedSmimeEntity::content_type`. -/
def contentType (v : VerifiedSmimeEntity) : Option Str := headerValue v.headers (Str.lit "content-type")

/-- `VerifiedSmimeEntity::decoded_content`; the text of the base64 library's error is cut. -/
def decodedContent (v : VerifiedSmimeEntity) : Result Bytes :=
  let encoding := Str.toAsciiLowercase
    ((headerValue v.headers (Str.lit "content-transfer-encoding")).getD [])
  if Str.trim encoding = ['b', 'a', 's', 'e', '6', '4'] then
    let compact := v.content.filter fun b => !isAsciiWhitespaceByte b
    Except.okOr (Base64.decodeBytes compact) ⟨.parseFailed,
      "signed MIME entity has invalid base64 content: ", .new "as2_smime_entity_decode"⟩
  else .ok v.content

end VerifiedSmimeEntity

/-! ## Media types -/

/-- The loop of `quoted_string` of `valid_media_type`, after the opening quote. -/
def skipQuotedLine : Bytes → Option Bytes
  | [] => none
  | 0x22 :: s => some s
  | [0x5C] => none
  | 0x5C :: _ :: s => skipQuotedLine s
  | 0x0D :: _ => none
  | 0x0A :: _ => none
  | _ :: s => skipQuotedLine s

/-- `quoted_string` of `valid_media_type`. -/
def skipQuotedStringLine : Bytes → Option Bytes
  | 0x22 :: s => skipQuotedLine s
  | _ => none

/-- The loop of the `parse` of `valid_media_type` over the parameters. -/
def parseMediaParametersLine : Nat → Bytes → Option Unit
  | 0, _ => none
  | rounds + 1, s =>
    match skipSpaces s with
    | [] => if s = [] then some () else none
    | 0x3B :: parameter =>
      match skipToken (skipSpaces parameter) with
      | some (0x3D :: value) =>
        ((skipToken value).or (skipQuotedStringLine value)).bind (parseMediaParametersLine rounds)
      | _ => none
    | _ => none

/-- The `parse` of `valid_media_type`. -/
def parseMediaTypeLine (bytes : Bytes) : Option Unit :=
  match skipToken bytes with
  | some (0x2F :: subtype) => (skipToken subtype).bind (parseMediaParametersLine (bytes.length + 1))
  | _ => none

/-- `valid_media_type`. -/
def validMediaType (value : Str) : Bool :=
  (Str.utf8 value).length ≤ 255 && (parseMediaTypeLine (Str.utf8 value)).isSome

end Asx
