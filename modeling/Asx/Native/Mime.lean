import Asx.Native.Core

/-!
# MIME parsing of the receive path

`as4/stream.rs`: splitting a `multipart/related` body into the SOAP root and the other parts.
The parser's cursor is the rest of the body.
-/

namespace Asx

/-! ## Bytes -/

/-- `u8::is_ascii_whitespace`. -/
def isAsciiWhitespaceByte (b : UInt8) : Bool :=
  b == 0x20 || b == 0x09 || b == 0x0A || b == 0x0C || b == 0x0D

/-- `trim_ascii_whitespace`. -/
def trimAsciiWhitespace (bytes : Bytes) : Bytes :=
  ((bytes.dropWhile isAsciiWhitespaceByte).reverse.dropWhile isAsciiWhitespaceByte).reverse

/-- `u8::to_ascii_lowercase`. -/
def lowerByte (b : UInt8) : UInt8 := if 0x41 ≤ b ∧ b ≤ 0x5A then b + 0x20 else b

/-- `eq_ignore_ascii_case` on bytes. -/
def eqIgnoreAsciiCaseBytes (a b : Bytes) : Bool := a.map lowerByte == b.map lowerByte

/-- `find_subslice`, as the bytes before the first occurrence and those from it on. -/
def cutAt (needle : Bytes) : Bytes → Option (Bytes × Bytes)
  | [] => if needle = [] then some ([], []) else none
  | b :: bs =>
    if needle.isPrefixOf (b :: bs) then some ([], b :: bs)
    else (cutAt needle bs).map fun r => (b :: r.1, r.2)

/-- `slice::strip_prefix`. -/
def stripPrefixBytes (p s : Bytes) : Option Bytes :=
  if p.isPrefixOf s then some (s.drop p.length) else none

/-- `slice::strip_suffix`. -/
def stripSuffixBytes (p s : Bytes) : Option Bytes :=
  if p.isSuffixOf s then some (s.take (s.length - p.length)) else none

/-- `slice::split` at a byte: the pieces between its occurrences, at least one. -/
def splitByte (c : UInt8) : Bytes → List Bytes
  | [] => [[]]
  | x :: s =>
    if x = c then [] :: splitByte c s
    else
      match splitByte c s with
      | [] => [[x]]
      | piece :: pieces => (x :: piece) :: pieces

/-- CR LF. -/
def crlf : Bytes := [0x0D, 0x0A]

/-- A parse error of the MIME reader. -/
def mimeError (message : Str) : AsxError := ⟨.parseFailed, message, .new "as4_receive_push"⟩

/-! ## Headers -/

/-- The loop of `parse_multipart_boundary_from_content_type` over the parameters. -/
def boundaryParameter : List Str → Result (Option Str)
  | [] => .error (mimeError "multipart/related Content-Type is missing required boundary parameter")
  | segment :: rest =>
    let kv := (Str.splitOnce '=' (Str.trim segment)).getD (Str.trim segment, [])
    if Str.eqIgnoreAsciiCase (Str.trim kv.1) "boundary" then do
      let rawValue := Str.trim kv.2
      let value := Str.trim
        (((Str.stripPrefix "\"" rawValue).bind (Str.stripSuffix "\"")).getD rawValue)
      Except.rejectIf (value = [])
        (mimeError "multipart/related Content-Type has an empty boundary parameter")
      Except.rejectIf (("--" : Str).isSuffixOf value)
        (mimeError "multipart/related boundary parameter is malformed")
      pure (some value)
    else boundaryParameter rest

/-- `parse_multipart_boundary_from_content_type`. -/
def parseMultipartBoundaryFromContentType (contentType : Str) : Result (Option Str) :=
  match Str.splitChar ';' contentType with
  | mediaType :: segments =>
    if Str.eqIgnoreAsciiCase (Str.trim mediaType) "multipart/related" then
      boundaryParameter segments
    else .ok none
  | [] => .ok none

/-- `MAX_INBOUND_PAYLOADS`. -/
def maxInboundPayloads : Nat := 16

/-- `normalized_cid_bytes`. -/
def normalizedCidBytes (contentId : Bytes) : Bytes :=
  let s := trimAsciiWhitespace contentId
  let s := (stripPrefixBytes (Str.utf8 "<") s).getD s
  let s := (stripSuffixBytes (Str.utf8 ">") s).getD s
  if s.length ≥ 4 ∧ eqIgnoreAsciiCaseBytes (s.take 4) (Str.utf8 "cid:") then s.drop 4 else s

/-- The loop of `header_value_from_block` over the lines. -/
def headerValueFromLines (name : Bytes) : List Bytes → Result (Option Str)
  | [] => .ok none
  | rawLine :: rest =>
    let line := trimAsciiWhitespace ((stripSuffixBytes [0x0D] rawLine).getD rawLine)
    if line = [] then headerValueFromLines name rest
    else
      match cutAt (Str.utf8 ":") line with
      | none => .error (mimeError "MIME header line missing ':' separator")
      | some (before, after) =>
        if eqIgnoreAsciiCaseBytes (trimAsciiWhitespace before) name then do
          let value ← Except.okOr (Str.fromUtf8 (trimAsciiWhitespace (after.drop 1)))
            (mimeError "MIME header value is not valid UTF-8")
          pure (some value)
        else headerValueFromLines name rest

/-- `header_value_from_block`. -/
def headerValueFromBlock (headers : Bytes) (name : Str) : Result (Option Str) :=
  headerValueFromLines (Str.utf8 name) (splitByte 0x0A headers)

/-- `content_id_from_block`. -/
def contentIdFromBlock (headers : Bytes) : Result (Option Str) := do
  match ← headerValueFromBlock headers "Content-ID" with
  | none => pure none
  | some value =>
    Except.rejectIf (¬ value.all Str.isAscii) (mimeError "MIME Content-ID value is not ASCII")
    pure ((Str.fromUtf8 (normalizedCidBytes (Str.utf8 value))).filter (· ≠ []))

/-- `content_type_from_block`. -/
def contentTypeFromBlock (headers : Bytes) : Option Str := do
  let text ← Str.fromUtf8 headers
  (Str.lines text).findSome? fun line => do
    let (name, value) ← Str.splitOnce ':' line
    if Str.eqIgnoreAsciiCase (Str.trim name) "content-type" then some (Str.trim value) else none

/-! ## Parts -/

/-- `StreamingMimePartRef`. -/
structure StreamingMimePartRef where
  headers : Bytes
  body : Bytes
deriving DecidableEq, Repr

/-- `StreamingMimeParser`: the boundary, the body from the cursor on, and whether the closing
    delimiter was read. -/
structure StreamingMimeParser where
  boundary : Bytes
  rest : Bytes
  exhausted : Bool
deriving DecidableEq, Repr

namespace StreamingMimeParser

/-- `--<boundary>`. -/
def boundaryStart (boundary : Bytes) : Bytes := Str.utf8 "--" ++ boundary

/-- `\r\n--<boundary>`. -/
def boundaryCrlf (boundary : Bytes) : Bytes := crlf ++ boundaryStart boundary

/-- `--<boundary>--`. -/
def boundaryEnd (boundary : Bytes) : Bytes := boundaryStart boundary ++ Str.utf8 "--"

/-- `StreamingMimeParser::new`. -/
def new (rawBody : Bytes) (boundary : Str) : Result StreamingMimeParser := do
  let boundary := Str.utf8 boundary
  let first ←
    if (boundaryStart boundary).isPrefixOf rawBody then pure rawBody
    else
      -- a preamble may precede the first delimiter, which then starts a line
      Except.okOr ((cutAt (boundaryCrlf boundary) rawBody).map fun r => r.2.drop 2)
        (mimeError "multipart body has no boundary delimiter")
  let rest ← Except.okOr (stripPrefixBytes crlf (first.drop (boundaryStart boundary).length))
    (mimeError "multipart boundary delimiter not followed by CRLF")
  pure ⟨boundary, rest, false⟩

/-- The header block of the next part, and what follows the blank line after it. -/
def cutHeaders (rest : Bytes) : Option (Bytes × Bytes) :=
  ((cutAt (crlf ++ crlf) rest).or (cutAt [0x0A, 0x0A] rest)).map fun r =>
    (r.1, r.2.drop (if (crlf ++ crlf).isPrefixOf r.2 then 4 else 2))

/-- `next_part_slice`. -/
def nextPartSlice (p : StreamingMimeParser) :
    Result (Option (StreamingMimePartRef × StreamingMimeParser)) :=
  if p.exhausted then .ok none
  else do
    let (headers, afterHeaders) ← Except.okOr (cutHeaders p.rest)
      (mimeError "multipart part is missing header/body separator")
    let (body, following) ← Except.okOr (cutAt (boundaryCrlf p.boundary) afterHeaders)
      (mimeError "multipart part is missing following boundary delimiter")
    let rest ← Except.okOr (stripPrefixBytes crlf following)
      (mimeError "multipart boundary delimiter is not CRLF-delimited")
    if (boundaryEnd p.boundary).isPrefixOf rest then
      pure (some (⟨headers, body⟩, ⟨p.boundary, rest, true⟩))
    else if (boundaryStart p.boundary).isPrefixOf rest then do
      let rest ← Except.okOr
        (stripPrefixBytes crlf (rest.drop (boundaryStart p.boundary).length))
        (mimeError "multipart boundary delimiter not followed by CRLF")
      pure (some (⟨headers, body⟩, ⟨p.boundary, rest, false⟩))
    else if rest = [] then pure (some (⟨headers, body⟩, ⟨p.boundary, rest, true⟩))
    else throw (mimeError "multipart boundary delimiter is malformed")

end StreamingMimeParser

/-! ## The message -/

/-- `InboundAttachment`. -/
structure InboundAttachment where
  contentId : Str
  contentType : Option Str
  bytes : Bytes
deriving DecidableEq, Repr

/-- `MultipartAs4Payload`. -/
structure MultipartAs4Payload where
  soapXml : Bytes
  payloads : List InboundAttachment
deriving DecidableEq, Repr

/-- The loop of `extract_multipart_related_payload_if_present` over the parts after the root;
    `room` is how many more parts are accepted. -/
def payloadParts (session : SessionContext) (stage : Str) :
    Nat → StreamingMimeParser → Result (List InboundAttachment)
  | room, parser => do
    match ← parser.nextPartSlice with
    | none => pure []
    | some (part, parser) =>
      match room with
      | 0 => throw ⟨.payloadTooLarge, "AS4 message carries more than " ++
          showNat maxInboundPayloads ++ " payload attachments; refusing to resolve an " ++
          "unbounded attachment set", .forSession stage session⟩
      | room + 1 =>
        let contentId? ← contentIdFromBlock part.headers
        let contentId ← Except.okOr contentId? ⟨.parseFailed,
          "an AS4 MIME part carries no Content-ID; it cannot be tied to eb:PartInfo",
          .forSession stage session⟩
        let rest ← payloadParts session stage room parser
        pure (⟨contentId, contentTypeFromBlock part.headers, part.body⟩ :: rest)

/-- `extract_multipart_related_payload_if_present`. -/
def extractMultipartRelatedPayloadIfPresent (rawBody : Bytes) (httpContentType : Str)
    (session : SessionContext) (stage : Str) : Result (Option MultipartAs4Payload) := do
  match ← parseMultipartBoundaryFromContentType httpContentType with
  | none =>
    Except.rejectIf ((Str.utf8 "--").isPrefixOf rawBody) ⟨.parseFailed,
      "payload looks like multipart MIME but HTTP Content-Type is not multipart/related",
      .forSession stage session⟩
    pure none
  | some boundary =>
    let parser ← StreamingMimeParser.new rawBody boundary
    let first ← parser.nextPartSlice
    let (root, parser) ← Except.okOr first ⟨.parseFailed,
      "multipart/related AS4 body does not contain any parts", .forSession stage session⟩
    let rootContentType? ← headerValueFromBlock root.headers "Content-Type"
    let rootContentType ← Except.okOr rootContentType? ⟨.parseFailed,
      "multipart/related AS4 root part is missing Content-Type", .forSession stage session⟩
    let mediaType := Str.trim ((Str.splitChar ';' rootContentType).headD [])
    Except.rejectIf (¬ Str.eqIgnoreAsciiCase mediaType "application/soap+xml" ∧
        ¬ Str.eqIgnoreAsciiCase mediaType "application/xop+xml") ⟨.parseFailed,
      "multipart/related AS4 root part must be application/soap+xml (or the MTOM variant " ++
        "application/xop+xml), got: " ++ rootContentType, .forSession stage session⟩
    let payloads ← payloadParts session stage maxInboundPayloads parser
    pure (some ⟨root.body, payloads⟩)

end Asx
