import Asx.Native.Decrypt
import Asx.Native.Mime
import Asx.Native.Verifier

/-!
# The payload parts of an inbound message

`as4/receive/payload.rs`: the parts that the signed header declares, their match against the
MIME parts, and the properties under which they are opened. The hash maps of
`PartProperties` are only inserted into and looked up, so they are finite maps here.
-/

namespace Asx

open Xml

/-- `is_eb`. -/
def isEb (n : Node) (loc : Str) : Bool := n.hasTagName Ns.ebms3 loc

/-- The `messaging` of `payload.rs`. -/
def theMessaging (session : SessionContext) (doc : Document) (messageId : Str) : Result Node :=
  match messagingNodes doc with
  | [one] => .ok one
  | _ => .error (receiveError session messageId .interopViolation
      "AS4 envelope must contain exactly one eb:Messaging header block")

/-! ## The declared parts -/

/-- The `eb:PartInfo` elements that declare a part. -/
def declaringPartInfos (messaging : Node) : List Node :=
  (messaging.descendants.filter (isEb · "PartInfo")).filter fun n =>
    n.parent?.any (isEb · "PayloadInfo")

/-- One round of the loop of `declared_parts`. -/
def declarePart (session : SessionContext) (messageId : Str) (declared : List Str)
    (partInfo : Node) : Result (List Str) := do
  let href := (partInfo.attribute? "href").getD []
  Except.rejectIf (hasCidScheme href = false) (receiveError session messageId .interopViolation
    ("eb:PartInfo href " ++ Str.debug href ++ " does not name a MIME attachment: inline SOAP " ++
      "body payloads are not supported (PEPPOL/CEF/BDEW require SwA attachment packaging)"))
  let cid := normalizeCid href
  Except.rejectIf (cid = [] ∨ cid ∈ declared) (receiveError session messageId .interopViolation
    ("eb:PartInfo href " ++ Str.debug href ++ " is empty or declared twice"))
  pure (declared ++ [cid])

/-- `declared_parts`. -/
def declaredParts (session : SessionContext) (doc : Document) (messageId : Str) :
    Result (List Str) := do
  let messaging ← theMessaging session doc messageId
  let declared ← (declaringPartInfos messaging).foldlM (declarePart session messageId) []
  Except.rejectIf (declared.length > maxInboundPayloads) (receiveError session messageId
    .payloadTooLarge ("AS4 message declares more than " ++ showNat maxInboundPayloads ++
      " payload parts"))
  pure declared

/-! ## Messages without a payload -/

/-- Whether a child leaves a SOAP Body empty. -/
def isBlank (c : Node) : Bool :=
  match c.tree with
  | .comment _ => true
  | .text s => Str.trim s == []
  | _ => false

/-- The XML Encryption element that a message without a payload may not carry. -/
def encryptionElement? (doc : Document) : Option Node :=
  doc.descendants.find? fun n => n.isElement &&
    (n.namespaceUri == some Ns.xenc || n.namespaceUri == some Ns.xenc11)

/-- `check_payload_less`. -/
def checkPayloadLess (session : SessionContext) (messageId : Str) (doc : Document)
    (multipart : Option MultipartAs4Payload) : Result Unit := do
  forM (encryptionElement? doc) fun xenc => .error (receiveError session messageId
    .policyViolation ("a payload-less path-switch message carries xenc:" ++ xenc.localName ++
      "; it has nothing to encrypt (AS4 Profile 1.0 §5.1.6, BDEW AS4-Profil 1.2 §2.3.7)"))
  forM (multipart.bind (·.payloads.head?)) fun part => .error (receiveError session messageId
    .interopViolation ("MIME part cid:" ++ part.contentId ++ " is not declared by eb:PartInfo"))
  let body := doc.rootElement.children.find? (·.hasTagName Ns.soap12 "Body")
  Except.rejectIf (¬ body.any fun b => b.children.all isBlank) (receiveError session messageId
    .interopViolation "a message without eb:PartInfo must have an empty SOAP Body")

/-! ## The MIME parts -/

/-- The loop of `match_parts` over the MIME parts, after those in `before`. -/
def checkMimeParts (session : SessionContext) (messageId : Str) (declared : List Str) :
    List InboundAttachment → List InboundAttachment → Result Unit
  | _, [] => .ok ()
  | before, part :: rest => do
    Except.rejectIf (part.contentId ∉ declared) (receiveError session messageId
      .interopViolation ("MIME part cid:" ++ part.contentId ++
        " is not declared by eb:PartInfo"))
    Except.rejectIf (before.any fun p => p.contentId == part.contentId) (receiveError session
      messageId .interopViolation ("two MIME parts carry Content-ID cid:" ++ part.contentId))
    checkMimeParts session messageId declared (before ++ [part]) rest

/-- `match_parts`. -/
def matchParts (session : SessionContext) (messageId : Str) (declared : List Str)
    (multipart : Option MultipartAs4Payload) : Result (List InboundAttachment) := do
  let multipart ← Except.okOr multipart (receiveError session messageId .policyViolation
    "AS4 inbound payload must be multipart/related with a detached payload attachment")
  Except.rejectIf (declared = []) (receiveError session messageId .interopViolation
    ("AS4 message declares no payload part: inline SOAP body payloads are not supported. " ++
      "PEPPOL/CEF require MIME multipart/related attachment packaging. If the sending partner " ++
      "uses inline body mode, reconfigure their AS4 gateway to use SwA MIME attachment " ++
      "packaging."))
  checkMimeParts session messageId declared [] multipart.payloads
  declared.mapM fun cid =>
    Except.okOr (multipart.payloads.find? (·.contentId == cid)) (receiveError session messageId
      .interopViolation ("eb:PartInfo declares cid:" ++ cid ++ " but no MIME part carries it"))

/-! ## Part properties -/

/-- `PartProperties`. -/
structure PartProperties where
  compression : OrdMap Str Str := .empty
  mimeTypes : OrdMap Str Str := .empty

/-- The two slots that `part_properties` fills for one `eb:PartInfo`. -/
structure PropertySlots where
  compression : Option (Option Str) := none
  mimeType : Option (Option Str) := none

/-- One `eb:Property` in the inner loop of `part_properties`. -/
def addProperty (session : SessionContext) (messageId cid : Str) (slots : PropertySlots)
    (property : Node) : Result PropertySlots := do
  Except.rejectIf (¬ property.parent?.any (isEb · "PartProperties")) (receiveError session
    messageId .interopViolation
    "eb:PartInfo carries an eb:Property outside eb:PartProperties (ebMS3 header schema)")
  let name := property.attribute? "name"
  let twice := receiveError session messageId .interopViolation ("eb:PartInfo cid:" ++ cid ++
    " declares the " ++ name.getD [] ++ " property more than once")
  if name = some ("CompressionType" : Str) then do
    let value ← propertyValueFromNode property session "as4_receive_push"
    Except.rejectIf slots.compression.isSome twice
    pure { slots with compression := some value }
  else if name = some ("MimeType" : Str) then do
    let value ← propertyValueFromNode property session "as4_receive_push"
    Except.rejectIf slots.mimeType.isSome twice
    pure { slots with mimeType := some value }
  else pure slots

/-- `map.insert(key, value)` when there is a value. -/
def insertSome (m : OrdMap Str Str) (key : Str) : Option Str → OrdMap Str Str
  | some value => m.insert key value
  | none => m

/-- The slots of one `eb:PartInfo`. -/
def propertySlots (session : SessionContext) (messageId cid : Str) (partInfo : Node) :
    Result PropertySlots :=
  (partInfo.descendants.filter (isEb · "Property")).foldlM (addProperty session messageId cid) {}

/-- One round of the outer loop of `part_properties`. -/
def addPartInfo (session : SessionContext) (messageId : Str) (out : PartProperties)
    (partInfo : Node) : Result PartProperties :=
  match partInfo.attribute? "href" with
  | none => .ok out
  | some href => do
    let cid := normalizeCid href
    let slots ← propertySlots session messageId cid partInfo
    pure ⟨insertSome out.compression cid slots.compression.join,
      insertSome out.mimeTypes cid slots.mimeType.join⟩

/-- `part_properties`. -/
def partProperties (session : SessionContext) (doc : Document) (messageId : Str) :
    Result PartProperties := do
  let messaging ← theMessaging session doc messageId
  (messaging.descendants.filter (isEb · "PartInfo")).foldlM (addPartInfo session messageId) {}

/-! ## Types and compression -/

/-- `AS4_COMPRESSION_TYPE`. -/
def as4CompressionType : Str := Str.lit "application/gzip"

/-- `restored_type`. -/
def restoredType (session : SessionContext) (messageId cid : Str) (mimeType : Option Str)
    (compressed : Bool) : Result (Option Str) :=
  match mimeType with
  | some declared => do
    let media := Str.trim ((Str.splitChar ';' declared).headD [])
    Except.rejectIf (Str.eqIgnoreAsciiCase media as4CompressionType ≠ compressed)
      (receiveError session messageId .interopViolation ("xenc:EncryptedData for cid:" ++ cid ++
        " declares MimeType " ++ Str.debug declared ++ " but eb:PartInfo " ++
        (if compressed then "declares" else "declares no" : String).toList ++
        " a CompressionType"))
    pure (some declared)
  | none => .ok (if compressed then some as4CompressionType else none)

/-- `decompress_payload_if_declared`. -/
def decompressPayloadIfDeclared (ops : XmlEncOps) (session : SessionContext) (contentId : Str)
    (compressionTypes : OrdMap Str Str) (payload : Bytes) : Result Bytes :=
  match compressionTypes.get (normalizeCid contentId) with
  | none => .ok payload
  | some compressionType => do
    Except.rejectIf (¬ Str.eqIgnoreAsciiCase compressionType as4CompressionType)
      ⟨.interopViolation, "AS4 payload declares unsupported CompressionType \"" ++
        compressionType ++ "\"; the AS4 profile defines only \"" ++ as4CompressionType ++ "\"",
        .forSession "as4_receive_decompress" session⟩
    (ops.decompressGzip payload).mapError fun err =>
      ⟨err.code, "failed to decompress AS4 payload attachment: " ++ err.message,
        .forSession "as4_receive_decompress" session⟩

end Asx
