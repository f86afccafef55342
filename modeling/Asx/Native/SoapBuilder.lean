import Asx.ForStd.Bytes
import Asx.Native.XmlOut

/-!
# The SOAP envelope builder

`SoapEnvelopeBuilder` of `crypto/soap_builder.rs`: the SOAP 1.2 envelope around an ebMS3
`UserMessage`, with the position of the `wsse:Security` header reserved when it is to be signed.
The `with_` methods are left out, which set a field each.
-/

namespace Asx

open XmlCall

/-- `WsAddressingHeaders`; `wsaTo` is the source's `to`. -/
structure WsAddressingHeaders where
  messageId : Str
  action : Str
  wsaTo : Str
  replyTo : Option Str
deriving DecidableEq, Repr

/-- An `eb:PartInfo`: Content-ID, media type and compression type. -/
structure PartInfo where
  contentId : Str
  mimeType : Str
  compressionType : Option Str
deriving DecidableEq, Repr

/-- `SoapEnvelopeBuilder`; the fields of the primary part are gathered in `primary`. -/
structure SoapEnvelopeBuilder where
  messageId : Str
  messageTimestamp : Option Str
  fromPartyId : Str
  toPartyId : Str
  fromPartyIdType : Option Str
  toPartyIdType : Option Str
  fromRole : Str
  toRole : Str
  agreementRef : Option Str
  agreementRefType : Option Str
  action : Str
  service : Str
  serviceType : Str
  conversationId : Option Str
  refToMessageId : Option Str
  originalSender : Str
  messageProperties : Bool
  finalRecipient : Str
  trackingIdentifier : Str
  payload : Bytes
  detachedPayloadReference : Bool
  primary : PartInfo
  extraPartInfos : List PartInfo
  wsAddressing : Option WsAddressingHeaders
deriving DecidableEq, Repr

/-- `SOAP_BODY_WSU_ID`. -/
def soapBodyWsuId : Str := .lit "as4-body"

/-- `MESSAGING_WSU_ID`. -/
def messagingWsuId : Str := .lit "as4-messaging"

/-- `EBMS_DEFAULT_ROLE`. -/
def ebmsDefaultRole : Str :=
  Str.lit "http://docs.oasis-open.org/ebxml-msg/ebms/v3.0/ns/core/200704/defaultRole"

/-- `EBCORE_PARTY_ID_TYPE_UNREGISTERED`. -/
def ebcorePartyIdTypeUnregistered : Str :=
  Str.lit "urn:oasis:names:tc:ebcore:partyid-type:unregistered"

/-- An attribute that is there when it has a value. -/
def optionalAttr (qname field : Str) (value : Option Str) : List XmlCall :=
  value.toList.map fun v => attr qname v field

/-- `write_property`. -/
def writeProperty (name value : Str) : List XmlCall :=
  [start (.lit "ebms:Property"), attr (.lit "name") name "eb:Property/@name", text value name,
    endElement]

/-- `write_part_info`. -/
def writePartInfo (part : PartInfo) : List XmlCall :=
  [start (.lit "ebms:PartInfo"),
    attr (.lit "href") (Str.lit "cid:" ++ part.contentId) "eb:PartInfo/@href",
    start (.lit "ebms:PartProperties")] ++
  writeProperty (.lit "MimeType") part.mimeType ++
  part.compressionType.toList.flatMap (writeProperty (.lit "CompressionType")) ++
  [endElement, endElement]

/-- A party of `eb:PartyInfo`. -/
def writeParty (element id : Str) (idType : Option Str) (role : Str) : List XmlCall :=
  [start element, start (.lit "ebms:PartyId")] ++
  optionalAttr (.lit "type") "eb:PartyId/@type" idType ++
  [text id "eb:PartyId", endElement, leaf (.lit "ebms:Role") role "eb:Role", endElement]

/-- The WS-Addressing header blocks. -/
def writeWsAddressing (wsa : WsAddressingHeaders) : List XmlCall :=
  [leaf (.lit "wsa:MessageID") wsa.messageId "wsa:MessageID",
    start (.lit "wsa:Action"),
    attr (.lit "soap:mustUnderstand") (.lit "true") "soap:mustUnderstand",
    text wsa.action "wsa:Action", endElement,
    leaf (.lit "wsa:To") wsa.wsaTo "wsa:To"] ++
  wsa.replyTo.toList.flatMap fun replyTo =>
    [start (.lit "wsa:ReplyTo"), leaf (.lit "wsa:Address") replyTo "wsa:ReplyTo/wsa:Address",
      endElement]

namespace SoapEnvelopeBuilder

/-- `SoapEnvelopeBuilder::new`. -/
def new (messageId fromPartyId toPartyId : Str) : SoapEnvelopeBuilder where
  messageId := messageId
  messageTimestamp := none
  fromPartyId := fromPartyId
  toPartyId := toPartyId
  fromPartyIdType := some ebcorePartyIdTypeUnregistered
  toPartyIdType := some ebcorePartyIdTypeUnregistered
  fromRole := ebmsDefaultRole
  toRole := ebmsDefaultRole
  agreementRef := none
  agreementRefType := none
  action := Str.lit "http://docs.oasis-open.org/ebxml-msg/ebms/v3.0/ns/core/200704/action"
  service := "http://example.org/example"
  serviceType := "example"
  conversationId := none
  refToMessageId := none
  originalSender := fromPartyId
  messageProperties := true
  finalRecipient := toPartyId
  trackingIdentifier := messageId
  payload := []
  detachedPayloadReference := false
  primary := ⟨"payload@example.org", "application/octet-stream", none⟩
  extraPartInfos := []
  wsAddressing := none

/-- The start of the envelope and the header. -/
def envelopeCalls (b : SoapEnvelopeBuilder) : List XmlCall :=
  [start (.lit "soap:Envelope"), ns (.lit "soap") Ns.soap12, ns (.lit "ebms") Ns.ebms3,
    ns (.lit "wsse") Ns.wsse, ns (.lit "wsu") Ns.wsu] ++
  (if b.wsAddressing.isSome then [ns (.lit "wsa") Ns.wsa] else []) ++
  [start (.lit "soap:Header")]

/-- `eb:MessageInfo`. -/
def messageInfoCalls (b : SoapEnvelopeBuilder) (messageTimestamp : Str) : List XmlCall :=
  [start (.lit "ebms:MessageInfo"), leaf (.lit "ebms:Timestamp") messageTimestamp "eb:Timestamp",
    leaf (.lit "ebms:MessageId") b.messageId "eb:MessageId"] ++
  b.refToMessageId.toList.map
    (fun refId => leaf (.lit "ebms:RefToMessageId") refId "eb:RefToMessageId") ++
  [endElement]

/-- `eb:PartyInfo`. -/
def partyInfoCalls (b : SoapEnvelopeBuilder) : List XmlCall :=
  [start (.lit "ebms:PartyInfo")] ++
  writeParty (.lit "ebms:From") b.fromPartyId b.fromPartyIdType b.fromRole ++
  writeParty (.lit "ebms:To") b.toPartyId b.toPartyIdType b.toRole ++
  [endElement]

/-- `eb:CollaborationInfo`. -/
def collaborationInfoCalls (b : SoapEnvelopeBuilder) : List XmlCall :=
  [start (.lit "ebms:CollaborationInfo")] ++
  (b.agreementRef.toList.flatMap fun agreement =>
    [start (.lit "ebms:AgreementRef")] ++
      optionalAttr (.lit "type") "eb:AgreementRef/@type" b.agreementRefType ++
      [text agreement "eb:AgreementRef", endElement]) ++
  [start (.lit "ebms:Service")] ++
  (if b.serviceType = [] then [] else [attr (.lit "type") b.serviceType "eb:Service/@type"]) ++
  [text b.service "eb:Service", endElement, leaf (.lit "ebms:Action") b.action "eb:Action",
    leaf (.lit "ebms:ConversationId") (b.conversationId.getD ['1']) "eb:ConversationId",
    endElement]

/-- `eb:MessageProperties`. -/
def messagePropertiesCalls (b : SoapEnvelopeBuilder) : List XmlCall :=
  if b.messageProperties then
    [start (.lit "ebms:MessageProperties")] ++
      writeProperty (.lit "originalSender") b.originalSender ++
      writeProperty (.lit "finalRecipient") b.finalRecipient ++
      writeProperty (.lit "trackingIdentifier") b.trackingIdentifier ++ [endElement]
  else []

/-- `eb:PayloadInfo`. -/
def payloadInfoCalls (b : SoapEnvelopeBuilder) : List XmlCall :=
  if b.payload ≠ [] ∨ b.detachedPayloadReference then
    [start (.lit "ebms:PayloadInfo")] ++ writePartInfo b.primary ++
      b.extraPartInfos.flatMap writePartInfo ++ [endElement]
  else []

/-- `eb:Messaging`. -/
def messagingCalls (b : SoapEnvelopeBuilder) (messageTimestamp : Str) : List XmlCall :=
  [start (.lit "ebms:Messaging"),
    attr (.lit "soap:mustUnderstand") (.lit "true") "soap:mustUnderstand",
    attr (.lit "wsu:Id") messagingWsuId "wsu:Id", start (.lit "ebms:UserMessage")] ++
  b.messageInfoCalls messageTimestamp ++ b.partyInfoCalls ++ b.collaborationInfoCalls ++
  b.messagePropertiesCalls ++ b.payloadInfoCalls ++ [endElement, endElement]

/-- The SOAP body and the end of the envelope. -/
def bodyCalls (b : SoapEnvelopeBuilder) : List XmlCall :=
  [endElement, start (.lit "soap:Body"), attr (.lit "wsu:Id") soapBodyWsuId "wsu:Id"] ++
  (if b.payload ≠ [] ∧ ¬ b.detachedPayloadReference then
    [start (.lit "asx:Payload"), ns (.lit "asx") (.lit "urn:asx:payload"),
      leaf (.lit "asx:MimeType") b.primary.mimeType "MimeType",
      leaf (.lit "asx:Base64") (Base64.encode b.payload) "payload", endElement]
  else []) ++ [endElement, endElement]

/-- The calls before the position of `wsse:Security`. -/
def headerCalls (b : SoapEnvelopeBuilder) (messageTimestamp : Str) : List XmlCall :=
  b.envelopeCalls ++ b.wsAddressing.toList.flatMap writeWsAddressing ++
    b.messagingCalls messageTimestamp

/-- `write`. -/
def write (b : SoapEnvelopeBuilder) (reserveSecurity : Bool) : Result (XmlDoc × Option Nat) := do
  let messageTimestamp ← Except.okOr b.messageTimestamp ⟨.invalidInput,
    "SoapEnvelopeBuilder requires an eb:Timestamp pinned with with_message_timestamp(..); " ++
      "reading the clock inside build() lets two builds of the same message disagree and ship " ++
      "an envelope its own signature does not cover", .new "as4_soap_builder"⟩
  let out ← XmlOut.new.declaration.run (b.headerCalls messageTimestamp)
  let reserved := if reserveSecurity then (out.slot.1, some out.slot.2) else (out, none)
  let out ← reserved.1.run b.bodyCalls
  let doc ← out.finish
  pure (doc, reserved.2)

/-- `build`. -/
def build (b : SoapEnvelopeBuilder) : Result Str := do
  let written ← b.write false
  written.1.intoString

end SoapEnvelopeBuilder

/-- `UnsignedEnvelope`. -/
structure UnsignedEnvelope where
  doc : XmlDoc
  slot : Nat
  text : Str
deriving DecidableEq, Repr

/-- `build_with_security_slot`. The slot is there (`write` reserved it). -/
def SoapEnvelopeBuilder.buildWithSecuritySlot (b : SoapEnvelopeBuilder) :
    Result UnsignedEnvelope := do
  let written ← b.write true
  pure ⟨written.1, written.2.getD 0, written.1.textWithEmptySlots⟩

/-- `UnsignedEnvelope::seal`. -/
def UnsignedEnvelope.sealed (envelope : UnsignedEnvelope) (header : Str) : Result Str := do
  let doc ← envelope.doc.fill envelope.slot header
  doc.intoString

end Asx
