import Asx.Native.Core
import Asx.Xml.WellFormed

/-!
# The user message parser

`as4/parser.rs`: reading the ebMS3 header of an inbound SOAP envelope. The parse state is
filled in two steps, as in the source: the loop over the header blocks finds the
`eb:Messaging`, and the fields are then read from its first `eb:UserMessage`.
-/

namespace Asx

open Xml

/-- `As4UserMessageParseState`. -/
structure As4UserMessageParseState where
  fromPartyType : Option Str := none
  toPartyType : Option Str := none
  hasMessaging : Bool := false
  hasUserMessage : Bool := false
  hasSecurity : Bool := false
  messagingMustUnderstandTrue : Bool := false
  messageId : Option Str := none
  refToMessageId : Option Str := none
  action : Option Str := none
  originalSender : Option Str := none
  finalRecipient : Option Str := none
  trackingIdentifier : Option Str := none
  service : Option Str := none
  conversationId : Option Str := none
  timestamp : Option Str := none
  fromPartyIds : List Str := []
  toPartyIds : List Str := []
  mpc : Option Str := none
  wsaMessageId : Option Str := none
  wsaAction : Option Str := none
  wsaTo : Option Str := none
  wsaReplyTo : Option Str := none
deriving DecidableEq, Repr

/-- `ParsedWsAddressingHeaders`; `wsaTo` is the source's `to`. -/
structure ParsedWsAddressingHeaders where
  messageId : Option Str
  action : Option Str
  wsaTo : Option Str
  replyTo : Option Str
deriving DecidableEq, Repr

/-- `ParsedAs4UserMessage`. -/
structure ParsedAs4UserMessage where
  messageId : Str
  action : Str
  fromPartyIds : List Str
  toPartyIds : List Str
  fromPartyType : Option Str
  toPartyType : Option Str
  mpc : Option Str
  conversationId : Option Str
  hasWsSecurityHeader : Bool
  service : Option Str
  refToMessageId : Option Str
  originalSender : Option Str
  finalRecipient : Option Str
  trackingIdentifier : Option Str
  timestamp : Option Str
  wsaHeaders : Option ParsedWsAddressingHeaders
deriving DecidableEq, Repr

/-- An error of the parser before the message id is known. -/
def userMessageError (session : SessionContext) (code : ErrorCode) (message : Str) : AsxError :=
  ⟨code, message, .forSession "as4_parse_user_message" session⟩

/-- An error of the parser about a message. -/
def userMessageErrorFor (session : SessionContext) (id : Str) (code : ErrorCode)
    (message : Str) : AsxError :=
  ⟨code, message, .forSessionWithMessage "as4_parse_user_message" session id⟩

/-! ## SOAP header blocks -/

/-- `SoapHeaderTargetingDom`. -/
structure SoapHeaderTargeting where
  mustUnderstandTrue : Bool := false
  invalidMustUnderstand : Bool := false
  role : Option Str := none

/-- One attribute in the loop of `parse_soap_header_targeting_dom`. -/
def SoapHeaderTargeting.addAttr (node : Node) (soapNs : Str) (targeting : SoapHeaderTargeting)
    (a : Attr) : SoapHeaderTargeting :=
  if node.attrNs a ≠ some soapNs then targeting
  else
    let normalized := Str.trim a.value
    if a.name.loc = ("mustUnderstand" : Str) then
      let value := normalized.map Str.toAsciiLower
      if value = ("true" : Str) ∨ value = ("1" : Str) then
        { targeting with mustUnderstandTrue := true }
      else if value ≠ ("false" : Str) ∧ value ≠ ("0" : Str) then
        { targeting with invalidMustUnderstand := true }
      else targeting
    else if a.name.loc = ("role" : Str) ∧ soapNs = Ns.soap12 then
      { targeting with role := some normalized }
    else targeting

/-- `parse_soap_header_targeting_dom`. -/
def parseSoapHeaderTargeting (node : Node) (soapNs : Str) : SoapHeaderTargeting :=
  node.tree.attrs.foldl (SoapHeaderTargeting.addAttr node soapNs) {}

/-- `SOAP12_ROLE_ULTIMATE_RECEIVER`. -/
def soap12RoleUltimateReceiver : Str :=
  Str.lit "http://www.w3.org/2003/05/soap-envelope/role/ultimateReceiver"

/-- `header_is_targeted_to_receiver_dom`. -/
def headerIsTargetedToReceiver (targeting : SoapHeaderTargeting) : Bool :=
  match targeting.role with
  | some role => Str.trim role == [] || Str.trim role == soap12RoleUltimateReceiver
  | none => true

/-- A trimmed, non-empty text overrides what was read before. -/
def textOr (n : Option Node) (old : Option Str) : Option Str :=
  match n.bind Node.text? with
  | some v => if Str.trim v = [] then old else some (Str.trim v)
  | none => old

/-- A WS-Addressing header block. -/
def readWsaBlock (state : As4UserMessageParseState) (child : Node) : As4UserMessageParseState :=
  let name := child.localName
  if name = ("MessageID" : Str) then
    { state with wsaMessageId := textOr (some child) state.wsaMessageId }
  else if name = ("Action" : Str) then
    { state with wsaAction := textOr (some child) state.wsaAction }
  else if name = ("To" : Str) then
    { state with wsaTo := textOr (some child) state.wsaTo }
  else if name = ("ReplyTo" : Str) then
    let address := child.descendants.find? (·.hasTagName Ns.wsa "Address")
    { state with wsaReplyTo := textOr address state.wsaReplyTo }
  else state

/-- One iteration of the loop over the header blocks; the second component is the
    `messaging_node`. -/
def readHeaderBlock (session : SessionContext) (soapNs : Str)
    (acc : As4UserMessageParseState × Option Node) (child : Node) :
    Result (As4UserMessageParseState × Option Node) := do
  let state := acc.1
  let targeting := parseSoapHeaderTargeting child soapNs
  if child.hasTagName Ns.ebms3 "Messaging" then
    Except.rejectIf state.hasMessaging (userMessageError session .interopViolation
      "AS4 SOAP Header contains duplicate eb:Messaging blocks")
    Except.rejectIf targeting.invalidMustUnderstand (userMessageError session .interopViolation
      "AS4 eb:Messaging has invalid SOAP mustUnderstand token")
    Except.rejectIf (¬ headerIsTargetedToReceiver targeting) (userMessageError session
      .interopViolation "AS4 eb:Messaging SOAP targeting must resolve to receiver role")
    pure ({ state with
      hasMessaging := true
      messagingMustUnderstandTrue :=
        state.messagingMustUnderstandTrue || targeting.mustUnderstandTrue }, acc.2.or (some child))
  else if child.hasTagName Ns.wsse "Security" then
    Except.rejectIf targeting.invalidMustUnderstand (userMessageError session .interopViolation
      "AS4 SOAP Header block has invalid SOAP mustUnderstand token")
    let targeted := headerIsTargetedToReceiver targeting
    Except.rejectIf (targeted ∧ state.hasSecurity) (userMessageError session .interopViolation
      "AS4 SOAP Header contains duplicate receiver-targeted wsse:Security blocks")
    pure ({ state with hasSecurity := state.hasSecurity || targeted }, acc.2)
  else if child.namespaceUri = some Ns.wsa then
    pure (readWsaBlock state child, acc.2)
  else
    Except.rejectIf (targeting.mustUnderstandTrue ∧ headerIsTargetedToReceiver targeting)
      (userMessageError session .interopViolation
        "AS4 SOAP Header contains unknown mandatory receiver-targeted block")
    Except.rejectIf targeting.invalidMustUnderstand (userMessageError session .interopViolation
      "AS4 SOAP Header block has invalid SOAP mustUnderstand token")
    pure acc

/-! ## Fields of the user message -/

/-- `descendant_texts`. -/
def descendantTexts (node : Node) (ns loc : Str) : List Str :=
  (((node.descendants.filter (·.hasTagName ns loc)).filterMap Node.text?).map Str.trim).filter
    (· ≠ [])

/-- `descendant_text`. -/
def descendantText (node : Node) (ns loc : Str) : Option Str := (descendantTexts node ns loc).head?

/-- Whether the node or one of its ancestors is this element of the ebMS3 header. -/
def within (n : Node) (loc : Str) : Bool := n.ancestors.any (·.hasTagName Ns.ebms3 loc)

/-- `first_party_type`. -/
def firstPartyType (userMessage : Node) (direction : Str) : Option Str :=
  ((userMessage.descendants.find? fun n =>
    n.hasTagName Ns.ebms3 "PartyId" && within n direction).bind (·.attribute? "type")).map Str.trim

/-- `party_ids_for`. -/
def partyIdsFor (userMessage : Node) (direction : Str) : List Str :=
  (((userMessage.descendants.filter fun n =>
    n.hasTagName Ns.ebms3 "PartyId" && within n direction).filterMap Node.text?).map
      Str.trim).filter (· ≠ [])

/-- `property_value_from_node`. -/
def propertyValueFromNode (node : Node) (session : SessionContext) (stage : Str) :
    Result (Option Str) :=
  let text := Str.trim
    (((node.children.filter (·.tree.isText)).filterMap Node.text?).flatten)
  if text ≠ [] then .ok (some text)
  else if (node.attribute? "value").isSome then
    .error ⟨.interopViolation, "eb:Property \"" ++ (node.attribute? "name").getD [] ++
      "\" carries its value in a `value` attribute; ebMS3 Property values are element text",
      .forSession stage session⟩
  else .ok none

/-- `message_property_values`. -/
def messagePropertyValues (userMessage : Node) (propertyName : Str) (session : SessionContext) :
    Result (List Str) := do
  let nodes := userMessage.descendants.filter fun n => n.hasTagName Ns.ebms3 "Property" &&
    n.attribute? "name" == some propertyName && within n "MessageProperties"
  let values ← nodes.mapM fun n => propertyValueFromNode n session "as4_parse_user_message"
  pure (values.filterMap id)

/-- A field that may occur once: a second value is refused. -/
def atMostOne (session : SessionContext) (field : Str) (values : List Str) : Result (Option Str) :=
  do
    Except.rejectIf (values.length > 1) (userMessageError session .interopViolation
      ("AS4 UserMessage contains duplicate " ++ field))
    pure values.head?

/-- A four-corner property of the message. -/
def fourCornerProperty (session : SessionContext) (userMessage : Node) (name : Str) :
    Result (Option Str) := do
  let values ← messagePropertyValues userMessage name session
  atMostOne session ("Property " ++ name) values

/-- The fields read from the `eb:UserMessage`. -/
def readUserMessage (session : SessionContext) (state : As4UserMessageParseState)
    (userMessage : Node) : Result As4UserMessageParseState := do
  let mpc := ((userMessage.attribute? "mpc").map Str.trim).filter (· ≠ [])
  let messageId ← atMostOne session "MessageId" (descendantTexts userMessage Ns.ebms3 "MessageId")
  let refToMessageId := descendantText userMessage Ns.ebms3 "RefToMessageId"
  let action ← atMostOne session "Action" (descendantTexts userMessage Ns.ebms3 "Action")
  let service := descendantText userMessage Ns.ebms3 "Service"
  let conversationId ← atMostOne session "ConversationId"
    (descendantTexts userMessage Ns.ebms3 "ConversationId")
  let timestamp := descendantText userMessage Ns.ebms3 "Timestamp"
  let originalSender ← fourCornerProperty session userMessage "originalSender"
  let finalRecipient ← fourCornerProperty session userMessage "finalRecipient"
  let trackingIdentifier ← fourCornerProperty session userMessage "trackingIdentifier"
  pure { state with
    hasUserMessage := true
    mpc, messageId, refToMessageId, action, service, conversationId, timestamp
    originalSender, finalRecipient, trackingIdentifier
    fromPartyIds := partyIdsFor userMessage "From"
    fromPartyType := firstPartyType userMessage "From"
    toPartyType := firstPartyType userMessage "To"
    toPartyIds := partyIdsFor userMessage "To" }

/-- The `eb:UserMessage` that is read: the first one below the `eb:Messaging`. -/
def firstUserMessage? (messaging : Node) : Option Node :=
  messaging.descendants.find? (·.hasTagName Ns.ebms3 "UserMessage")

/-- The header block loop of `parse_as4_user_message_summary_dom_from_doc`, with the checks
    of the envelope before it: the state and the `messaging_node`. -/
def readEnvelope (doc : Document) (session : SessionContext) :
    Result (As4UserMessageParseState × Option Node) := do
  let root := doc.rootElement
  Except.rejectIf (root.localName ≠ ("Envelope" : Str)) (userMessageError session .parseFailed
    "AS4 payload root element must be SOAP Envelope")
  let rootNs ← Except.okOr root.namespaceUri (userMessageError session .parseFailed
    "AS4 SOAP Envelope must declare namespace")
  Except.rejectIf (rootNs ≠ Ns.soap12) (userMessageError session .interopViolation
    "AS4 policy requires SOAP 1.2 envelope namespace")
  let header ← Except.okOr (root.children.find? (·.hasTagName rootNs "Header"))
    (userMessageError session .parseFailed "AS4 SOAP Envelope missing Header")
  Except.rejectIf (root.children.find? (·.hasTagName rootNs "Body")).isNone
    (userMessageError session .parseFailed "AS4 SOAP Envelope missing Body")
  (header.children.filter Node.isElement).foldlM (readHeaderBlock session rootNs) ({}, none)

/-- `parse_as4_user_message_summary_dom_from_doc`. -/
def parseAs4UserMessageSummary (doc : Document) (session : SessionContext) :
    Result As4UserMessageParseState := do
  let envelope ← readEnvelope doc session
  match envelope.2.bind firstUserMessage? with
  | some userMessage => readUserMessage session envelope.1 userMessage
  | none => pure envelope.1

/-! ## The message -/

/-- `build_parsed_wsa_headers`. -/
def buildParsedWsaHeaders (state : As4UserMessageParseState) : Option ParsedWsAddressingHeaders :=
  if state.wsaMessageId = none ∧ state.wsaAction = none ∧ state.wsaTo = none ∧
      state.wsaReplyTo = none then none
  else some ⟨state.wsaMessageId, state.wsaAction, state.wsaTo, state.wsaReplyTo⟩

/-- `is_valid_mpc_uri`. -/
def isValidMpcUri (value : Str) : Bool :=
  let trimmed := Str.trim value
  if trimmed = [] then false
  else if trimmed.any fun c => Str.isAsciiControl c || Str.isWhitespace c then false
  else
    match trimmed.findIdx? (· == ':') with
    | none => false
    | some colonIdx => colonIdx > 0 && colonIdx < trimmed.length - 1

/-- The checks of `parse_as4_user_message_from_doc` on the finished parse state. -/
def checkUserMessageState (session : SessionContext) (state : As4UserMessageParseState) :
    Result ParsedAs4UserMessage := do
  Except.rejectIf (state.hasMessaging = false) (userMessageError session .parseFailed
    "AS4 SOAP Header missing eb:Messaging")
  Except.rejectIf (state.hasUserMessage = false) (userMessageError session .parseFailed
    "AS4 eb:Messaging missing UserMessage")
  Except.rejectIf (state.messagingMustUnderstandTrue = false) (userMessageError session
    .interopViolation "AS4 eb:Messaging must set SOAP mustUnderstand=true")
  Except.rejectIf (state.hasSecurity = false) (userMessageError session .parseFailed
    "AS4 SOAP Header missing wsse:Security")
  let messageId ← Except.okOr state.messageId (userMessageError session .parseFailed
    "AS4 UserMessage missing MessageId")
  let action ← Except.okOr state.action (userMessageErrorFor session messageId .parseFailed
    "AS4 UserMessage missing Action")
  Except.rejectIf (state.fromPartyIds = []) (userMessageErrorFor session messageId .parseFailed
    "AS4 UserMessage missing From/PartyId")
  Except.rejectIf (state.toPartyIds = []) (userMessageErrorFor session messageId .parseFailed
    "AS4 UserMessage missing To/PartyId")
  Except.rejectIf (state.mpc.any fun mpc => !isValidMpcUri mpc) (userMessageErrorFor session
    messageId .interopViolation "AS4 UserMessage mpc must be a valid URI")
  let requireFourCorner := !session.profileBuilt
  Except.rejectIf (state.originalSender = none ∧ requireFourCorner) (userMessageErrorFor session
    messageId .parseFailed "AS4 UserMessage missing Property originalSender")
  Except.rejectIf (state.finalRecipient = none ∧ requireFourCorner) (userMessageErrorFor session
    messageId .parseFailed "AS4 UserMessage missing Property finalRecipient")
  Except.rejectIf (state.trackingIdentifier = none ∧ requireFourCorner) (userMessageErrorFor
    session messageId .parseFailed "AS4 UserMessage missing Property trackingIdentifier")
  pure { messageId, action
         fromPartyIds := state.fromPartyIds
         toPartyIds := state.toPartyIds
         fromPartyType := state.fromPartyType
         toPartyType := state.toPartyType
         mpc := state.mpc
         conversationId := state.conversationId
         hasWsSecurityHeader := state.hasSecurity
         service := state.service
         refToMessageId := state.refToMessageId
         originalSender := state.originalSender
         finalRecipient := state.finalRecipient
         trackingIdentifier := state.trackingIdentifier
         timestamp := state.timestamp
         wsaHeaders := buildParsedWsaHeaders state }

/-- `parse_as4_user_message_from_doc`. -/
def parseAs4UserMessageFromDoc (session : SessionContext) (doc : Document) :
    Result ParsedAs4UserMessage := do
  let state ← parseAs4UserMessageSummary doc session
  checkUserMessageState session state

end Asx
