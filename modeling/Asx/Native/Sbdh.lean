import Asx.Native.Decrypt
import Asx.Native.XmlOut

/-!
# Standard business documents

`StandardBusinessDocument::wrap` of `sbdh.rs`: a payload is put into its envelope. The source text
of a document's root element, which `roxmltree` gives as a range, is a function of the model.
-/

namespace Asx

open XmlCall

/-- The namespace of the envelope, `ns::SBDH`. -/
def sbdhNs : Str :=
  Str.lit "http://www.unece.org/cefact/namespaces/StandardBusinessDocumentHeader"

/-- `SbdhParty`. -/
structure SbdhParty where
  identifier : Str
  authority : Str
deriving DecidableEq, Repr

/-- `SbdhDocumentIdentification`; `docType` is the source's `type`. -/
structure SbdhDocumentIdentification where
  standard : Str
  typeVersion : Str
  instanceIdentifier : Str
  docType : Str
  multipleType : Bool
  creationDateAndTime : Str
deriving DecidableEq, Repr

/-- `SbdhScope`. -/
structure SbdhScope where
  scopeType : Str
  instanceIdentifier : Str
  identifier : Option Str
deriving DecidableEq, Repr

/-- `SbdhHeader`. -/
structure SbdhHeader where
  headerVersion : Str
  sender : SbdhParty
  receiver : SbdhParty
  documentIdentification : SbdhDocumentIdentification
  businessScope : List SbdhScope
deriving DecidableEq, Repr

/-- `StandardBusinessDocument`. -/
structure StandardBusinessDocument where
  header : SbdhHeader
  payload : Bytes
deriving DecidableEq, Repr

/-- The source text of the root element of a document. -/
abbrev RootElementText := Str → Str

/-- `document_element` of the writer. -/
def XmlOut.documentElement (roxmltree : Roxmltree) (rootElementText : RootElementText)
    (out : XmlOut) (document : Str) (limits : XmlLimits) (field : Str) : Result XmlOut := do
  Except.rejectIf (out.stack = []) (xmlMisuse "document_element() outside an element")
  let _ ← (parseXml roxmltree document limits "xml_writer").mapError fun err =>
    xmlInvalid field ("is not a well-formed XML document: " ++ err.message)
  let out := out.closeStartTag
  pure { out with buf := out.buf ++ rootElementText document }

/-- `sh:Sender` or `sh:Receiver`. -/
def writeSbdhParty (element : Str) (party : SbdhParty) (field : Str) : List XmlCall :=
  [start element, start (.lit "sh:Identifier"), attr (.lit "Authority") party.authority field,
    text party.identifier field, endElement, endElement]

/-- `sh:DocumentIdentification`. -/
def writeDocumentIdentification (di : SbdhDocumentIdentification) : List XmlCall :=
  [start (.lit "sh:DocumentIdentification"),
    leaf (.lit "sh:Standard") di.standard "SbdhDocumentIdentification::standard",
    leaf (.lit "sh:TypeVersion") di.typeVersion "SbdhDocumentIdentification::type_version",
    leaf (.lit "sh:InstanceIdentifier") di.instanceIdentifier
      "SbdhDocumentIdentification::instance_identifier",
    leaf (.lit "sh:Type") di.docType "SbdhDocumentIdentification::type",
    leaf (.lit "sh:MultipleType") (if di.multipleType then .lit "true" else .lit "false")
      "SbdhDocumentIdentification::multiple_type",
    leaf (.lit "sh:CreationDateAndTime") di.creationDateAndTime
      "SbdhDocumentIdentification::creation_date_and_time",
    endElement]

/-- A `sh:Scope`. -/
def writeScope (scope : SbdhScope) : List XmlCall :=
  [start (.lit "sh:Scope"), leaf (.lit "sh:Type") scope.scopeType "SbdhScope::scope_type",
    leaf (.lit "sh:InstanceIdentifier") scope.instanceIdentifier
      "SbdhScope::instance_identifier"] ++
  scope.identifier.toList.map (fun id => leaf (.lit "sh:Identifier") id "SbdhScope::identifier") ++
  [endElement]

/-- `write_business_scope`. -/
def writeBusinessScope (scopes : List SbdhScope) : List XmlCall :=
  if scopes = [] then []
  else [start (.lit "sh:BusinessScope")] ++ scopes.flatMap writeScope ++ [endElement]

/-- The calls of `wrap` before the payload. -/
def writeSbdhHeader (h : SbdhHeader) : List XmlCall :=
  [start (.lit "sh:StandardBusinessDocument"), ns (.lit "sh") sbdhNs,
    start (.lit "sh:StandardBusinessDocumentHeader"),
    leaf (.lit "sh:HeaderVersion") h.headerVersion "SbdhHeader::header_version"] ++
  writeSbdhParty (.lit "sh:Sender") h.sender "SbdhHeader::sender" ++
  writeSbdhParty (.lit "sh:Receiver") h.receiver "SbdhHeader::receiver" ++
  writeDocumentIdentification h.documentIdentification ++
  writeBusinessScope h.businessScope ++ [endElement]

/-- `StandardBusinessDocument::wrap`. -/
def StandardBusinessDocument.wrap (roxmltree : Roxmltree) (rootElementText : RootElementText)
    (document : StandardBusinessDocument) : Result Bytes := do
  let payload ← Except.okOr (Str.fromUtf8 document.payload)
    ⟨.invalidInput, "SBDH payload is not valid UTF-8", .new "sbdh_wrap"⟩
  let out ← XmlOut.new.declaration.run (writeSbdhHeader document.header)
  let out ← out.documentElement roxmltree rootElementText payload (.payload defaultMaxBodyBytes)
    "StandardBusinessDocument::payload"
  let out ← out.endElement
  let doc ← out.finish
  let text ← doc.intoString
  pure (Str.utf8 text)

end Asx
