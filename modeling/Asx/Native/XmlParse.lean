import Asx.Native.Core
import Asx.Xml.WellFormed

/-!
# Parsing under limits

`xml/limits.rs` and `xml/parse.rs`: the byte limit, the linear scan over the markup that
refuses declarations and bounds nesting and attributes, and then `roxmltree`. The parser
itself is a parameter of the model (`Roxmltree`).
-/

namespace Asx

open Xml

/-- `XmlLimits`. -/
structure XmlLimits where
  maxBytes : Nat
  maxNodes : Nat
  maxDepth : Nat
  maxAttributes : Nat
deriving DecidableEq, Repr

namespace XmlLimits

/-- `XmlLimits::ENVELOPE`. -/
def envelope : XmlLimits := ⟨4 * 1024 * 1024, 20000, 64, 64⟩

/-- `XmlLimits::SMP`. -/
def smp : XmlLimits := ⟨2 * 1024 * 1024, 20000, 64, 64⟩

/-- `XmlLimits::payload`. -/
def payload (maxBytes : Nat) : XmlLimits := ⟨maxBytes, 4000000, 256, 256⟩

end XmlLimits

/-- The errors of `roxmltree` that are told apart; any other is named by its text. -/
inductive RoxmltreeError where
  | nodesLimitReached
  | dtdDetected
  | other (text : Str)
deriving DecidableEq, Repr

/-- `Document::parse_with_options` without a document type declaration: the text and the
    node limit. -/
abbrev Roxmltree := Str → Nat → Except RoxmltreeError Document

/-- The `fail` of `xml/parse.rs`. -/
def xmlError (stage message : Str) : AsxError := ⟨.parseFailed, message, .new stage⟩

/-! ## The scan -/

/-- A byte given as a character. -/
def byte (c : Char) : UInt8 := .ofNat c.toNat

/-- The `skip_to` of `prescan`: what follows the first occurrence of `needle`. -/
def skipTo (needle : Bytes) : Bytes → Bytes
  | [] => []
  | b :: bs =>
    if needle.isPrefixOf (b :: bs) then (b :: bs).drop needle.length else skipTo needle bs

/-- The walk over a start tag, from after its `<` to its unquoted `>`: the number of `=`
    outside quotes, whether the tag closes itself, and what follows. `prev` is the byte
    before the one looked at. -/
def scanStartTag (prev : UInt8) (quote : Option UInt8) (attributes : Nat) :
    Bytes → Nat × Bool × Bytes
  | [] => (attributes, false, [])
  | b :: bs =>
    match quote with
    | some q => scanStartTag b (if b = q then none else quote) attributes bs
    | none =>
      if b = byte '"' ∨ b = byte '\'' then scanStartTag b (some b) attributes bs
      else if b = byte '=' then scanStartTag b none (attributes + 1) bs
      else if b = byte '>' then (attributes, prev = byte '/', bs)
      else scanStartTag b none attributes bs

/-- The loop of `prescan`. Every round consumes at least one byte, so the number of bytes
    bounds the number of rounds. -/
def prescanLoop (limits : XmlLimits) (stage : Str) : Nat → Nat → Bytes → Result Unit
  | 0, _, _ => .ok ()
  | rounds + 1, depth, bytes =>
    let rest := bytes.dropWhile (· ≠ byte '<')
    if rest = [] then .ok ()
    else if (Str.utf8 "<!--").isPrefixOf rest then
      prescanLoop limits stage rounds depth (skipTo (Str.utf8 "-->") (rest.drop 4))
    else if (Str.utf8 "<![CDATA[").isPrefixOf rest then
      prescanLoop limits stage rounds depth (skipTo (Str.utf8 "]]>") (rest.drop 9))
    else if (Str.utf8 "<?").isPrefixOf rest then
      prescanLoop limits stage rounds depth (skipTo (Str.utf8 "?>") (rest.drop 2))
    else if (Str.utf8 "<!").isPrefixOf rest then
      .error (xmlError stage "XML document type declarations (DOCTYPE) are not allowed")
    else if (Str.utf8 "</").isPrefixOf rest then
      prescanLoop limits stage rounds (depth - 1) (skipTo (Str.utf8 ">") (rest.drop 2))
    else
      let tag := scanStartTag (byte '<') none 0 (rest.drop 1)
      if tag.1 > limits.maxAttributes then
        .error (xmlError stage ("XML element has more than " ++ showNat limits.maxAttributes ++
          " attributes (attribute limit)"))
      else if tag.2.1 then prescanLoop limits stage rounds depth tag.2.2
      else if depth + 1 > limits.maxDepth then
        .error (xmlError stage ("XML nesting exceeds the depth limit of " ++
          showNat limits.maxDepth ++ " levels"))
      else prescanLoop limits stage rounds (depth + 1) tag.2.2

/-- `prescan`. -/
def prescan (bytes : Bytes) (limits : XmlLimits) (stage : Str) : Result Unit :=
  prescanLoop limits stage bytes.length 0 bytes

/-! ## Parsing -/

/-- `xml::parse`. -/
def parseXml (roxmltree : Roxmltree) (text : Str) (limits : XmlLimits) (stage : Str) :
    Result Document := do
  let bytes := Str.utf8 text
  Except.rejectIf (bytes.length > limits.maxBytes) (xmlError stage
    ("XML document exceeds the " ++ showNat limits.maxBytes ++ " byte limit (" ++
      showNat bytes.length ++ " bytes)"))
  prescan bytes limits stage
  (roxmltree text limits.maxNodes).mapError fun
    | .nodesLimitReached => xmlError stage
        ("XML document exceeds the node limit of " ++ showNat limits.maxNodes ++ " nodes")
    | .dtdDetected =>
      xmlError stage "XML document type declarations (DOCTYPE) are not allowed"
    | .other text => xmlError stage ("XML is not well-formed: " ++ text)

/-- What is accepted has passed the scan and was read by `roxmltree`. -/
theorem parseXml_ok {roxmltree : Roxmltree} {text stage : Str} {limits : XmlLimits}
    {doc : Document} (h : parseXml roxmltree text limits stage = .ok doc) :
    prescan (Str.utf8 text) limits stage = .ok () ∧ roxmltree text limits.maxNodes = .ok doc := by
  simp only [parseXml, Except.bind_eq_ok, Except.mapError_eq_ok] at h
  obtain ⟨_, -, ⟨⟩, hscan, hread⟩ := h
  exact ⟨hscan, hread⟩

/-- `xml::parse_bytes`. -/
def parseXmlBytes (roxmltree : Roxmltree) (bytes : Bytes) (limits : XmlLimits) (stage : Str) :
    Result Document := do
  let text ← Except.okOr (Str.fromUtf8 bytes)
    (xmlError stage "XML document is not valid UTF-8: ")
  parseXml roxmltree ((Str.stripPrefix ['\uFEFF'] text).getD text) limits stage

end Asx
