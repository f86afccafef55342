import Asx.Native.C14n
import Asx.Native.Core

/-!
# The XML writer

`XmlOut` of `xml/writer.rs`: every markup that the library emits comes from it. The writer is
passed along as its state; a call returns the next state or an error. The capacity of its buffers
is left out.
-/

namespace Asx

open Xml

/-- `EmptyForm`. -/
inductive EmptyForm where
  | selfClosing
  | startEnd
deriving DecidableEq, Repr

/-- `Open`: an element whose end tag is not written yet. -/
structure XmlOpen where
  qname : Str
  /-- Prefixes declared on this element. -/
  declared : List Str
deriving DecidableEq, Repr

/-- `XmlOut`; the innermost open element is the first of the stack. -/
structure XmlOut where
  buf : Str
  stack : List XmlOpen
  tagOpen : Bool
  emptyForm : EmptyForm
  segments : List Str
deriving DecidableEq, Repr

/-- `XmlDoc`: the text between the slots, and what fills them. -/
structure XmlDoc where
  segments : List Str
  slots : List (Option Str)
deriving DecidableEq, Repr

/-! ## Checks -/

/-- `invalid` of the writer. -/
def xmlInvalid (field detail : Str) : AsxError :=
  ⟨.invalidInput, field ++ ": " ++ detail, .new "xml_writer"⟩

/-- `misuse`. -/
def xmlMisuse (detail : Str) : AsxError :=
  ⟨.invalidInput, "XML writer misuse: " ++ detail, .new "xml_writer"⟩

/-- `{:04X}` of a code point. -/
def hexUpper4 (n : Nat) : Str :=
  let digits := (Nat.toDigits 16 n).map Char.toUpper
  List.replicate (4 - digits.length) '0' ++ digits

/-- `check_chars`; `is_xml_char` is the production `Char`. -/
def checkChars (value field : Str) : Result Unit :=
  match value.find? fun c => !isChar c with
  | none => .ok ()
  | some c => .error (xmlInvalid field ("contains U+" ++ hexUpper4 c.toNat ++
      ", a character XML 1.0 cannot carry; the value is refused, not altered"))

/-- `plain_text`. -/
def plainText (value : Str) : Bool :=
  (Str.utf8 value).all fun b => 0x20 ≤ b && b < 0x7F && b != 0x3C && b != 0x3E && b != 0x26

/-- `plain_attr`. -/
def plainAttr (value : Str) : Bool :=
  (Str.utf8 value).all fun b => 0x20 ≤ b && b < 0x7F && b != 0x3C && b != 0x26 && b != 0x22

/-- The check that a value needs which is not written as it is. -/
def checkUnlessPlain (plain : Bool) (value field : Str) : Result Unit :=
  if plain then .ok () else checkChars value field

/-- `prefix_of`. -/
def prefixOf (qname : Str) : Option Str := (Str.splitOnce ':' qname).map Prod.fst

namespace XmlOut

/-- `with_form`. -/
def withForm (emptyForm : EmptyForm) : XmlOut := ⟨[], [], false, emptyForm, []⟩

/-- `XmlOut::new`. -/
def new : XmlOut := withForm .selfClosing

/-- `XmlOut::canonical`. -/
def canonical : XmlOut := withForm .startEnd

/-- `declaration`. -/
def declaration (out : XmlOut) : XmlOut :=
  { out with buf := out.buf ++ "<?xml version=\"1.0\" encoding=\"UTF-8\"?>\n" }

/-- `close_start_tag`. -/
def closeStartTag (out : XmlOut) : XmlOut :=
  if out.tagOpen then { out with buf := out.buf ++ ['>'], tagOpen := false } else out

/-- `prefix_in_scope`. -/
def prefixInScope (out : XmlOut) (pre : Str) : Bool :=
  pre = xmlPre || out.stack.any fun open_ => open_.declared.contains pre

/-- The error of a name whose prefix is not declared. -/
def undeclared (pre qname : Str) : AsxError :=
  xmlMisuse ("prefix `" ++ pre ++ "` of `" ++ qname ++ "` is not declared")

/-- `check_prefix`. -/
def checkPrefix (out : XmlOut) (qname : Str) : Result Unit :=
  match prefixOf qname with
  | some pre => Except.rejectIf (out.prefixInScope pre = false) (undeclared pre qname)
  | none => .ok ()

/-- `start`. -/
def start (out : XmlOut) (qname : Str) : Result XmlOut :=
  let out := out.closeStartTag
  .ok { out with
    buf := out.buf ++ '<' :: qname
    stack := ⟨qname, []⟩ :: out.stack
    tagOpen := true }

/-- `ns`. -/
def ns (out : XmlOut) (pre uri : Str) : Result XmlOut := do
  Except.rejectIf (out.tagOpen = false) (xmlMisuse "ns() outside a start tag")
  let name : Str := if pre = [] then " xmlns=\"" else " xmlns:" ++ pre ++ "=\""
  pure { out with
    buf := out.buf ++ name ++ escapeAttrValue uri ++ ['"']
    stack := match out.stack with
      | top :: rest => { top with declared := top.declared ++ [pre] } :: rest
      | [] => [] }

/-- `attr`. -/
def attr (out : XmlOut) (qname value field : Str) : Result XmlOut := do
  Except.rejectIf (out.tagOpen = false) (xmlMisuse "attr() outside a start tag")
  checkUnlessPlain (plainAttr value) value field
  out.checkPrefix qname
  pure { out with
    buf := out.buf ++ ' ' :: qname ++ ['=', '"'] ++
      (if plainAttr value then value else escapeAttrValue value) ++ ['"'] }

/-- `text`. -/
def text (out : XmlOut) (value field : Str) : Result XmlOut := do
  Except.rejectIf (out.stack = []) (xmlMisuse "text() outside an element")
  checkUnlessPlain (plainText value) value field
  let out := out.closeStartTag
  pure { out with buf := out.buf ++ (if plainText value then value else escapeText value) }

/-- `end`. -/
def endElement (out : XmlOut) : Result XmlOut :=
  match out.stack with
  | [] => .error (xmlMisuse "end() with no open element")
  | open_ :: rest =>
    let out := { out with stack := rest }
    let endTag := '<' :: '/' :: open_.qname ++ ['>']
    match (prefixOf open_.qname).filter fun pre =>
        !open_.declared.contains pre && !out.prefixInScope pre with
    | some pre => .error (undeclared pre open_.qname)
    | none =>
      if out.tagOpen then
        match out.emptyForm with
        | .selfClosing => .ok { out with buf := out.buf ++ ['/', '>'], tagOpen := false }
        | .startEnd => .ok { out with buf := out.buf ++ '>' :: endTag, tagOpen := false }
      else .ok { out with buf := out.buf ++ endTag }

/-- `leaf`. -/
def leaf (out : XmlOut) (qname value field : Str) : Result XmlOut := do
  let out ← out.start qname
  let out ← out.text value field
  out.endElement

/-- `slot`; slots are counted from zero. -/
def slot (out : XmlOut) : XmlOut × Nat :=
  let out := out.closeStartTag
  ({ out with buf := [], segments := out.segments ++ [out.buf] }, out.segments.length)

/-- `fragment`. -/
def fragment (out : XmlOut) (text : Str) : Result XmlOut :=
  let out := out.closeStartTag
  .ok { out with buf := out.buf ++ text }

/-- `finish`. -/
def finish (out : XmlOut) : Result XmlDoc :=
  match out.stack with
  | open_ :: _ => .error (xmlMisuse ("finish() with `" ++ open_.qname ++ "` still open"))
  | [] => .ok ⟨out.segments ++ [out.buf], List.replicate out.segments.length none⟩

end XmlOut

namespace XmlDoc

/-- `fill`. -/
def fill (doc : XmlDoc) (slot : Nat) (text : Str) : Result XmlDoc :=
  match doc.slots[slot]? with
  | none => .error (xmlMisuse "slot of another writer")
  | some (some _) => .error (xmlMisuse "slot filled twice")
  | some none => .ok { doc with slots := doc.slots.set slot (some text) }

/-- The segments with the slots between them; a slot that is not filled is empty. -/
def joined : List Str → List (Option Str) → Str
  | [], _ => []
  | segment :: segments, [] => segment ++ joined segments []
  | segment :: segments, slot :: slots => segment ++ slot.getD [] ++ joined segments slots

/-- `text_with_empty_slots`. -/
def textWithEmptySlots (doc : XmlDoc) : Str := joined doc.segments doc.slots

/-- `into_string`. -/
def intoString (doc : XmlDoc) : Result Str := do
  Except.rejectIf (doc.slots.any Option.isNone = true)
    (xmlMisuse "a reserved slot was never filled")
  pure (joined doc.segments doc.slots)

end XmlDoc

/-! ## Calls -/

/-- A call that writes markup. -/
inductive XmlCall where
  | start (qname : Str)
  | ns (pre uri : Str)
  | attr (qname value field : Str)
  | text (value field : Str)
  | leaf (qname value field : Str)
  | endElement
deriving DecidableEq, Repr

/-- The next state after a call. -/
def XmlOut.call (out : XmlOut) : XmlCall → Result XmlOut
  | .start qname => out.start qname
  | .ns pre uri => out.ns pre uri
  | .attr qname value field => out.attr qname value field
  | .text value field => out.text value field
  | .leaf qname value field => out.leaf qname value field
  | .endElement => out.endElement

/-- The state after some calls. -/
def XmlOut.run (out : XmlOut) (calls : List XmlCall) : Result XmlOut := calls.foldlM XmlOut.call out

end Asx
