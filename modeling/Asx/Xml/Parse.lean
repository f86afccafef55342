import Asx.Xml.WellFormed

/-!
# Reading XML

A namespace-aware, non-validating reader for documents without a document type
declaration: line ends are normalized first, then the markup is read by recursive
descent, and last the tree is checked for well-formedness. Text and CDATA sections that
touch become one text node.

The descent takes fuel. Every step consumes a character, so the length of the input is
enough (`RoundTrip.lean` uses exactly this).
-/

namespace Xml

/-! ## Line ends -/

/-- XML 1.0 §2.11: `CR LF` and a lone `CR` are read as `LF`. -/
def normalizeEol : Str → Str
  | '\r' :: '\n' :: s => '\n' :: normalizeEol s
  | '\r' :: s => '\n' :: normalizeEol s
  | c :: s => c :: normalizeEol s
  | [] => []

/-! ## References -/

/-- The value of a digit, in base 10 or 16. -/
def digitValue (hex : Bool) (c : Char) : Option Nat :=
  if '0' ≤ c ∧ c ≤ '9' then some (c.toNat - '0'.toNat)
  else if hex ∧ 'a' ≤ c ∧ c ≤ 'f' then some (c.toNat - 'a'.toNat + 10)
  else if hex ∧ 'A' ≤ c ∧ c ≤ 'F' then some (c.toNat - 'A'.toNat + 10)
  else none

/-- The number written by the digits, none for an empty or illegal numeral. -/
def readNumber (hex : Bool) (s : Str) : Option Nat :=
  if s = [] then none
  else s.foldlM (fun n c => (digitValue hex c).map fun d => n * (if hex then 16 else 10) + d) 0

/-- The character with a code point, when it is a legal XML character. -/
def charOfCode (n : Nat) : Option Char :=
  if n.isValidChar ∧ isChar (Char.ofNat n) then some (Char.ofNat n) else none

/-- What `&name;` stands for: a predefined entity or a character reference. -/
def reference (name : Str) : Option Char :=
  match name with
  | ['l', 't'] => some '<'
  | ['g', 't'] => some '>'
  | ['a', 'm', 'p'] => some '&'
  | ['q', 'u', 'o', 't'] => some '"'
  | ['a', 'p', 'o', 's'] => some '\''
  | '#' :: 'x' :: digits => (readNumber true digits).bind charOfCode
  | '#' :: digits => (readNumber false digits).bind charOfCode
  | _ => none

/-- Replace the references in character data. `pending` holds the name of a reference
    whose semicolon has not come yet, last character first; characters outside of
    references pass through `norm`. -/
def unescape (norm : Char → Char) : Option Str → Str → Option Str
  | none, [] => some []
  | some _, [] => none
  | none, c :: s =>
    if c = '&' then unescape norm (some []) s
    else if isChar c then (unescape norm none s).map (norm c :: ·)
    else none
  | some name, c :: s =>
    if c = ';' then
      match reference name.reverse with
      | some r => (unescape norm none s).map (r :: ·)
      | none => none
    else unescape norm (some (c :: name)) s

/-- XML 1.0 §3.3.3: literal white space in an attribute value is read as a space. -/
def attrNorm (c : Char) : Char := if isSpace c then ' ' else c

/-! ## Names and delimiters -/

/-- Split at the first occurrence of a delimiter, which is dropped. -/
def breakOn (delim : Str) : Str → Option (Str × Str)
  | [] => none
  | c :: s =>
    if delim.isPrefixOf (c :: s) then some ([], (c :: s).drop delim.length)
    else (breakOn delim s).map fun r => (c :: r.1, r.2)

/-- Read a name without colons. -/
def readNCName (s : Str) : Option (Str × Str) :=
  if isNCName (s.takeWhile isNameChar) then
    some (s.takeWhile isNameChar, s.dropWhile isNameChar)
  else none

/-- Read a qualified name. -/
def readQName (s : Str) : Option (QName × Str) :=
  match readNCName s with
  | none => none
  | some (pre, ':' :: rest) => (readNCName rest).map fun r => (⟨pre, r.1⟩, r.2)
  | some (loc, rest) => some (⟨[], loc⟩, rest)

/-! ## Start tags -/

/-- Read `name="value"` or `name='value'`. -/
def readAttr (s : Str) : Option (Attr × Str) :=
  match readQName s with
  | none => none
  | some (name, rest) =>
    match rest.dropWhile isSpace with
    | '=' :: rest =>
      match rest.dropWhile isSpace with
      | quote :: rest =>
        if quote = '"' ∨ quote = '\'' then
          let raw := rest.takeWhile (· ≠ quote)
          -- the closing quote has to be there, and no markup before it
          match rest.dropWhile (· ≠ quote) with
          | _ :: rest =>
            if '<' ∈ raw then none
            else (unescape attrNorm none raw).map fun v => (⟨name, v⟩, rest)
          | [] => none
        else none
      | [] => none
    | _ => none

/-- Read the attributes of a start tag, declarations included, up to `>` or `/>`. The
    flag says whether the element is empty. -/
def readAttrs : Nat → Str → Option (List Attr × Bool × Str)
  | 0, _ => none
  | fuel + 1, s =>
    match s.dropWhile isSpace with
    | '>' :: rest => some ([], false, rest)
    | '/' :: '>' :: rest => some ([], true, rest)
    | rest =>
      -- white space separates the attribute from what is before it
      if s.head?.any isSpace then
        match readAttr rest with
        | none => none
        | some (a, rest) => (readAttrs fuel rest).map fun r => (a :: r.1, r.2.1, r.2.2)
      else none

/-- A namespace declaration among the attributes as written; `xmlns:xml` may repeat the
    fixed binding of `xml`, and adds nothing. -/
def declOf (a : Attr) : Option (Str × Str) :=
  if a.name = ⟨[], xmlnsPre⟩ then some ([], a.value)
  else if a.name.pre = xmlnsPre then some (a.name.loc, a.value)
  else none

/-- The declarations of a start tag. -/
def declsOf (as : List Attr) : List (Str × Str) :=
  (as.filterMap declOf).filter fun d => d ≠ (xmlPre, xmlNs)

/-- The attributes of a start tag that are not declarations. -/
def attrsOf (as : List Attr) : List Attr := as.filter fun a => (declOf a).isNone

/-! ## Content -/

/-- Put a node in front of content; a text node absorbs the text it touches. -/
def consNode : Tree → List Tree → List Tree
  | .text s, .text s' :: ts => .text (s ++ s') :: ts
  | .text [], ts => ts
  | t, ts => t :: ts

/-- Read a processing instruction after `<?`. -/
def readPi (s : Str) : Option (Tree × Str) :=
  match readNCName s with
  | none => none
  | some (target, rest) =>
    match breakOn ['?', '>'] rest with
    | none => none
    | some (body, rest) =>
      if body = [] then some (.pi target none, rest)
      else if body.head?.any isSpace then
        let data := body.dropWhile isSpace
        some (.pi target (if data = [] then none else some data), rest)
      else none

/-- Read a comment after `<!--`: the first `--` has to end it. -/
def readComment (s : Str) : Option (Tree × Str) :=
  match breakOn ['-', '-'] s with
  | some (body, '>' :: rest) => some (.comment body, rest)
  | _ => none

/-- Read a CDATA section after `<![CDATA[`. -/
def readCdata (s : Str) : Option (Tree × Str) :=
  (breakOn [']', ']', '>'] s).map fun r => (.text r.1, r.2)

/-- Read character data up to the next `<`. A literal `]]>` is not allowed in it. -/
def readText (s : Str) : Option (Tree × Str) :=
  let raw := s.takeWhile (· ≠ '<')
  if [']', ']', '>'] <:+: raw then none
  else (unescape id none raw).map fun v => (.text v, s.dropWhile (· ≠ '<'))

/-- Read one node of content; `element` reads an element after `<`. -/
def readItem (element : Str → Option (Tree × Str)) (s : Str) : Option (Tree × Str) :=
  match s with
  | '<' :: '!' :: '-' :: '-' :: rest => readComment rest
  | '<' :: '!' :: '[' :: 'C' :: 'D' :: 'A' :: 'T' :: 'A' :: '[' :: rest => readCdata rest
  | '<' :: '?' :: rest => readPi rest
  | '<' :: rest => element rest
  | s => readText s

mutual

/-- Read an element after `<`. -/
def readElement : Nat → Str → Option (Tree × Str)
  | 0, _ => none
  | fuel + 1, s =>
    match readQName s with
    | none => none
    | some (q, rest) =>
      match readAttrs (rest.length + 1) rest with
      | none => none
      | some (as, true, rest) => some (.element q (declsOf as) (attrsOf as) [], rest)
      | some (as, false, rest) =>
        match readContent fuel rest with
        | some (cs, '<' :: '/' :: rest) =>
          match readQName rest with
          | some (q', rest) =>
            match rest.dropWhile isSpace with
            | '>' :: rest =>
              if q' = q then some (.element q (declsOf as) (attrsOf as) cs, rest) else none
            | _ => none
          | none => none
        | _ => none

/-- Read content up to an end tag or the end of the input. -/
def readContent : Nat → Str → Option (List Tree × Str)
  | 0, _ => none
  | fuel + 1, s =>
    match s with
    | [] => some ([], [])
    | '<' :: '/' :: _ => some ([], s)
    | _ =>
      match readItem (readElement fuel) s with
      | none => none
      | some (t, rest) => (readContent fuel rest).map fun r => (consNode t r.1, r.2)

end

/-! ## Documents -/

/-- Read comments, processing instructions and white space outside of the element. -/
def readMisc : Nat → Str → Option (List Tree × Str)
  | 0, _ => none
  | fuel + 1, s =>
    match s.dropWhile isSpace with
    | '<' :: '!' :: '-' :: '-' :: rest =>
      match readComment rest with
      | none => none
      | some (t, rest) => (readMisc fuel rest).map fun r => (t :: r.1, r.2)
    | '<' :: '?' :: rest =>
      match readPi rest with
      | none => none
      | some (t, rest) => (readMisc fuel rest).map fun r => (t :: r.1, r.2)
    | rest => some ([], rest)

/-- Skip an XML declaration at the start of the document. -/
def skipXmlDecl (s : Str) : Option Str :=
  match s with
  | '<' :: '?' :: 'x' :: 'm' :: 'l' :: c :: rest =>
    if isSpace c then (breakOn ['?', '>'] rest).map Prod.snd else some s
  | _ => some s

/-- The children of the document node, before the check for well-formedness. -/
def readDocument (s : Str) : Option (List Tree) :=
  match skipXmlDecl (normalizeEol s) with
  | none => none
  | some s =>
    match readMisc (s.length + 1) s with
    | some (before, '<' :: rest) =>
      match readElement (rest.length + 1) rest with
      | some (e, rest) =>
        match readMisc (rest.length + 1) rest with
        | some (after, []) => some (before ++ e :: after)
        | _ => none
      | none => none
    | _ => none

/-- Parse a document. -/
def parse (s : Str) : Option Document :=
  match readDocument s with
  | some cs => if h : DocumentOk cs then some ⟨cs, h⟩ else none
  | none => none

end Xml
