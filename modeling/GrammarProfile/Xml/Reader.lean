import GrammarProfile.Text.Lines
import GrammarProfile.Xml.Node

/-!
Reading an XML document. Name spaces are resolved, character references and the five predefined
entities are replaced, and a document type declaration is refused.
-/
namespace GrammarProfile.Xml

/-- Why a text is not a document. -/
inductive Error where
  | unexpected
  | invalidCharacter
  | invalidName
  | invalidComment
  | invalidText
  | malformedReference
  | unknownEntity
  | documentType
  | misplacedDeclaration
  | reservedNamespace
  | unknownNamespace
  | repeatedNamespace
  | repeatedAttribute
  | mismatchedEnd
  | unclosed
  | noRoot
  deriving DecidableEq, Repr

def Error.message : Error → String
  | unexpected => "unexpected character or end of text"
  | invalidCharacter => "a character that is not allowed in a document"
  | invalidName => "invalid name"
  | invalidComment => "invalid comment"
  | invalidText => "']]>' in text"
  | malformedReference => "malformed reference"
  | unknownEntity => "unknown entity"
  | documentType => "document type declarations are not supported"
  | misplacedDeclaration => "misplaced XML declaration"
  | reservedNamespace => "a reserved name space is declared"
  | unknownNamespace => "unknown name space"
  | repeatedNamespace => "repeated name space declaration"
  | repeatedAttribute => "repeated attribute"
  | mismatchedEnd => "an end tag that does not match"
  | unclosed => "an element is not closed"
  | noRoot => "no root element"

def isSpace (c : Char) : Bool := c == ' ' || c == '\t' || c == '\n' || c == '\r'

/-- A character that may stand in a document. -/
def isDocumentChar (c : Char) : Bool :=
  if c.toNat < 0x20 then isSpace c else c.toNat != 0xFFFE && c.toNat != 0xFFFF

def isNameStart (c : Char) : Bool :=
  let n := c.toNat
  c.isAlpha || c == ':' || c == '_' || (0xC0 ≤ n && n ≤ 0xD6) || (0xD8 ≤ n && n ≤ 0xF6) ||
    (0xF8 ≤ n && n ≤ 0x2FF) || (0x370 ≤ n && n ≤ 0x37D) || (0x37F ≤ n && n ≤ 0x1FFF) ||
    (0x200C ≤ n && n ≤ 0x200D) || (0x2070 ≤ n && n ≤ 0x218F) || (0x2C00 ≤ n && n ≤ 0x2FEF) ||
    (0x3001 ≤ n && n ≤ 0xD7FF) || (0xF900 ≤ n && n ≤ 0xFDCF) || (0xFDF0 ≤ n && n ≤ 0xFFFD) ||
    (0x10000 ≤ n && n ≤ 0xEFFFF)

def isNameChar (c : Char) : Bool :=
  let n := c.toNat
  isNameStart c || c.isDigit || c == '-' || c == '.' || n == 0xB7 || (0x300 ≤ n && n ≤ 0x36F) ||
    (0x203F ≤ n && n ≤ 0x2040)

def skipSpaces (cs : List Char) : List Char := cs.dropWhile isSpace

/-- Skips exactly the given characters. -/
def expect (what cs : List Char) : Except Error (List Char) :=
  match Text.dropStart? cs what with
  | some rest => .ok rest
  | none => .error .unexpected

/-- The characters up to the first that satisfies `stop`, all of them fit for a document. -/
def takeUntil (stop : Char → Bool) : List Char → Except Error (List Char × List Char)
  | [] => .ok ([], [])
  | c :: rest =>
    if !isDocumentChar c then .error .invalidCharacter
    else if stop c then .ok ([], c :: rest)
    else do
      let (taken, left) ← takeUntil stop rest
      .ok (c :: taken, left)

/-- The characters up to the text `stop`, all of them fit for a document; `stop` is skipped. -/
def takePast (stop : List Char) : List Char → Except Error (List Char × List Char)
  | [] => .error .unexpected
  | c :: rest =>
    if !isDocumentChar c then .error .invalidCharacter
    else
      match Text.dropStart? (c :: rest) stop with
      | some left => .ok ([], left)
      | none => do
        let (taken, left) ← takePast stop rest
        .ok (c :: taken, left)

/-- A name in which a colon is a character like others. -/
def readName (cs : List Char) : Except Error (List Char × List Char) :=
  match cs with
  | c :: rest =>
    if isNameStart c then .ok (c :: rest.takeWhile isNameChar, rest.dropWhile isNameChar)
    else .error .invalidName
  | [] => .error .invalidName

/-- A name with an optional label before a colon. -/
structure QualifiedName where
  label : String
  name : String
  deriving DecidableEq

/-- A part of a qualified name must begin as a name does. -/
def beginsName (cs : List Char) : Bool :=
  match cs with
  | c :: _ => isNameStart c
  | [] => true

def readQualifiedName (cs : List Char) : Except Error (QualifiedName × List Char) :=
  let inName (c : Char) : Bool := c != ':' && isNameChar c
  let first := cs.takeWhile inName
  let (label, name, left) :=
    match cs.dropWhile inName with
    | ':' :: rest => (first, rest.takeWhile inName, rest.dropWhile inName)
    | rest => ([], first, rest)
  if name.isEmpty || !beginsName label || !beginsName name then .error .invalidName
  else .ok (⟨String.ofList label, String.ofList name⟩, left)

def digitValue? (c : Char) : Option Nat :=
  if '0' ≤ c && c ≤ '9' then some (c.toNat - '0'.toNat)
  else if 'a' ≤ c && c ≤ 'f' then some (c.toNat - 'a'.toNat + 10)
  else if 'A' ≤ c && c ≤ 'F' then some (c.toNat - 'A'.toNat + 10)
  else none

/-- The number that digits write in base `base`, if there is a digit and each belongs to the base. -/
def numeral? (base : Nat) (digits : List Char) : Option Nat :=
  if digits.isEmpty then none
  else digits.foldl
    (fun acc c =>
      match acc, digitValue? c with
      | some n, some d => if d < base then some (n * base + d) else none
      | _, _ => none)
    (some 0)

/-- The character with a given number; one that is no scalar value becomes U+FFFD. -/
def referenced? (n : Nat) : Option Char :=
  if 4294967295 < n then none
  else
    let c := if h : n.isValidChar then Char.ofNatAux n h else Char.ofNat 0xFFFD
    if isDocumentChar c then some c else none

/-- The character that a reference stands for; the ampersand has been read. -/
def readReference (cs : List Char) : Except Error (Char × List Char) :=
  match cs with
  | '#' :: rest =>
    let (base, rest) :=
      match rest with
      | 'x' :: hex => (16, hex)
      | _ => (10, rest)
    let isDigit (c : Char) : Bool := ((digitValue? c).getD 16) < base
    match (numeral? base (rest.takeWhile isDigit)).bind referenced?, rest.dropWhile isDigit with
    | some c, ';' :: left => .ok (c, left)
    | _, _ => .error .malformedReference
  | _ =>
    match readName cs with
    | .ok (name, ';' :: left) =>
      match String.ofList name with
      | "quot" => .ok ('"', left)
      | "amp" => .ok ('&', left)
      | "apos" => .ok ('\'', left)
      | "lt" => .ok ('<', left)
      | "gt" => .ok ('>', left)
      | _ => .error .unknownEntity
    | _ => .error .malformedReference

/-- Replaces the references in a text; `plain` treats what is written as itself. -/
def resolveReferences (plain : Char → List Char → List Char) : Nat → List Char →
    Except Error (List Char)
  | 0, _ => .ok []
  | _, [] => .ok []
  | fuel + 1, '&' :: rest => do
    let (c, left) ← readReference rest
    let more ← resolveReferences plain fuel left
    .ok (c :: more)
  | fuel + 1, c :: rest => do
    let more ← resolveReferences plain fuel rest
    .ok (plain c rest ++ more)

/-- In an attribute a line break or a tab is a space, and CR LF is one break. -/
def attributeChar (c : Char) (after : List Char) : List Char :=
  match c, after with
  | '\r', '\n' :: _ => []
  | '\r', _ => [' ']
  | '\n', _ => [' ']
  | '\t', _ => [' ']
  | _, _ => [c]

/-- In a text every line break is a line feed. -/
def textChar (c : Char) (after : List Char) : List Char :=
  match c, after with
  | '\r', '\n' :: _ => []
  | '\r', _ => ['\n']
  | _, _ => [c]

def attributeValue (raw : List Char) : Except Error (List Char) :=
  resolveReferences attributeChar raw.length raw

/-- An equals sign and a quoted text, as written. -/
def readQuoted (cs : List Char) : Except Error (List Char × List Char) := do
  let cs ← expect ['='] (skipSpaces cs)
  match skipSpaces cs with
  | q :: rest =>
    if q == '"' || q == '\'' then do
      let (raw, left) ← takeUntil (fun c => c == q || c == '<') rest
      let left ← expect [q] left
      .ok (raw, left)
    else .error .unexpected
  | [] => .error .unexpected

/-- How a start tag ends: with or without content to come. -/
inductive TagEnd where
  | opened
  | empty
  | cut
  deriving DecidableEq

/-- The attributes of a start tag, in order, and how the tag ends. -/
def readAttributes : Nat → List Char →
    Except Error ((List (QualifiedName × List Char) × TagEnd) × List Char)
  | 0, cs => .ok (([], .cut), cs)
  | _, [] => .ok (([], .cut), [])
  | fuel + 1, cs =>
    match skipSpaces cs with
    | [] => .error .unexpected
    | '/' :: '>' :: left => .ok (([], .empty), left)
    | '/' :: _ => .error .unexpected
    | '>' :: left => .ok (([], .opened), left)
    | rest =>
      if !cs.head?.any isSpace then .error .unexpected
      else do
        let (name, rest) ← readQualifiedName rest
        let (raw, rest) ← readQuoted rest
        let ((more, tagEnd), left) ← readAttributes fuel rest
        .ok (((name, raw) :: more, tagEnd), left)

/-- What the names that the standards themselves bind begin with. -/
def standardsBase : String := "http://www.w3.org/"

/-- The name space to which the label `xml` is always bound. -/
def xmlUri : String := standardsBase ++ "XML/1998/namespace"

/-- The name space of the declarations themselves, which nothing else may use. -/
def declarationUri : String := standardsBase ++ "2000/xmlns/"

/-- The bindings that a start tag declares, in order, and its proper attributes. -/
def splitDeclarations : List (QualifiedName × List Char) → List Binding →
    Except Error (List Binding × List (QualifiedName × String))
  | [], own => .ok (own, [])
  | (q, raw) :: rest, own => do
    let value := String.ofList (← attributeValue raw)
    if q.label == "xmlns" then
      if value == declarationUri then .error .reservedNamespace
      else if (q.name == "xml") != (value == xmlUri) then .error .reservedNamespace
      else if own.any fun b => b.label == some q.name then .error .repeatedNamespace
      else if value == xmlUri then splitDeclarations rest own
      else splitDeclarations rest (own ++ [⟨some q.name, value⟩])
    else if q.name == "xmlns" then
      if value == declarationUri || value == xmlUri then .error .reservedNamespace
      else splitDeclarations rest (own ++ [⟨none, value⟩])
    else do
      let (bindings, attributes) ← splitDeclarations rest own
      .ok (bindings, (q, value) :: attributes)

def findUri (scope : List Binding) (label : String) : Except Error (Option String) :=
  if label.isEmpty then .ok ((scope.find? fun b => b.label.isNone).map (·.uri))
  else
    match scope.find? fun b => b.label == some label with
    | some b => .ok (some b.uri)
    | none => .error .unknownNamespace

def resolveAttributes (scope : List Binding) :
    List (QualifiedName × String) → List Attribute → Except Error (List Attribute)
  | [], done => .ok done
  | (q, value) :: rest, done => do
    let uri ←
      if q.label == "xml" then .ok (some xmlUri)
      else if q.label.isEmpty then .ok none
      else findUri scope q.label
    if done.any fun a => a.uri == uri && a.name == q.name then .error .repeatedAttribute
    else resolveAttributes scope rest (done ++ [⟨uri, q.name, value⟩])

/-- The tag that a start tag writes inside an element with the bindings `outer`. -/
def resolveTag (outer : List Binding) (q : QualifiedName)
    (written : List (QualifiedName × List Char)) : Except Error Tag := do
  let (own, attributes) ← splitDeclarations written []
  let scope := own ++ outer.filter fun b => !own.any fun o => o.label == b.label
  let attributes ← resolveAttributes scope attributes []
  let uri ← findUri scope q.label
  .ok ⟨uri, q.name, attributes, scope⟩

/-- An element whose end tag has not been read; the content is in reverse. -/
structure OpenElement where
  written : QualifiedName
  tag : Tag
  content : List Node

/-- Adds a text to reversed content; texts with nothing between them are one. -/
def addText (s : List Char) : List Node → List Node
  | .text before :: rest => .text (before ++ String.ofList s) :: rest
  | content => if s.isEmpty then content else .text (String.ofList s) :: content

def readComment (cs : List Char) : Except Error (List Char) := do
  let (text, left) ← takePast "-->".toList cs
  if Text.endsWith text ['-'] || Text.holds "--".toList text then .error .invalidComment
  else .ok left

/-- The rest after a processing instruction, of which `<?` has been read. -/
def readInstruction (cs : List Char) : Except Error (List Char) :=
  if Text.startsWith cs "xml ".toList then .error .misplacedDeclaration
  else do
    let (_, rest) ← readName cs
    let (_, left) ← takePast "?>".toList (skipSpaces rest)
    .ok left

/-- Reads on inside the innermost open element until the outermost one ends. -/
def readContent : Nat → OpenElement → List OpenElement → List Char →
    Except Error (Node × List Char)
  | 0, _, _, _ => .error .unclosed
  | _, _, _, [] => .error .unclosed
  | fuel + 1, top, outer, cs =>
    let finish (e : OpenElement) (outer : List OpenElement) (left : List Char) :
        Except Error (Node × List Char) :=
      match outer with
      | [] => .ok (.element e.tag e.content.reverse, left)
      | o :: outer =>
        readContent fuel { o with content := .element e.tag e.content.reverse :: o.content }
          outer left
    match cs with
    | '<' :: '/' :: rest => do
      let (name, rest) ← readQualifiedName rest
      let left ← expect ['>'] (skipSpaces rest)
      if name = top.written then finish top outer left else .error .mismatchedEnd
    | '<' :: '?' :: rest => do
      let left ← readInstruction rest
      readContent fuel { top with content := .remark :: top.content } outer left
    | '<' :: '!' :: '-' :: '-' :: rest => do
      let left ← readComment rest
      readContent fuel { top with content := .remark :: top.content } outer left
    | '<' :: '!' :: rest => do
      let rest ← expect "[CDATA[".toList rest
      let (text, left) ← takePast "]]>".toList rest
      readContent fuel { top with content := addText text top.content } outer left
    | '<' :: rest => do
      let (name, rest) ← readQualifiedName rest
      if name.label == "xmlns" then throw .reservedNamespace
      let ((written, tagEnd), left) ← readAttributes (fuel + 1) rest
      let tag ← resolveTag top.tag.scope name written
      match tagEnd with
      | .cut => .error .unclosed
      | .empty => finish ⟨name, tag, []⟩ (top :: outer) left
      | .opened => readContent fuel ⟨name, tag, []⟩ (top :: outer) left
    | _ => do
      let (raw, left) ← takeUntil (· == '<') cs
      if Text.holds "]]>".toList raw then .error .invalidText
      else do
        let text ← resolveReferences textChar raw.length raw
        readContent fuel { top with content := addText text top.content } outer left

/-- Skips blanks, comments and processing instructions. -/
def skipMisc : Nat → List Char → Except Error (List Char)
  | 0, cs => .ok cs
  | fuel + 1, cs =>
    match skipSpaces cs with
    | '<' :: '!' :: '-' :: '-' :: rest => do skipMisc fuel (← readComment rest)
    | '<' :: '?' :: rest => do skipMisc fuel (← readInstruction rest)
    | rest => .ok rest

/-- A blank, the end of the declaration or the end of the text must follow. -/
def skipDeclarationSpaces (cs : List Char) : Except Error (List Char) :=
  match cs with
  | [] => .ok []
  | c :: _ =>
    if isSpace c then .ok (skipSpaces cs)
    else if Text.startsWith cs "?>".toList then .ok cs
    else .error .unexpected

def readDeclarationField (cs : List Char) : Except Error (List Char) := do
  let (_, rest) ← readQualifiedName cs
  let (_, left) ← readQuoted rest
  .ok left

/-- The rest after an XML declaration, of which `<?xml` has been read. -/
def readDeclaration (cs : List Char) : Except Error (List Char) := do
  let cs ← skipDeclarationSpaces cs
  if !Text.startsWith cs "version".toList then throw .unexpected
  let cs ← skipDeclarationSpaces (← readDeclarationField cs)
  let cs ←
    if Text.startsWith cs "encoding".toList then do
      skipDeclarationSpaces (← readDeclarationField cs)
    else pure cs
  let cs ←
    if Text.startsWith cs "standalone".toList then readDeclarationField cs else pure cs
  expect "?>".toList (skipSpaces cs)

def readRoot (cs : List Char) : Except Error (Node × List Char) := do
  let (name, rest) ← readQualifiedName cs
  if name.label == "xmlns" then throw .reservedNamespace
  let ((written, tagEnd), left) ← readAttributes (rest.length + 1) rest
  match tagEnd with
  | .cut => .error .noRoot
  | .empty => do
    let tag ← resolveTag [] name written
    .ok (.element tag [], left)
  | .opened => do
    let tag ← resolveTag [] name written
    readContent (left.length + 1) ⟨name, tag, []⟩ [] left

/-- The root element of a document. -/
def readDocument (text : List Char) : Except Error Node := do
  let cs := (Text.dropStart? text [Char.ofNat 0xFEFF]).getD text
  let cs ←
    match Text.dropStart? cs "<?xml ".toList with
    | some rest => readDeclaration (' ' :: rest)
    | none => pure cs
  let cs := skipSpaces (← skipMisc (cs.length + 1) cs)
  if Text.startsWith cs "<!DOCTYPE".toList then throw .documentType
  match cs with
  | '<' :: rest => do
    let (root, left) ← readRoot rest
    let left ← skipMisc (left.length + 1) left
    if left.isEmpty then .ok root else .error .unexpected
  | _ => .error .noRoot

end GrammarProfile.Xml
