import GrammarProfile.Yaml.Style

/-!
Writing a value as a YAML document in block form, two spaces to a level. Items of a list that is
the value of a key stand at the indentation of the key.
-/
namespace GrammarProfile.Yaml

/-- Where a value is written. -/
inductive Place where
  | document
  /-- After a key and its colon on the same line. -/
  | afterKey
  /-- After the dash of an item. -/
  | afterDash
  /-- After the mark of a key or value that stands on its own. -/
  | afterMark
  deriving DecidableEq, Repr

/-- How the parts of a collection follow what stands before it. -/
structure Opening where
  /-- Whether the first part stands on the same line. -/
  sameLine : Bool
  indent : Nat
  deriving DecidableEq, Repr

namespace Place

/-- The first part of a mapping shares the line of a dash or a mark, but not that of a tag. -/
def mapping (place : Place) (hasTag : Bool) (indent : Nat) : Opening :=
  match place with
  | document => ⟨!hasTag, 0⟩
  | afterKey => ⟨false, indent + 2⟩
  | afterDash => ⟨!hasTag, indent + 2⟩
  | afterMark => ⟨!hasTag, indent + 2⟩

def sequence (place : Place) (hasTag : Bool) (indent : Nat) : Opening :=
  match place with
  | document => ⟨!hasTag, 0⟩
  | afterKey => ⟨false, indent⟩
  | afterDash => ⟨!hasTag, indent + 2⟩
  | afterMark => if hasTag then ⟨false, indent⟩ else ⟨true, indent + 2⟩

/-- The indentation of the further lines of a scalar. -/
def scalarIndent (place : Place) (indent : Nat) : Nat :=
  match place with
  | document => 2
  | _ => indent + 2

/-- What separates a value from the indicator before it. -/
def lead (place : Place) : List Char :=
  match place with
  | document => []
  | _ => [' ']

/-- A value without parts, up to the end of its line. -/
def scalarLine (place : Place) (tag written : List Char) : List Char :=
  place.lead ++ (if tag.isEmpty then [] else tag ++ [' ']) ++ endLine written

end Place

/-- The bytes of a character. -/
def utf8Bytes (c : Char) : List Nat := (String.singleton c).toUTF8.toList.map (·.toNat)

/-- A character within a tag; other characters than these stand as their bytes in hexadecimal. -/
def tagChar (c : Char) : List Char :=
  if isWordChar c || ";/?:@&=+$,.~*'()[]".toList.contains c then [c]
  else (utf8Bytes c).flatMap fun b => '%' :: hexDigits 2 b

/-- A tag as it is written. -/
def tagText (tag : String) : List Char :=
  match (bareTag tag).toList with
  | ['!'] => "!<%21>".toList
  | cs => '!' :: cs.flatMap tagChar

/-- The parts of a collection, each of which ends its line, after the tag if there is one. -/
def layParts (lead tag : List Char) (opening : Opening) (parts : List (List Char)) : List Char :=
  let indented (part : List Char) : List Char := spaces opening.indent ++ part
  match parts with
  | [] => []
  | first :: rest =>
    if opening.sameLine then lead ++ first ++ rest.flatMap indented
    else (if tag.isEmpty then [] else lead ++ tag) ++ '\n' :: parts.flatMap indented

/-- The longest key, in bytes, that may stand before its colon. -/
def keyLimit : Nat := 128

namespace Value

/-- The text that a value without parts stands for; `none` if it has parts. -/
def scalar? : Value → Option (List Char)
  | null => some "null".toList
  | bool b => some (toString b).toList
  | number n => some n.text.toList
  | string s => some s.toList
  | _ => none

/-- Whether a key stands on one line with its colon. -/
def isSimpleKey (tagBytes : Nat) : Value → Bool
  | tagged tag v => isSimpleKey (tagBytes + tag.utf8ByteSize) v
  | sequence items => items.isEmpty && tagBytes ≤ keyLimit
  | mapping pairs => pairs.isEmpty && tagBytes ≤ keyLimit
  | string s => !s.toList.any isBreak && tagBytes + s.utf8ByteSize ≤ keyLimit
  | _ => tagBytes ≤ keyLimit

/-- A key on one line, without its colon. -/
def simpleKeyText : Value → List Char
  | tagged tag v => tagText tag ++ ' ' :: simpleKeyText v
  | sequence _ => "[]".toList
  | mapping _ => "\x7b\x7d".toList
  | string s => scalarText 0 s.toList
  | null => "null".toList
  | bool b => (toString b).toList
  | number n => n.text.toList

mutual

/-- The text of a value from the end of the indicator before it to the end of its last line;
`tag` is its tag as written, or empty. -/
def print (place : Place) (indent : Nat) (tag : List Char) : Value → List Char
  | null => place.scalarLine tag "null".toList
  | bool b => place.scalarLine tag (toString b).toList
  | number n => place.scalarLine tag n.text.toList
  | string s => place.scalarLine tag (scalarText (place.scalarIndent indent) s.toList)
  | tagged t v => print place indent (tagText t) v
  | sequence items =>
    match items with
    | [] => place.scalarLine tag "[]".toList
    | _ :: _ =>
      let opening := place.sequence (!tag.isEmpty) indent
      layParts place.lead tag opening (printItems opening.indent items)
  | mapping pairs =>
    match pairs with
    | [] => place.scalarLine tag "\x7b\x7d".toList
    | _ :: _ =>
      let opening := place.mapping (!tag.isEmpty) indent
      layParts place.lead tag opening (printPairs opening.indent pairs)

def printItems (indent : Nat) : List Value → List (List Char)
  | [] => []
  | v :: rest => ('-' :: print .afterDash indent [] v) :: printItems indent rest

def printPairs (indent : Nat) : List (Value × Value) → List (List Char)
  | [] => []
  | (k, v) :: rest =>
    let part :=
      if isSimpleKey 0 k then simpleKeyText k ++ ':' :: print .afterKey indent [] v
      else
        '?' :: print .afterMark indent [] k ++ spaces indent ++ ':' :: print .afterMark indent [] v
    part :: printPairs indent rest

end

/-- A value as the text of a document. -/
def render (v : Value) : String := String.ofList (print .document 0 [] v)

end Value

end GrammarProfile.Yaml
