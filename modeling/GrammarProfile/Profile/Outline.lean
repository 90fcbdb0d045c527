import GrammarProfile.Profile.LineIndex
import GrammarProfile.Text.Blank

/-!
Finding the keys and items of a text by its indentation, without reading it as YAML. Block
mappings and lists are found, and flow mappings and lists that stand on one line.
-/
namespace GrammarProfile.Profile

/-- A key or an item whose content may follow on deeper lines. -/
structure Frame where
  indent : Nat
  path : String
  isItem : Bool
  /-- The number of the next item directly inside. -/
  nextItem : Nat
  deriving DecidableEq, Repr

/-- What the lines so far have opened. -/
structure Outline where
  /-- Innermost first. -/
  frames : List Frame
  /-- The indentation of the key whose block scalar is still going on. -/
  blockScalar : Option Nat
  deriving DecidableEq, Repr

/-- A found path and its place. -/
abbrev Entry := String × Location

def isItem (content : List Char) : Bool := content == ['-'] || Text.startsWith content ['-', ' ']

/-- Cuts at the first colon that ends the text or is followed by a space. -/
def splitColon? : List Char → Option (List Char × List Char)
  | [] => none
  | [':'] => some ([], [])
  | ':' :: ' ' :: rest => some ([], ' ' :: rest)
  | c :: rest => (splitColon? rest).map fun (a, b) => (c :: a, b)

/-- The key of `key: value`, and the value without leading blanks. A key may stand in quotes. -/
def splitKey? (content : List Char) : Option (List Char × List Char) :=
  let quoted (q : Char) (rest : List Char) : Option (List Char × List Char) :=
    match Text.splitFirst? q rest with
    | some (key, after) =>
      match Text.trimStart after with
      | ':' :: value => some (key, Text.trimStart value)
      | _ => none
    | none => none
  match content with
  | '"' :: rest => quoted '"' rest
  | '\'' :: rest => quoted '\'' rest
  | _ =>
    match splitColon? content with
    | some (before, after) =>
      match Text.trimEnd before with
      | [] => none
      | '\x7b' :: _ => none
      | '[' :: _ => none
      | key => some (key, Text.trimStart after)
    | none => none

/-- The bytes of a text before one of its ends. -/
def bytesBefore (content rest : List Char) : Nat := Text.byteCount content - Text.byteCount rest

/-- The part before ` #`. -/
def cutComment? : List Char → Option (List Char)
  | [] => none
  | ' ' :: '#' :: _ => some []
  | c :: rest => (cutComment? rest).map (c :: ·)

def stripComment (value : List Char) : List Char :=
  match value with
  | '"' :: _ => value
  | '\'' :: _ => value
  | _ =>
    match cutComment? value with
    | some before => Text.trimEnd before
    | none => if Text.startsWith value ['#'] then [] else value

/-- What stands between an opening and a closing bracket at the two ends. -/
def enclosed? (opening closing : Char) (value : List Char) : Option (List Char) :=
  match value with
  | c :: rest => if c == opening then Text.dropTail? rest [closing] else none
  | [] => none

/-- Numbers the pieces of a list between commas; a blank piece has no place. -/
def itemEntries (path : String) (line column : Nat) : Nat → List (List Char) → List Entry
  | _, [] => []
  | i, item :: rest =>
    let later := itemEntries path line (column + Text.byteCount item + 1) (i + 1) rest
    match Text.trimStart item with
    | [] => later
    | inner => (path ++ "[" ++ toString i ++ "]", ⟨line, column + bytesBefore item inner⟩) :: later

/-- The items of a list in brackets on one line. -/
def flowItems (path : String) (line column : Nat) (value : List Char) : List Entry :=
  match enclosed? '[' ']' value with
  | some inner => itemEntries path line (column + 1) 0 (Text.splitAll ',' inner)
  | none => []

/-- Cuts at the commas outside quotes and nested brackets; `piece` is in reverse. -/
def splitFlow (quote : Option Char) (depth : Nat) (piece : List Char) :
    List Char → List (List Char)
  | [] => [piece.reverse]
  | c :: rest =>
    match quote with
    | some q => splitFlow (if c == q then none else some q) depth (c :: piece) rest
    | none =>
      if c == '"' || c == '\'' then splitFlow (some c) depth (c :: piece) rest
      else if c == '[' || c == '\x7b' then splitFlow none (depth + 1) (c :: piece) rest
      else if c == ']' || c == '\x7d' then splitFlow none (depth - 1) (c :: piece) rest
      else if c == ',' && depth == 0 then piece.reverse :: splitFlow none 0 [] rest
      else splitFlow none depth (c :: piece) rest

/-- The bytes at which pieces between commas begin. -/
def withOffsets (column : Nat) : List (List Char) → List (Nat × List Char)
  | [] => []
  | piece :: rest => (column, piece) :: withOffsets (column + Text.byteCount piece + 1) rest

/-- The keys of a mapping in braces on one line, and what their own values hold. -/
def flowKeys : Nat → String → Nat → Nat → List Char → List Entry
  | 0, _, _, _, _ => []
  | fuel + 1, path, line, column, value =>
    match enclosed? '\x7b' '\x7d' value with
    | none => []
    | some inner =>
      (withOffsets (column + 1) (splitFlow none 0 [] inner)).flatMap fun (start, piece) =>
        let content := Text.trim piece
        let place := start + bytesBefore piece (Text.trimStart piece)
        match splitKey? content with
        | none => []
        | some (key, rest) =>
          let keyPath := path ++ "." ++ String.ofList key
          let valuePlace := place + bytesBefore content rest
          (keyPath, ⟨line, place⟩) ::
            match rest with
            | '\x7b' :: _ => flowKeys fuel keyPath line valuePlace rest
            | '[' :: _ => flowItems keyPath line valuePlace rest
            | _ => []

namespace Outline

def start : Outline := ⟨[], none⟩

/-- Takes in a key: it closes what is as deep, and lies in what remains. -/
def key (o : Outline) (line indent : Nat) (content : List Char) : Outline × List Entry :=
  match splitKey? content with
  | none => (o, [])
  | some (key, value) =>
    let frames := o.frames.dropWhile fun f => indent ≤ f.indent
    let path :=
      match frames with
      | f :: _ => f.path ++ "." ++ String.ofList key
      | [] => String.ofList key
    let place := indent + bytesBefore content value
    let value := stripComment value
    let (blockScalar, inner) :=
      match value with
      | '|' :: _ => (some indent, [])
      | '>' :: _ => (some indent, [])
      | '[' :: _ => (o.blockScalar, flowItems path line place value)
      | '\x7b' :: _ => (o.blockScalar, flowKeys value.length path line place value)
      | _ => (o.blockScalar, [])
    (⟨⟨indent, path, false, 0⟩ :: frames, blockScalar⟩, (path, ⟨line, indent⟩) :: inner)

/-- Takes in an item of a list, which may stand at the indentation of its key. -/
def item (o : Outline) (line indent : Nat) (content : List Char) : Outline × List Entry :=
  let frames := o.frames.dropWhile fun f => indent < f.indent || (f.indent == indent && f.isItem)
  match frames with
  | [] => (⟨[], o.blockScalar⟩, [])
  | parent :: outer =>
    let path := parent.path ++ "[" ++ toString parent.nextItem ++ "]"
    let rest := Text.trimStart (content.drop 1)
    let place := indent + bytesBefore content rest
    let frames := ⟨indent, path, true, 0⟩ :: { parent with nextItem := parent.nextItem + 1 } :: outer
    let entry := (path, ⟨line, place⟩)
    match rest with
    | '|' :: _ => (⟨frames, some indent⟩, [entry])
    | '>' :: _ => (⟨frames, some indent⟩, [entry])
    | _ =>
      if rest.isEmpty || Profile.isItem rest || (splitKey? rest).isNone then
        (⟨frames, o.blockScalar⟩, [entry])
      else
        let (after, inner) := key ⟨frames, o.blockScalar⟩ line place rest
        (after, entry :: inner)

/-- Takes in a line. -/
def line (o : Outline) (number : Nat) (raw : List Char) : Outline × List Entry :=
  let indent := (raw.takeWhile (· == ' ')).length
  let content := Text.trimEnd (raw.drop indent)
  if content.isEmpty then (o, [])
  else
    let inScalar : Bool :=
      match o.blockScalar with
      | some outer => decide (outer < indent)
      | none => false
    if inScalar then (o, [])
    else
      let o : Outline := ⟨o.frames, none⟩
      if Text.startsWith content ['#'] then (o, [])
      else if indent == 0 && (Text.startsWith content "---".toList ||
          Text.startsWith content "...".toList) then (⟨[], none⟩, [])
      else if Profile.isItem content then o.item number indent content
      else o.key number indent content

/-- The entries of lines, the first of which has the number `n`. -/
def entries (o : Outline) (n : Nat) : List (List Char) → List Entry
  | [] => []
  | raw :: rest =>
    let (after, found) := o.line n raw
    found ++ after.entries (n + 1) rest

end Outline

/-- The places of all keys and items of a text; of equal paths the last one counts. -/
def LineIndex.ofText (text : String) : LineIndex :=
  .ofList (Outline.start.entries 1 (Text.lines text.toList))

end GrammarProfile.Profile
