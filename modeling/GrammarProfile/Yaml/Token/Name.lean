import GrammarProfile.Text.Number
import GrammarProfile.Yaml.Token
import GrammarProfile.Yaml.Token.Text

/-!
Reading anchors, tags and directives.
-/
namespace GrammarProfile.Yaml

/-- Reads the name of an anchor or alias after its indicator. -/
def scanAnchor (c : Cursor) : Except Error (String × Cursor) :=
  let (name, after) := (c.skip 1).takeWhile isWordChar
  let ends := after.next?.all fun ch => isGap ch || "?:,]\x7d%@`".toList.contains ch
  if name.isEmpty || !ends then after.fail .anchorName else .ok (String.ofList name, after)

namespace Tag

/-- Reads `!`, or a name between two of them. -/
def scanHandle (isDirective : Bool) (c : Cursor) : Except Error (List Char × Cursor) :=
  if c.next? != some '!' then c.fail .tagHandle
  else
    let (name, after) := (c.skip 1).takeWhile isWordChar
    if after.next? == some '!' then .ok ('!' :: name ++ ['!'], after.skip 1)
    else if isDirective && !name.isEmpty then after.fail .tagHandle
    else .ok ('!' :: name, after)

/-- The number of octets that the first octet of a character in UTF-8 announces. -/
def octetCount (octet : Nat) : Nat :=
  if octet < 0x80 then 1
  else if octet / 0x20 == 6 then 2
  else if octet / 0x10 == 14 then 3
  else if octet / 8 == 30 then 4
  else 0

/-- Reads `%` and two hexadecimal digits. -/
def scanOctet (c : Cursor) : Except Error (Nat × Cursor) :=
  let digits := (c.rest.drop 1).take 2
  match (if c.next? == some '%' && digits.length == 2 then hexValue? digits else none) with
  | some octet => .ok (octet, c.skip 3)
  | none => c.fail .tagOctet

/-- Reads further octets of a character. -/
def scanOctets : Nat → Cursor → Except Error (List Nat × Cursor)
  | 0, c => .ok ([], c)
  | n + 1, c =>
    match scanOctet c with
    | .error e => .error e
    | .ok (octet, after) =>
      if octet / 0x40 != 2 then c.fail .tagOctet
      else
        match scanOctets n after with
        | .ok (octets, after) => .ok (octet :: octets, after)
        | .error e => .error e

/-- Reads a character that is written as octets. -/
def scanEscaped (c : Cursor) : Except Error (List Nat × Cursor) :=
  match scanOctet c with
  | .error e => .error e
  | .ok (octet, after) =>
    match octetCount octet with
    | 0 => c.fail .tagOctet
    | n + 1 =>
      match scanOctets n after with
      | .ok (octets, after) => .ok (octet :: octets, after)
      | .error e => .error e

def isUriChar (wide : Bool) (c : Char) : Bool :=
  isWordChar c || ";/?:@&=+$.%!~*'()".toList.contains c || (wide && ",[]".toList.contains c)

def decode? (octets : List Nat) : Option String :=
  String.fromUTF8? (ByteArray.mk (octets.map Nat.toUInt8).toArray)

/-- Reads the characters of a tag as octets; `wide` admits some that end a tag elsewhere. -/
def scanUri (wide : Bool) : Nat → List Nat → Cursor → Except Error (List Nat × Cursor)
  | 0, done, c => .ok (done, c)
  | fuel + 1, done, c =>
    match c.next? with
    | none => .ok (done, c)
    | some ch =>
      if !isUriChar wide ch then .ok (done, c)
      else if ch == '%' then
        match scanEscaped c with
        | .ok (octets, after) => scanUri wide fuel (done ++ octets) after
        | .error e => .error e
      else scanUri wide fuel (done ++ [ch.toNat]) (c.skip 1)

/-- Reads at least one character of a tag. -/
def scanUri1 (wide : Bool) (c : Cursor) : Except Error (List Nat × Cursor) :=
  match scanUri wide (c.rest.length + 1) [] c with
  | .ok ([], after) => after.fail .tagText
  | r => r

/-- Reads a tag in angle brackets. -/
def scanVerbatim (c : Cursor) : Except Error (String × Option String × Cursor) :=
  match scanUri1 true (c.skip 2) with
  | .error e => .error e
  | .ok (octets, after) =>
    if after.next? != some '>' then after.fail .tagEnd else .ok ("", decode? octets, after.skip 1)

/-- Reads a tag after a handle. What looks like a handle but has no second `!` belongs to the
tag; a lone `!` is a tag of its own. -/
def scanShort (c : Cursor) : Except Error (String × Option String × Cursor) :=
  match scanHandle false c with
  | .error e => .error e
  | .ok (handle, after) =>
    match handle with
    | '!' :: c :: more =>
      if (c :: more).getLast? == some '!' then
        match scanUri1 false after with
        | .ok (octets, after) => .ok (String.ofList handle, decode? octets, after)
        | .error e => .error e
      else
        match scanUri false (after.rest.length + 1) ((c :: more).map Char.toNat) after with
        | .ok (octets, after) => .ok ("!", decode? octets, after)
        | .error e => .error e
    | _ =>
      match scanUri false (after.rest.length + 1) [] after with
      | .ok ([], after) => .ok ("", some "!", after)
      | .ok (octets, after) => .ok ("!", decode? octets, after)
      | .error e => .error e

/-- Reads a tag, which a gap has to follow, or a comma in a flow collection. -/
def scan (inFlow : Bool) (c : Cursor) : Except Error (TokenKind × Cursor) :=
  let tag := if (c.rest.drop 1).head? == some '<' then scanVerbatim c else scanShort c
  match tag with
  | .error e => .error e
  | .ok (handle, suffix, after) =>
    if after.gapAfter 0 || (inFlow && after.next? == some ',') then
      .ok (.tag handle suffix, after)
    else after.fail .tagEnd

end Tag

namespace Directive

/-- Reads a part of a version number, of at most nine digits. -/
def scanNumber (c : Cursor) : Except Error (Nat × Cursor) :=
  let (digits, after) := c.takeWhile Char.isDigit
  if 9 < digits.length then (c.skip 9).fail .versionNumber
  else
    match Text.decimal? digits with
    | some n => .ok (n, after)
    | none => after.fail .versionNumber

def scanVersion (c : Cursor) : Except Error (TokenKind × Cursor) :=
  match scanNumber (c.skipWhile isSpacing) with
  | .error e => .error e
  | .ok (major, c) =>
    if c.next? != some '.' then c.fail .versionNumber
    else
      match scanNumber (c.skip 1) with
      | .ok (minor, c) => .ok (.version major minor, c)
      | .error e => .error e

def scanTagDirective (c : Cursor) : Except Error (TokenKind × Cursor) :=
  match Tag.scanHandle true (c.skipWhile isSpacing) with
  | .error e => .error e
  | .ok (handle, c) =>
    if !c.sees isSpacing then c.fail .directiveEnd
    else
      match Tag.scanUri1 true (c.skipWhile isSpacing) with
      | .error e => .error e
      | .ok (octets, c) =>
        if !c.gapAfter 0 then c.fail .directiveEnd
        else .ok (.tagDirective (String.ofList handle) ((Tag.decode? octets).getD ""), c)

/-- Reads a directive and the line break after it. -/
def scan (c : Cursor) : Except Error (TokenKind × Cursor) :=
  let (name, after) := (c.skip 1).takeWhile isWordChar
  if name.isEmpty then after.fail .directiveName
  else if !after.gapAfter 0 then after.fail .directiveName
  else
    let directive : Except Error (TokenKind × Cursor) :=
      match String.ofList name with
      | "YAML" => scanVersion after
      | "TAG" => scanTagDirective after
      | _ => after.fail .unknownDirective
    match directive with
    | .error e => .error e
    | .ok (kind, c) =>
      let c := c.skipComment
      if !c.atLineEnd then c.fail .directiveEnd
      else
        match c.lineBreak? with
        | some (_, after) => .ok (kind, after)
        | none => .ok (kind, c)

end Directive

end GrammarProfile.Yaml
