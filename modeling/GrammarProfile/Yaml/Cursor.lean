import GrammarProfile.Yaml.Characters

/-!
Places in a YAML text, what can be wrong there, and what remains of a text at a place.
-/
namespace GrammarProfile.Yaml

/-- A place: the characters before it, the lines before it, and the characters before it in its
line. -/
structure Mark where
  index : Nat
  line : Nat
  column : Nat
  deriving DecidableEq, Repr, Inhabited

/-- What keeps a text from being one document. -/
inductive Problem where
  | controlCharacter
  | noToken
  | unfinishedKey
  | entryNotAllowed
  | keyNotAllowed
  | valueNotAllowed
  | directiveName
  | unknownDirective
  | directiveEnd
  | versionNumber
  | tagHandle
  | tagText
  | tagOctet
  | tagEnd
  | anchorName
  | zeroIndentation
  | blockHeader
  | blockTab
  | markInQuotes
  | openQuote
  | unknownEscape
  | escapeDigits
  | escapeCode
  | colonInFlow
  | plainTab
  | documentStart
  | repeatedVersion
  | foreignVersion
  | repeatedHandle
  | unknownHandle
  | noContent
  | noEntry
  | noKey
  | sequenceEnd
  | mappingEnd
  | unknownAnchor
  | tooDeep
  | tooManyAliases
  | repeatedKey
  | notOfTag
  | outOfRange
  | manyDocuments
  deriving DecidableEq, Repr, Inhabited

def Problem.message : Problem → String
  | controlCharacter => "control characters are not allowed"
  | noToken => "found a character that cannot start any token"
  | unfinishedKey => "could not find the expected ':' after a simple key"
  | entryNotAllowed => "list entries are not allowed in this context"
  | keyNotAllowed => "mapping keys are not allowed in this context"
  | valueNotAllowed => "mapping values are not allowed in this context"
  | directiveName => "did not find the expected directive name"
  | unknownDirective => "found an unknown directive name"
  | directiveEnd => "did not find the expected end of a directive"
  | versionNumber => "did not find the expected version number"
  | tagHandle => "did not find the expected '!' of a tag handle"
  | tagText => "did not find the expected text of a tag"
  | tagOctet => "found an incorrect escaped octet in a tag"
  | tagEnd => "did not find the expected end of a tag"
  | anchorName => "did not find the expected name of an anchor or alias"
  | zeroIndentation => "found an indentation indicator equal to 0"
  | blockHeader => "did not find the expected end of a block scalar header"
  | blockTab => "found a tab character where indentation is expected"
  | markInQuotes => "found an unexpected document indicator in a quoted scalar"
  | openQuote => "found an unexpected end of the text in a quoted scalar"
  | unknownEscape => "found an unknown escape character"
  | escapeDigits => "did not find the expected hexadecimal digits"
  | escapeCode => "found an invalid character code"
  | colonInFlow => "found an unexpected ':'"
  | plainTab => "found a tab character that violates indentation"
  | documentStart => "did not find the expected start of a document"
  | repeatedVersion => "found a second version directive"
  | foreignVersion => "found a document of another version"
  | repeatedHandle => "found a second directive for a tag handle"
  | unknownHandle => "found an undefined tag handle"
  | noContent => "did not find the expected content of a node"
  | noEntry => "did not find the expected '-' indicator"
  | noKey => "did not find the expected key"
  | sequenceEnd => "did not find the expected ',' or ']'"
  | mappingEnd => "did not find the expected ',' or closing brace"
  | unknownAnchor => "unknown anchor"
  | tooDeep => "recursion limit exceeded"
  | tooManyAliases => "repetition limit exceeded"
  | repeatedKey => "duplicate entry"
  | notOfTag => "the value does not have the type of its tag"
  | outOfRange => "integer out of range"
  | manyDocuments => "more than one document"

/-- A problem at a place. What concerns the text as a whole has no place. -/
structure Error where
  problem : Problem
  mark : Option Mark
  deriving DecidableEq, Repr, Inhabited

def Error.message (e : Error) : String :=
  match e.mark with
  | some m =>
    e.problem.message ++ " at line " ++ toString (m.line + 1) ++ " column " ++
      toString (m.column + 1)
  | none => e.problem.message

/-- What remains of a text, and the place where it begins. -/
structure Cursor where
  rest : List Char
  mark : Mark
  deriving DecidableEq, Repr, Inhabited

namespace Cursor

def start (cs : List Char) : Cursor := ⟨cs, ⟨0, 0, 0⟩⟩

def next? (c : Cursor) : Option Char := c.rest.head?

/-- Whether the next character satisfies `p`; at the end none does. -/
def sees (c : Cursor) (p : Char → Bool) : Bool := c.rest.head?.any p

/-- Whether a gap or the end comes after `n` characters. -/
def gapAfter (c : Cursor) (n : Nat) : Bool := (c.rest.drop n).head?.all isGap

def atEnd (c : Cursor) : Bool := c.rest.isEmpty

/-- Whether the line, or the text, ends here. -/
def atLineEnd (c : Cursor) : Bool := c.rest.head?.all isBreak

/-- Moves over `n` characters of a line. -/
def skip (c : Cursor) (n : Nat) : Cursor :=
  ⟨c.rest.drop n, ⟨c.mark.index + n, c.mark.line, c.mark.column + n⟩⟩

/-- The characters from here that satisfy `p`, none of which may be a line break, and the place
after them. -/
def takeWhile (c : Cursor) (p : Char → Bool) : List Char × Cursor :=
  let taken := c.rest.takeWhile p
  (taken, c.skip taken.length)

def skipWhile (c : Cursor) (p : Char → Bool) : Cursor := (c.takeWhile p).2

def newLine (c : Cursor) (n : Nat) : Cursor :=
  ⟨c.rest.drop n, ⟨c.mark.index + n, c.mark.line + 1, 0⟩⟩

/-- Moves over a line break, which stands for a line feed unless it is a separator character. -/
def lineBreak? (c : Cursor) : Option (Char × Cursor) :=
  match c.rest with
  | '\r' :: '\n' :: _ => some ('\n', c.newLine 2)
  | '\r' :: _ => some ('\n', c.newLine 1)
  | '\n' :: _ => some ('\n', c.newLine 1)
  | '\x85' :: _ => some ('\n', c.newLine 1)
  | '\u2028' :: _ => some ('\u2028', c.newLine 1)
  | '\u2029' :: _ => some ('\u2029', c.newLine 1)
  | _ => none

/-- Moves to the end of the line over blanks and a comment. A comment may follow without a
blank. -/
def skipComment (c : Cursor) : Cursor :=
  let c := c.skipWhile isSpacing
  if c.next? == some '#' then c.skipWhile (!isBreak ·) else c

/-- Whether a document marker stands here, at the beginning of a line. -/
def atMarker (c : Cursor) (marker : String) : Bool :=
  c.mark.column == 0 && marker.toList.isPrefixOf c.rest && c.gapAfter 3

def atDocumentMarker (c : Cursor) : Bool := c.atMarker "---" || c.atMarker "..."

end Cursor

def Cursor.fail {α : Type} (c : Cursor) (p : Problem) : Except Error α := .error ⟨p, some c.mark⟩

end GrammarProfile.Yaml
