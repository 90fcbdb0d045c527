import GrammarProfile.Text.Lines
import GrammarProfile.Yaml.Characters
import GrammarProfile.Yaml.Scalar

/-!
The ways to write a text as a YAML scalar: plain, in single or double quotes, or as a literal
block. A text gets the first of them that reads back as the same text.
-/
namespace GrammarProfile.Yaml

inductive Style where
  | plain
  | singleQuoted
  | doubleQuoted
  | literal
  deriving DecidableEq, Repr, Inhabited

/-- Whether a character of one kind is directly followed by one of another kind. -/
def hasNeighbours (p q : Char → Bool) : List Char → Bool
  | a :: b :: rest => (p a && q b) || hasNeighbours p q (b :: rest)
  | _ => false

/-- Whether nothing, or a gap, comes next. -/
def atGap : List Char → Bool
  | [] => true
  | c :: _ => isGap c

/-- Whether a colon is followed by a gap or by nothing. -/
def hasEndingColon : List Char → Bool
  | [] => false
  | c :: rest => (c == ':' && atGap rest) || hasEndingColon rest

/-- Whether a text begins with what would not begin a plain scalar. -/
def beginsAsIndicator (cs : List Char) : Bool :=
  Text.startsWith cs "---".toList || Text.startsWith cs "...".toList ||
    match cs with
    | c :: rest =>
      "#,[]\x7b\x7d&*!|>'\"%@`".toList.contains c ||
        ((c == '?' || c == ':' || c == '-') && atGap rest)
    | [] => false

def headIs (p : Char → Bool) (cs : List Char) : Bool := cs.head?.any p

def lastIs (p : Char → Bool) (cs : List Char) : Bool := cs.getLast?.any p

namespace Style

/-- Whether a space precedes a line break, or some character is not printable. -/
def needsEscapes (cs : List Char) : Bool :=
  hasNeighbours (· == ' ') isBreak cs || cs.any fun c => !isPrintable c

def allowsPlain (cs : List Char) : Bool :=
  !(cs.any isBreak || needsEscapes cs || headIs (· == ' ') cs || lastIs (· == ' ') cs ||
    beginsAsIndicator cs || hasEndingColon cs || hasNeighbours isGap (· == '#') cs)

def allowsSingleQuotes (cs : List Char) : Bool :=
  !(needsEscapes cs || hasNeighbours isBreak (· == ' ') cs)

def allowsLiteral (cs : List Char) : Bool := !(needsEscapes cs || lastIs (· == ' ') cs)

/-- The style of a text. What would read as another value has to be quoted. -/
def ofText (cs : List Char) : Style :=
  if cs.contains '\n' then if allowsLiteral cs then literal else doubleQuoted
  else if Scalar.meaning cs == .text && !Scalar.isZeroLed cs && allowsPlain cs then plain
  else if allowsSingleQuotes cs then singleQuoted
  else doubleQuoted

end Style

/-- The upper-case hexadecimal digits of a number, in a fixed width. -/
def hexDigits : Nat → Nat → List Char
  | 0, _ => []
  | width + 1, n => hexDigits width (n / 16) ++ [(Nat.digitChar (n % 16)).toUpper]

/-- How a character stands between double quotes. -/
def escaped (c : Char) : List Char :=
  match c with
  | '\x00' => "\\0".toList
  | '\x07' => "\\a".toList
  | '\x08' => "\\b".toList
  | '\t' => "\\t".toList
  | '\n' => "\\n".toList
  | '\x0b' => "\\v".toList
  | '\x0c' => "\\f".toList
  | '\r' => "\\r".toList
  | '\x1b' => "\\e".toList
  | '"' => "\\\"".toList
  | '\\' => "\\\\".toList
  | '\x85' => "\\N".toList
  | '\u2028' => "\\L".toList
  | '\u2029' => "\\P".toList
  | _ =>
    if isPrintable c then [c]
    else if c.toNat ≤ 0xFF then '\\' :: 'x' :: hexDigits 2 c.toNat
    else if c.toNat ≤ 0xFFFF then '\\' :: 'u' :: hexDigits 4 c.toNat
    else '\\' :: 'U' :: hexDigits 8 c.toNat

def spaces (n : Nat) : List Char := List.replicate n ' '

def doubleQuote (cs : List Char) : List Char := '"' :: (cs.flatMap escaped ++ ['"'])

/-- A text before its closing quote. A quote is written twice; what follows a line break is
indented. -/
def singleQuotedBody (indent : Nat) (afterBreak : Bool) : List Char → List Char
  | [] => if afterBreak then spaces indent else []
  | c :: rest =>
    if isBreak c then c :: singleQuotedBody indent true rest
    else
      (if afterBreak then spaces indent else []) ++ (if c == '\'' then ['\'', '\''] else [c]) ++
        singleQuotedBody indent false rest

def singleQuote (indent : Nat) (cs : List Char) : List Char :=
  '\'' :: (singleQuotedBody indent false cs ++ ['\''])

/-- The lines of a literal block; empty lines are not indented. -/
def literalBody (indent : Nat) (afterBreak : Bool) : List Char → List Char
  | [] => []
  | c :: rest =>
    if isBreak c then c :: literalBody indent true rest
    else (if afterBreak then spaces indent else []) ++ c :: literalBody indent false rest

/-- What the header of a literal block says besides `|`: the indentation if the text begins with
a gap, and whether line breaks at the end are dropped or all kept. -/
def literalHints (cs : List Char) : List Char :=
  (if headIs (fun c => c == ' ' || isBreak c) cs then ['2'] else []) ++
    match cs.reverse with
    | [] => ['-']
    | last :: before =>
      if !isBreak last then ['-']
      else
        match before with
        | [] => ['+']
        | c :: _ => if isBreak c then ['+'] else []

def literalBlock (indent : Nat) (cs : List Char) : List Char :=
  '|' :: (literalHints cs ++ '\n' :: literalBody indent true cs)

/-- A text in its style, where `indent` is the indentation of its further lines. -/
def scalarText (indent : Nat) (cs : List Char) : List Char :=
  match Style.ofText cs with
  | .plain => cs
  | .singleQuoted => singleQuote indent cs
  | .doubleQuoted => doubleQuote cs
  | .literal => literalBlock indent cs

/-- A written scalar with the line feed that ends it, unless it ends in a line break itself. -/
def endLine (written : List Char) : List Char :=
  if lastIs isBreak written then written else written ++ ['\n']

end GrammarProfile.Yaml
