import GrammarProfile.Text.Blank
import GrammarProfile.Text.Lines

/-!
The layout of a written profile: nulls become bare keys, and a blank line sets off sections and
element entries. Lines inside block scalars stay as they are.
-/
namespace GrammarProfile.Profile.Layout

def indentOf (line : List Char) : Nat := (line.takeWhile (· == ' ')).length

/-- `act: null` becomes `act:`. -/
def bareNull (line : List Char) : List Char :=
  match Text.dropTail? line " null".toList with
  | some key => if Text.endsWith key [':'] then key else line
  | none => line

/-- Whether a line ends in the header of a block scalar. -/
def opensBlockScalar (line : List Char) : Bool :=
  match Text.splitLast? ' ' (Text.trimEnd line) with
  | none => false
  | some (head, token) =>
    let isHeader :=
      match token with
      | c :: rest =>
        (c == '|' || c == '>') && rest.all fun d => d == '-' || d == '+' || d.isDigit
      | [] => false
    let head := Text.trimEnd head
    isHeader && (Text.endsWith head [':'] || Text.trimStart head == ['-'])

/-- What the lines so far leave behind. -/
structure State where
  /-- The last line written, if there is one. -/
  last : Option (List Char)
  inElements : Bool
  /-- The indentation of the line whose block scalar is still going on. -/
  block : Option Nat

def State.start : State := ⟨none, false, none⟩

/-- Whether a line is a section that a blank line sets off. -/
def isSection (line : List Char) : Bool :=
  indentOf line == 2 &&
    (Text.trim line == "documentTypes:".toList || Text.trim line == "elements:".toList)

/-- Whether a line inside the elements section is an entry of its own. -/
def isEntry (line : List Char) : Bool :=
  let key := Text.trimStart line
  indentOf line == 4 && !Text.startsWith key ['-'] &&
    (Text.endsWith key [':'] || Text.holds ": ".toList key)

def elementsLine : List Char := "  elements:".toList

/-- The lines written for a line: itself, with a blank line before it where one is due. -/
def layLine (s : State) (line : List Char) : State × List (List Char) :=
  let indent := indentOf line
  let inBlock :=
    match s.block with
    | some outer => (Text.trim line).isEmpty || outer < indent
    | none => false
  if inBlock then (⟨some line, s.inElements, s.block⟩, [line])
  else
    let block := if opensBlockScalar line then some indent else none
    let inElements := s.inElements && (line.isEmpty || 4 ≤ indent)
    let afterText := (s.last.getD []) != []
    let setOff :=
      (s.last.isSome && isSection line && afterText) ||
        (inElements && isEntry line && afterText && s.last != some elementsLine)
    let written := bareNull line
    (⟨some written, inElements || line == elementsLine, block⟩,
      if setOff then [[], written] else [written])

def layLines (s : State) : List (List Char) → List (List Char)
  | [] => []
  | line :: rest =>
    let (after, written) := layLine s line
    written ++ layLines after rest

/-- The text with its lines laid out; it ends in a line feed. -/
def tidy (text : String) : String :=
  String.ofList
    (Text.joinWith ['\n'] (layLines .start (Text.lines text.toList)) ++ ['\n'])

end GrammarProfile.Profile.Layout
