/-!
Lines of a text. A line feed ends a line, a carriage return right before it belongs to the
line break, and a text that ends in a line break has no empty last line.
-/
namespace GrammarProfile.Text

/-- Cuts at every character `sep`; there is always at least one piece. -/
def splitAll (sep : Char) : List Char → List (List Char)
  | [] => [[]]
  | c :: rest =>
    if c = sep then [] :: splitAll sep rest
    else
      match splitAll sep rest with
      | [] => [[c]]
      | piece :: pieces => (c :: piece) :: pieces

/-- Cuts at the first `sep`, which belongs to neither part. -/
def splitFirst? (sep : Char) : List Char → Option (List Char × List Char)
  | [] => none
  | c :: rest =>
    if c = sep then some ([], rest)
    else (splitFirst? sep rest).map fun (a, b) => (c :: a, b)

/-- Cuts at the last `sep`, which belongs to neither part. -/
def splitLast? (sep : Char) : List Char → Option (List Char × List Char)
  | [] => none
  | c :: rest =>
    match splitLast? sep rest with
    | some (a, b) => some (c :: a, b)
    | none => if c = sep then some ([], rest) else none

/-- A line without the carriage return that precedes its line feed. -/
def dropReturn (line : List Char) : List Char :=
  match line.getLast? with
  | some '\r' => line.dropLast
  | _ => line

/-- The lines of pieces cut at line feeds: the last piece is a line only if it holds something,
and only pieces followed by a line feed lose a carriage return. -/
def linesOfPieces : List (List Char) → List (List Char)
  | [] => []
  | [last] => if last.isEmpty then [] else [last]
  | piece :: rest => dropReturn piece :: linesOfPieces rest

def lines (cs : List Char) : List (List Char) := linesOfPieces (splitAll '\n' cs)

def startsWith (cs start : List Char) : Bool := start.isPrefixOf cs

def endsWith (cs tail : List Char) : Bool := tail.isSuffixOf cs

/-- Whether `what` stands somewhere in the text. -/
def holds (what : List Char) : List Char → Bool
  | [] => what.isEmpty
  | c :: rest => startsWith (c :: rest) what || holds what rest

/-- The text with `start` removed, if it begins so. -/
def dropStart? : List Char → List Char → Option (List Char)
  | cs, [] => some cs
  | [], _ :: _ => none
  | c :: cs, d :: start => if c = d then dropStart? cs start else none

/-- The text with `tail` removed, if it ends so. -/
def dropTail? (cs tail : List Char) : Option (List Char) :=
  if tail.isSuffixOf cs then some (cs.take (cs.length - tail.length)) else none

/-- The number of bytes that the characters take in UTF-8. -/
def byteCount : List Char → Nat
  | [] => 0
  | c :: rest => c.utf8Size + byteCount rest

/-- Pieces joined with a separator between neighbours. -/
def joinWith (sep : List Char) : List (List Char) → List Char
  | [] => []
  | [piece] => piece
  | piece :: rest => piece ++ sep ++ joinWith sep rest

end GrammarProfile.Text
