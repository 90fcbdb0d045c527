import GrammarProfile.OrderedMap
import GrammarProfile.Text.Lines

/-!
Where the keys and items of a profile stand in its text. A path such as
`profile.elements.act.children.meta` or `profile.documentTypes[0]` names a key or an item.
-/
namespace GrammarProfile.Profile

/-- A position in a text: lines count from one, columns from zero. -/
structure Location where
  line : Nat
  column : Nat
  deriving DecidableEq, Repr, Inhabited

/-- `a.b[2]` lies in `a.b`, which lies in `a`, which lies in nothing. -/
def parentPath? (path : String) : Option String :=
  let cs := path.toList
  let upTo (sep : Char) : Option String :=
    (Text.splitLast? sep cs).map fun p => String.ofList p.1
  if cs.getLast? == some ']' then
    match upTo '[' with
    | some parent => some parent
    | none => upTo '.'
  else upTo '.'

/-- The places of paths. -/
abbrev LineIndex := OrderedMap Location

namespace LineIndex

/-- The place of the nearest known path among `path` and those in which it lies; `fuel` bounds
their number. -/
def locateWithin (index : LineIndex) : Nat → String → Option Location
  | 0, _ => none
  | fuel + 1, path =>
    match index.get? path with
    | some l => some l
    | none =>
      match parentPath? path with
      | some parent => locateWithin index fuel parent
      | none => none

/-- The place of a path, or of the nearest path in which it lies. -/
def locate (index : LineIndex) (path : String) : Option Location :=
  index.locateWithin (path.length + 1) path

end LineIndex

end GrammarProfile.Profile
