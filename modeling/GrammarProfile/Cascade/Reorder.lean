import GrammarProfile.Cascade.Arrangement
import GrammarProfile.Cascade.Tree
import GrammarProfile.Grammar.Model

/-!
The canonical order of a profile: entries with parents before children, and inside an entry the
order of the grammar, what is required first.
-/
namespace GrammarProfile.Cascade

open GrammarProfile.Grammar (Element Model)
open GrammarProfile.Profile (Restriction)
open GrammarProfile.Yaml (Value Pairs)

/-- The canonical order of the entries of a profile tree. -/
def elementOrder (grammar : Model) (elements : Pairs) : List String :=
  arrangement grammar.root (Tree.references elements)

/-- The canonical order of the elements of a profile. -/
def profileOrder (grammar : Model) (profile : Restriction) : List String :=
  arrangement grammar.root
    (profile.elements.pairs.map fun p => (p.1, p.2.childNames))

/-- Puts entries into canonical order. Entries whose key is no word or number come last. -/
def orderElements (grammar : Model) (elements : Pairs) : Pairs :=
  (elementOrder grammar elements).filterMap
    (fun name => (Pairs.get? elements name).map fun v => (.string name, v)) ++
    elements.filter fun p => p.1.scalarText?.isNone

/-- A place among the parts of an element: those that are required come first, then the optional
ones, each in grammar order, and then all others. -/
structure Rank where
  group : Nat
  position : Nat
  deriving DecidableEq, Repr

namespace Rank

def none : Rank := ⟨2, 0⟩

def le (a b : Rank) : Bool := a.group < b.group || (a.group == b.group && a.position ≤ b.position)

/-- The rank of the part at a position. -/
def ofPart (position : Nat) (required : Bool) : Rank := ⟨if required then 0 else 1, position⟩

end Rank

def childRank (e : Element) (name : String) : Rank :=
  match e.children.zipIdx.find? fun c => c.1.name == name with
  | some (c, i) => .ofPart i c.required
  | none => .none

def attributeRank (e : Element) (name : String) : Rank :=
  match e.attributes.zipIdx.find? fun a => a.1.name == name with
  | some (a, i) => .ofPart i a.required
  | none => .none

/-- Sorts pairs by the rank of their keys; those of equal rank keep their order. -/
def sortByRank (rank : String → Rank) (pairs : Pairs) : Pairs :=
  let keyed (p : Value × Value) : Rank := (p.1.scalarText?.map rank).getD .none
  pairs.mergeSort fun a b => (keyed a).le (keyed b)

def isChoiceKey (key : Value) : Bool := key.string? == some Profile.choiceKey

/-- The children of an element in grammar order, the choice last. -/
def reorderChildren (grammar : Model) (element : String) (children : Pairs) : Pairs :=
  match grammar.element? element with
  | none => children
  | some e =>
    let rank := childRank e
    let plain := sortByRank rank (children.filter fun p => !isChoiceKey p.1)
    match (children.filter fun p => isChoiceKey p.1).getLast? with
    | none => plain
    | some (key, .mapping members) => plain ++ [(key, .mapping (sortByRank rank members))]
    | some choice => plain ++ [choice]

/-- The attributes of an element in grammar order. -/
def reorderAttributes (grammar : Model) (element : String) (attributes : Pairs) : Pairs :=
  match grammar.element? element with
  | none => attributes
  | some e => sortByRank (attributeRank e) attributes

/-- Changes a mapping that carries no tag. -/
def editMapping (f : Pairs → Pairs) : Value → Value
  | .mapping pairs => .mapping (f pairs)
  | v => v

/-- Puts the children and attributes of an entry into order. -/
def reorderEntry (grammar : Model) (key entry : Value) : Value :=
  match key.scalarText? with
  | none => entry
  | some name =>
    entry.editPairs fun fields =>
      Pairs.update "attributes" (editMapping (reorderAttributes grammar name))
        (Pairs.update "children" (editMapping (reorderChildren grammar name)) fields)

/-- Puts the entries of a profile tree, and what is in them, into order; `none` if it has none. -/
def reorderTree (grammar : Model) (tree : Value) : Option Value :=
  if (Tree.elements? tree).isNone then none
  else
    some (Tree.editElements
      (fun elements =>
        orderElements grammar (elements.map fun p => (p.1, reorderEntry grammar p.1 p.2))) tree)

def reorder (grammar : Model) (text : String) : Except Error String :=
  editText (reorderTree grammar) text

end GrammarProfile.Cascade
