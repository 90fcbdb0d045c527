import GrammarProfile.Text.Names

/-!
Arranging names so that parents come before their children, and otherwise in code point order.
-/
namespace GrammarProfile.Cascade

/-- A name that is still to be placed, with its parents that are, too. -/
structure Waiting where
  name : String
  parents : List String
  deriving DecidableEq, Repr

/-- The others, once a name is placed. -/
def place (name : String) (waiting : List Waiting) : List Waiting :=
  (waiting.filter fun w => w.name != name).map fun w =>
    { w with parents := w.parents.filter (· != name) }

/-- Places the first name without waiting parents, again and again; where all have some, they lie
on cycles or below them and are placed as they stand. -/
def arrange : Nat → List Waiting → List String
  | 0, _ => []
  | fuel + 1, waiting =>
    match waiting.find? fun w => w.parents.isEmpty with
    | some w => w.name :: arrange fuel (place w.name waiting)
    | none => waiting.map (·.name)

/-- The names with those of their parents that are names themselves, in code point order. -/
def waitingOf (edges : List (String × List String)) : List Waiting :=
  (Text.nameSet (edges.map Prod.fst)).map fun name =>
    ⟨name, (edges.filter fun e => e.2.contains name).map Prod.fst⟩

/-- The names of `edges`, each of which is given with its children, as an arrangement. The root
comes first if it has no parent. -/
def arrangement (root : Option String) (edges : List (String × List String)) : List String :=
  let waiting := waitingOf edges
  match root with
  | none => arrange waiting.length waiting
  | some r =>
    if waiting.any fun w => w.name == r && w.parents.isEmpty then
      r :: arrange waiting.length (place r waiting)
    else arrange waiting.length waiting

end GrammarProfile.Cascade
