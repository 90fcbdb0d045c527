import GrammarProfile.Grammar.Model
import GrammarProfile.Walk

/-!
What an element forces into a document: the children that the grammar requires in it, what it
requires in those, and so on.
-/
namespace GrammarProfile.Grammar.Model

def requiredChildNames (m : Model) (name : String) : List String :=
  (m.requiredChildren name).map (·.name)

/-- The number of children of all elements together. -/
def childCount (m : Model) : Nat := (m.elements.values.flatMap (·.children)).length

/-- All names that `start` requires, directly or not, and `start` itself, depth first in grammar
order. Some may be no elements. -/
def requiredNames (m : Model) (start : String) : List String :=
  walk m.requiredChildNames m.childCount [start]

/-- The elements that `start` requires over elements, and `start` itself if it is one, depth first
in grammar order. -/
def requiredClosure (m : Model) (start : String) : List String :=
  walk (fun name => (m.requiredChildNames name).filter m.hasElement) m.childCount
    ([start].filter m.hasElement)

end GrammarProfile.Grammar.Model
