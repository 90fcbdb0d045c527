/-!
Walks through a directed graph whose nodes are names.
-/
namespace GrammarProfile

/-- The nodes reached from those in `waiting`, depth first, each once and before what follows it;
`seen` are the nodes already visited, the last one first. -/
def walkFrom (next : String → List String) : Nat → List String → List String → List String
  | 0, _, seen => seen.reverse
  | _ + 1, [], seen => seen.reverse
  | fuel + 1, name :: waiting, seen =>
    if seen.contains name then walkFrom next fuel waiting seen
    else walkFrom next fuel (next name ++ waiting) (name :: seen)

/-- A walk in a graph of at most `edges` edges. -/
def walk (next : String → List String) (edges : Nat) (starts : List String) : List String :=
  walkFrom next (starts.length + edges + 1) starts []

end GrammarProfile
