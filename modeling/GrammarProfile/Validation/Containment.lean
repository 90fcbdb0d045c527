import GrammarProfile.Validation.Subject

/-!
Children that the grammar does not allow where the profile lists them.
-/
namespace GrammarProfile.Validation.Containment

open GrammarProfile.Profile

def children (s : Subject) (name : String) (rule : ElementRule) : List Diagnostic :=
  let valid := s.grammar.childNames name
  (rule.children.keys.filter fun c => s.grammar.hasElement c && !valid.contains c).map fun c =>
    s.report .error "structure.invalid-child" (childPath name c)
      ("<" ++ name ++ "> cannot contain <" ++ c ++
        "> according to the AKN schema. Valid children: " ++ shownSet valid)

/-- The first part has to be a child of the element. -/
def firstPart (s : Subject) (name : String) (rule : ElementRule) : List Diagnostic :=
  (rule.parts.take 1).filter (fun p =>
    s.grammar.hasElement p && !(s.grammar.childNames name).contains p) |>.map fun p =>
      s.report .error "structure.invalid-structure-root" (partPath name 0)
        ("<" ++ p ++ "> is not a valid child of <" ++ name ++
          ">, so it cannot be the first level of the structure hierarchy")

/-- Every further part has to be a child of the part before it. -/
def chain (s : Subject) (name : String) (rule : ElementRule) : List Diagnostic :=
  ((rule.parts.zip (rule.parts.drop 1)).zipIdx.filter fun ((parent, child), _) =>
    s.grammar.hasElement parent && s.grammar.hasElement child &&
      !(s.grammar.childNames parent).contains child).map fun ((parent, child), i) =>
        s.report .error "structure.invalid-structure-chain" (partPath name (i + 1))
          ("<" ++ parent ++ "> cannot contain <" ++ child ++
            "> according to the AKN schema, so the structure chain '" ++ parent ++ " > " ++
            child ++ "' is invalid")

def check (s : Subject) : List Diagnostic :=
  s.knownElements.flatMap fun (name, rule) =>
    children s name rule ++ firstPart s name rule ++ chain s name rule

end GrammarProfile.Validation.Containment
