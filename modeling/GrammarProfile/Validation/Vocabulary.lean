import GrammarProfile.Validation.Subject

/-!
Names that the grammar does not know.
-/
namespace GrammarProfile.Validation.Vocabulary

open GrammarProfile.Grammar (Element)
open GrammarProfile.Profile

def unknownElement (s : Subject) (name path : String) : Diagnostic :=
  s.report .error "vocabulary.unknown-element" path
    ("'" ++ name ++ "' is not a known AKN element")

def documentTypes (s : Subject) : List Diagnostic :=
  let valid := s.grammar.documentTypes
  (s.profile.documentTypes.zipIdx.filter fun p => !valid.contains p.1).map fun (name, i) =>
    s.report .error "vocabulary.unknown-document-type" (documentTypePath i)
      ("'" ++ name ++ "' is not a valid AKN document type. Valid types: " ++ shownSet valid)

def attributes (s : Subject) (name : String) (e : Element) (rule : ElementRule) :
    List Diagnostic :=
  (rule.attributes.keys.filter fun a => !e.hasAttribute a).map fun a =>
    s.report .error "vocabulary.unknown-attribute" (attributePath name a)
      ("'" ++ a ++ "' is not a valid attribute on <" ++ name ++ ">. Known attributes: " ++
        shownSet (e.attributes.map (·.name)))

/-- The names that an entry refers to, with their paths. -/
def references (name : String) (rule : ElementRule) : List (String × String) :=
  rule.children.keys.map (fun c => (c, childPath name c)) ++
    rule.alternatives.keys.map (fun c => (c, alternativePath name c)) ++
    rule.parts.zipIdx.map fun (p, i) => (p, partPath name i)

/-- An unknown element is reported once; what is written about it is not looked at. -/
def entry (s : Subject) (name : String) (rule : ElementRule) : List Diagnostic :=
  match s.grammar.element? name with
  | none => [unknownElement s name (elementPath name)]
  | some e =>
    attributes s name e rule ++
      ((references name rule).filter fun r => !s.grammar.hasElement r.1).map fun (n, path) =>
        unknownElement s n path

def check (s : Subject) : List Diagnostic :=
  documentTypes s ++ s.profile.elements.pairs.flatMap fun (name, rule) => entry s name rule

end GrammarProfile.Validation.Vocabulary
