import GrammarProfile.Validation.Subject

/-!
What a profile says twice, and document types about which it says nothing.
-/
namespace GrammarProfile.Validation.Identity

open GrammarProfile.Profile

/-- Parts of an element that stand in the list before. -/
def repeatedParts (s : Subject) (name : String) (rule : ElementRule) : List Diagnostic :=
  rule.parts.zipIdx.filterMap fun (part, i) =>
    let first := rule.parts.idxOf part
    if first < i then
      some (s.report .warning "identity.duplicate-structure-entry" (partPath name i)
        ("'" ++ part ++ "' appears more than once in the structure list of <" ++ name ++
          "> (first at index " ++ toString first ++ ")"))
    else none

def undeclaredTypes (s : Subject) : List Diagnostic :=
  (s.profile.documentTypes.zipIdx.filter fun p => !s.declares p.1).map fun (name, i) =>
    s.report .info "identity.doctype-without-element-restriction" (documentTypePath i)
      ("Document type '" ++ name ++
        "' is listed in documentTypes but has no corresponding entry under 'elements'. " ++
        "Consider adding element restrictions for <" ++ name ++ ">.")

def check (s : Subject) : List Diagnostic :=
  s.profile.elements.pairs.flatMap (fun (name, rule) => repeatedParts s name rule) ++
    undeclaredTypes s

end GrammarProfile.Validation.Identity
