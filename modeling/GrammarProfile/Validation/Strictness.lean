import GrammarProfile.Profile.Cardinality
import GrammarProfile.Validation.Vocabulary

/-!
A profile may tighten the grammar, but must not loosen it.
-/
namespace GrammarProfile.Validation.Strictness

open GrammarProfile.Grammar (Attribute Child Count Element Occurs)
open GrammarProfile.Profile

def inOrder (names : List String) : List String := names.mergeSort Text.nameLE

/-- Required children that are missing where children are listed. -/
def missingChildren (s : Subject) (name : String) (rule : ElementRule) : List Diagnostic :=
  if rule.children.isEmpty then []
  else
    (inOrder ((s.grammar.requiredChildNames name).filter fun c =>
      !rule.children.contains c)).map fun c =>
        s.report .warning "strictness.missing-required-child" (elementPath name ++ ".children")
          ("<" ++ c ++ "> is required by the XSD inside <" ++ name ++
            "> but is not listed in 'children'. The profile is loosening the schema.")

/-- Required attributes that are missing where attributes are listed. -/
def missingAttributes (s : Subject) (name : String) (rule : ElementRule) : List Diagnostic :=
  if rule.attributes.isEmpty then []
  else
    (inOrder (((s.grammar.requiredAttributes name).map (·.name)).filter fun a =>
      !rule.attributes.contains a)).map fun a =>
        s.report .warning "strictness.missing-required-attribute"
          (elementPath name ++ ".attributes")
          ("'" ++ a ++ "' is XSD-required on <" ++ name ++
            "> but is not listed under 'attributes'. The profile is loosening the schema.")

def shownMax : Option Count → String
  | some c => toString c.val
  | none => "*"

/-- A minimum below the grammar's, and a maximum above it. -/
def loosenedBounds (s : Subject) (name path : String) (c : Child) (own : Occurs) :
    List Diagnostic :=
  let report (message : String) : Diagnostic :=
    s.report .error "strictness.loosened-child-cardinality" path message
  let low :=
    if own.min.val < c.minOccurs.val then
      [report ("Profile sets min_occurs=" ++ toString own.min.val ++ " for <" ++ c.name ++
        "> inside <" ++ name ++ ">, but the XSD requires at least " ++ toString c.minOccurs.val ++
        ". The profile is loosening the schema.")]
    else []
  let high :=
    match c.maxOccurs with
    | none => []
    | some limit =>
      if own.max.all fun m => limit.val < m.val then
        [report ("Profile sets max_occurs=" ++ shownMax own.max ++ " for <" ++ c.name ++
          "> inside <" ++ name ++ ">, but the XSD allows at most " ++ toString limit.val ++
          ". The profile is loosening the schema.")]
      else []
  low ++ high

/-- What is wrong with the cardinality of a child, if it has a label and is allowed there. -/
def bounds (s : Subject) (name : String) (e : Element) (path child : String)
    (label : Option String) : List Diagnostic :=
  match label, e.child? child with
  | some text, some c =>
    match readLabel text with
    | .error reason =>
      [s.report .error "strictness.invalid-cardinality" path
        ("Cardinality of <" ++ child ++ "> inside <" ++ name ++ "> is invalid: " ++
          reason.message text)]
    | .ok own => loosenedBounds s name path c own
  | _, _ => []

def cardinalities (s : Subject) (name : String) (e : Element) (rule : ElementRule) :
    List Diagnostic :=
  rule.children.pairs.flatMap (fun (c, label) => bounds s name e (childPath name c) c label) ++
    rule.alternatives.pairs.flatMap fun (c, label) =>
      bounds s name e (alternativePath name c) c label

/-- Attributes that the grammar requires and the profile does not. -/
def loosenedAttributes (s : Subject) (name : String) (e : Element) (rule : ElementRule) :
    List Diagnostic :=
  (rule.attributes.pairs.filter fun (a, r) =>
    (e.attribute? a).any (·.required) && !r.required).map fun (a, _) =>
      s.report .error "strictness.loosened-attribute-required" (attributePath name a)
        ("'" ++ a ++ "' is required by the XSD on <" ++ name ++
          "> but the profile does not mark it as required. The profile is loosening the schema.")

/-- Keeps the first pair of those with the same first part. -/
def distinctFirst : List (String × String) → List (String × String)
  | [] => []
  | p :: rest => p :: (distinctFirst rest).filter fun q => q.1 != p.1

/-- Elements that an entry refers to and that have no entry; each is reported once. -/
def undeclared (s : Subject) (name : String) (rule : ElementRule) : List Diagnostic :=
  (distinctFirst ((Vocabulary.references name rule).filter fun r =>
    s.grammar.hasElement r.1 && !s.declares r.1)).map fun (n, path) =>
      s.report .warning "strictness.undeclared-child-element" path
        ("'" ++ n ++ "' is referenced by <" ++ name ++
          "> but has no element definition in the profile. " ++
          "Add it to 'elements' to keep the profile valid.")

/-- An element that a document type requires, directly or not, has no entry. -/
def missingElement (s : Subject) (documentType name : String) : Diagnostic :=
  s.report .error "strictness.missing-required-element" "profile.elements"
    ("<" ++ name ++ "> is on the required-child chain of document type '" ++ documentType ++
      "' but is not declared in the profile's 'elements' section.")

/-- What a document type requires, directly or not, and what has no entry. -/
def missingChain (s : Subject) (documentType : String) : List Diagnostic :=
  if s.grammar.hasElement documentType then
    (inOrder ((s.grammar.requiredNames documentType).filter fun n => !s.declares n)).map
      (missingElement s documentType)
  else []

def entry (s : Subject) (name : String) (rule : ElementRule) : List Diagnostic :=
  match s.grammar.element? name with
  | none => []
  | some e =>
    missingChildren s name rule ++ missingAttributes s name rule ++ cardinalities s name e rule ++
      loosenedAttributes s name e rule ++ undeclared s name rule

def check (s : Subject) : List Diagnostic :=
  s.knownElements.flatMap (fun (name, rule) => entry s name rule) ++
    s.profile.documentTypes.flatMap (missingChain s)

end GrammarProfile.Validation.Strictness
