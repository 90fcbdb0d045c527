import GrammarProfile.Cascade.Expand

/-!
Scaffolds: the smallest profile that a grammar admits for a document type.
-/
namespace GrammarProfile.Cascade

open GrammarProfile.Grammar (Element Model)
open GrammarProfile.Profile (AttributeRule ElementRule Restriction)

structure ScaffoldOptions where
  /-- Whether optional children are listed, too. -/
  optionalChildren : Bool
  /-- Whether optional attributes are listed, too. -/
  optionalAttributes : Bool
  /-- Whether the text explains itself in comments. -/
  comments : Bool
  deriving DecidableEq, Repr

def ScaffoldOptions.standard : ScaffoldOptions := ⟨false, false, true⟩

def scaffoldAttributes (o : ScaffoldOptions) (e : Element) : OrderedMap AttributeRule :=
  .ofList ((e.attributes.filter fun a => a.required || o.optionalAttributes).map fun a =>
    (a.name, ⟨a.required, a.enumValues.getD []⟩))

/-- The members of exclusive groups that offer an alternative. -/
def exclusiveNames (e : Element) : List String :=
  (e.choiceGroups.filter fun g => g.exclusive && 2 ≤ g.allElements.length).flatMap (·.allElements)

/-- The rule for an element. Alternatives that exclude each other cannot all be always present. -/
def scaffoldRule (o : ScaffoldOptions) (e : Element) : ElementRule :=
  let labelled (children : List Grammar.Child) : OrderedMap (Option String) :=
    .ofList (children.map fun c => (c.name, some c.cardinality))
  let attributes := scaffoldAttributes o e
  if !o.optionalChildren then
    ⟨none, attributes, labelled (e.children.filter (·.required)), ∅, [], false⟩
  else
    let exclusive := exclusiveNames e
    let alternatives := labelled (e.children.filter fun c => exclusive.contains c.name)
    ⟨none, attributes, labelled (e.children.filter fun c => !exclusive.contains c.name),
      alternatives, [], !alternatives.isEmpty⟩

/-- The rule for the root, which holds nothing but the document type. -/
def scaffoldRoot (o : ScaffoldOptions) (documentType : String) (e : Element) : ElementRule :=
  ⟨none, scaffoldAttributes o e, .ofList [(documentType, some documentTypeLabel)], ∅, [], false⟩

/-- The rules for a document type and all that it requires, and for the root. -/
def scaffoldElements (grammar : Model) (o : ScaffoldOptions) (documentType : String) :
    OrderedMap ElementRule :=
  let required : OrderedMap ElementRule :=
    .ofList ((grammar.requiredClosure documentType).filterMap fun name =>
      (grammar.element? name).map fun e => (name, scaffoldRule o e))
  match grammar.root.bind grammar.element? with
  | some e => required.insert e.xmlName (scaffoldRoot o documentType e)
  | none => required

/-- The elements of a profile in canonical order. -/
def ordered (grammar : Model) (r : Restriction) : Restriction :=
  { r with
    elements := .ofList ((profileOrder grammar r).filterMap fun name =>
      (r.elements.get? name).map fun rule => (name, rule)) }

/-- The smallest profile for a document type. -/
def scaffold (grammar : Model) (o : ScaffoldOptions) (documentType : String) :
    Except Error Restriction :=
  if !grammar.isDocumentType documentType then
    .error (.unknownDocumentType documentType grammar.documentTypes)
  else
    .ok (ordered grammar
      { name := "Minimum viable profile (" ++ documentType ++ ")"
        version := "1.0"
        description :=
          "Minimum viable application profile for the " ++ documentType ++ " document type."
        documentTypes := [documentType]
        elements := scaffoldElements grammar o documentType })

end GrammarProfile.Cascade
