import GrammarProfile.Grammar.Declarations
import GrammarProfile.Pattern

/-!
The facets of simple types: enumerations and patterns, with what they inherit.
-/
namespace GrammarProfile.Grammar

open GrammarProfile.Xml (Tag Node)

/-- What a simple type says of its values. -/
structure Facets where
  enums : Option (List String)
  pattern : Option Pattern
  deriving DecidableEq, Inhabited

namespace Facets

def none : Facets := ⟨Option.none, Option.none⟩

/-- The `value` attributes of the facets called `name`. -/
def valuesOf (name : String) (content : List Node) : List String :=
  ((schemaElements content).filter fun e => e.tag.name == name).filterMap fun e =>
    e.tag.attribute? "value"

/-- The facets of a restriction. An enumeration replaces the inherited one; patterns are
alternatives that replace the inherited pattern, and a malformed one leaves no pattern. -/
def restrict (inherited : Facets) (content : List Node) : Facets :=
  let values := valuesOf "enumeration" content
  let patterns := valuesOf "pattern" content
  ⟨if values.isEmpty then inherited.enums else some values,
    if patterns.isEmpty then inherited.pattern
    else
      match Pattern.compile (String.intercalate "|" patterns) with
      | .ok p => some p
      | .error _ => Option.none⟩

/-- The facets of named types that have been worked out. -/
abbrev Known := OrderedMap Facets

mutual

/-- The facets of a simple type with the given content; `named` gives those of a named type. -/
def ofSimpleType (named : String → StateM Known Facets) : List Node → StateM Known Facets
  | [] => pure Facets.none
  | .element tag content :: rest =>
    if isSchema tag "restriction" then do
      let inherited ←
        match tag.attribute? "base" with
        | some base =>
          match resolveTypeName tag base with
          | .named name => named name
          | .builtin _ => pure Facets.none
        | Option.none => ofInlineType named content
      pure (restrict inherited content)
    else ofSimpleType named rest
  | .text _ :: rest => ofSimpleType named rest
  | .remark :: rest => ofSimpleType named rest

/-- The facets of the first simple type among some nodes. -/
def ofInlineType (named : String → StateM Known Facets) : List Node → StateM Known Facets
  | [] => pure Facets.none
  | .element tag content :: rest =>
    if isSchema tag "simpleType" then ofSimpleType named content else ofInlineType named rest
  | .text _ :: rest => ofInlineType named rest
  | .remark :: rest => ofInlineType named rest

end

end Facets

/-- The facets of a named simple type. A type that restricts itself inherits nothing there;
`opened` names the types around it. -/
def Declarations.facetsOf (d : Declarations) :
    Nat → List String → String → StateM Facets.Known Facets
  | 0, _, _ => pure Facets.none
  | fuel + 1, opened, name => do
    match (← get).get? name with
    | some f => pure f
    | none =>
      match d.simpleTypes.get? name with
      | none => pure Facets.none
      | some e =>
        if opened.contains name then pure Facets.none
        else do
          let f ← Facets.ofSimpleType (facetsOf d fuel (name :: opened)) e.content
          modify (·.insert name f)
          pure f

def Declarations.simpleFacets (d : Declarations) (name : String) : StateM Facets.Known Facets :=
  d.facetsOf (d.simpleTypes.size + 1) [] name

end GrammarProfile.Grammar
