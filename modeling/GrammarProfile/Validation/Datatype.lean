import GrammarProfile.Validation.Subject

/-!
Values of attributes that the grammar's enumerations and patterns do not admit.
-/
namespace GrammarProfile.Validation.Datatype

open GrammarProfile.Grammar (Attribute)
open GrammarProfile.Profile

def valuePath (name attributeName : String) (i : Nat) : String :=
  attributePath name attributeName ++ ".values[" ++ toString i ++ "]"

/-- Values outside an enumeration, or that there is none to check them against. -/
def enumeration (s : Subject) (name : String) (a : Attribute) (rule : AttributeRule) :
    List Diagnostic :=
  match a.enumValues with
  | some allowed =>
    (rule.values.zipIdx.filter fun v => !allowed.contains v.1).map fun (v, i) =>
      s.report .error "datatype.invalid-enum-value" (valuePath name a.name i)
        ("'" ++ v ++ "' is not a valid value for attribute '" ++ a.name ++ "' on <" ++ name ++
          ">. Allowed by XSD: " ++ shownSet allowed)
  | none =>
    [s.report .info "datatype.custom-enum-on-free-attribute"
      (attributePath name a.name ++ ".values")
      ("Attribute '" ++ a.name ++ "' on <" ++ name ++
        "> is not enum-typed in the XSD. The profile adds a custom value restriction [" ++
        Text.commaSeparated rule.values ++
        "]; this is valid but not verifiable against the schema.")]

def pattern (s : Subject) (name : String) (a : Attribute) (rule : AttributeRule) :
    List Diagnostic :=
  match a.pattern with
  | some p =>
    (rule.values.zipIdx.filter fun v => !p.accepts v.1).map fun (v, i) =>
      s.report .error "datatype.pattern-mismatch" (valuePath name a.name i)
        ("'" ++ v ++ "' does not match the XSD pattern /" ++ p.source ++ "/ for attribute '" ++
          a.name ++ "' on <" ++ name ++ ">")
  | none => []

/-- An attribute as the grammar declares it. -/
def declared? (s : Subject) (name attributeName : String) : Option Attribute :=
  (s.grammar.element? name).bind fun e => e.attribute? attributeName

/-- Attributes that the grammar does not know, and those without values, are not looked at. -/
def check (s : Subject) : List Diagnostic :=
  s.knownElements.flatMap fun (name, entry) =>
    entry.attributes.pairs.flatMap fun (attributeName, rule) =>
      match declared? s name attributeName with
      | some a =>
        if rule.values.isEmpty then [] else enumeration s name a rule ++ pattern s name a rule
      | none => []

end GrammarProfile.Validation.Datatype
