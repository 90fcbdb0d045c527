import GrammarProfile.Profile.Restriction
import GrammarProfile.Yaml.Value

/-!
The shape of a profile as a YAML mapping, read into a restriction. Whatever does not fit is
reported, and reading goes on with the rest.
-/
namespace GrammarProfile.Profile

open GrammarProfile.Yaml (Value Pairs)

/-- A part of a mapping that does not fit, and what is wrong with it. -/
structure Flaw where
  path : String
  message : String
  deriving DecidableEq, Repr, Inhabited

/-- A result with the flaws found on the way to it. -/
structure Shaped (α : Type) where
  result : α
  flaws : List Flaw

namespace Shaped

instance : Monad Shaped where
  pure a := ⟨a, []⟩
  bind x f := ⟨(f x.result).result, x.flaws ++ (f x.result).flaws⟩

/-- A result in place of a part that does not fit. -/
def flawed {α : Type} (result : α) (path message : String) : Shaped α := ⟨result, [⟨path, message⟩]⟩

end Shaped

namespace Shape

def describe : Value → String
  | .null => "null"
  | .bool _ => "a boolean"
  | .number _ => "a number"
  | .string _ => "a string"
  | .sequence _ => "a list"
  | .mapping _ => "a mapping"
  | .tagged _ _ => "a tagged value"

def expected (what : String) (v : Value) : String := "expected " ++ what ++ ", found " ++ describe v

/-- Takes in the pairs of a mapping one after the other; keys have to be strings. -/
def foldPairs {α : Type} (parent : String) (step : α → String → Value → Shaped α) :
    α → Pairs → Shaped α
  | acc, [] => pure acc
  | acc, (key, value) :: rest =>
    match key with
    | .string name => do
      let acc ← step acc name value
      foldPairs parent step acc rest
    | other => do
      let acc ← Shaped.flawed acc parent ("keys must be strings, found " ++ describe other)
      foldPairs parent step acc rest

/-- Converts the items of a list; those without a result are left out. -/
def items {α : Type} (path : String) (convert : String → Value → Shaped (Option α)) :
    Nat → List Value → Shaped (List α)
  | _, [] => pure []
  | i, v :: rest => do
    let first ← convert (path ++ "[" ++ toString i ++ "]") v
    let others ← items path convert (i + 1) rest
    pure (first.toList ++ others)

/-- A scalar as text. -/
def text (path : String) (v : Value) : Shaped (Option String) :=
  match v with
  | .null => pure none
  | .string s => pure (some s)
  | .number n => pure (some n.text)
  | .bool b => pure (some (toString b))
  | other => .flawed none path (expected "a string" other)

/-- The pairs of a mapping; null stands for no mapping. -/
def mapping (path : String) (v : Value) : Shaped (Option Pairs) :=
  match v with
  | .null => pure none
  | .mapping pairs => pure (some pairs)
  | other => .flawed none path (expected "a mapping" other)

/-- A list of items; null stands for an empty one. -/
def list {α : Type} (path : String) (convert : String → Value → Shaped (Option α)) (v : Value) :
    Shaped (List α) :=
  match v with
  | .null => pure []
  | .sequence vs => items path convert 0 vs
  | other => .flawed [] path (expected "a list" other)

def name (path : String) (v : Value) : Shaped (Option String) :=
  match v with
  | .string s => pure (some s)
  | other => .flawed none path (expected "an element name" other)

/-- Takes in the pairs of a mapping, if it is one. -/
def foldMapping {α : Type} (path : String) (step : α → String → Value → Shaped α) (start : α)
    (v : Value) : Shaped α := do
  match ← mapping path v with
  | some pairs => foldPairs path step start pairs
  | none => pure start

/-- An allowed value of an attribute, as text. -/
def attributeValue (path : String) (v : Value) : Shaped (Option String) :=
  match v with
  | .null => .flawed none path "expected a value, found null"
  | other => text path other

def attributeField (path : String) (rule : AttributeRule) (field : String) (v : Value) :
    Shaped AttributeRule :=
  let here := path ++ "." ++ field
  match field with
  | "required" =>
    match v with
    | .bool b => pure { rule with required := b }
    | .null => pure rule
    | other => .flawed rule here (expected "true or false" other)
  | "values" => do
    let values ← list here attributeValue v
    pure { rule with values := values }
  | other => .flawed rule here ("unknown key '" ++ other ++ "'; expected required or values")

def attributeEntry (path : String) (rules : OrderedMap AttributeRule) (name : String) (v : Value) :
    Shaped (OrderedMap AttributeRule) := do
  let here := path ++ "." ++ name
  let rule ← foldMapping here (attributeField here) .empty v
  pure (rules.insert name rule)

/-- The cardinality of a child, or null. -/
def cardinality (path : String) (v : Value) : Shaped (Option String) :=
  match v with
  | .null => pure none
  | .string s => pure (some s)
  | other => .flawed none path (expected "a cardinality such as \"1..1\"" other)

def member (path : String) (members : OrderedMap (Option String)) (name : String) (v : Value) :
    Shaped (OrderedMap (Option String)) := do
  let label ← cardinality (path ++ "." ++ name) v
  pure (members.insert name label)

/-- Takes in a child. The members of the choice key are alternatives. -/
def childEntry (path : String) (rule : ElementRule) (name : String) (v : Value) : Shaped ElementRule :=
  let here := path ++ "." ++ name
  if name == choiceKey then do
    let alternatives ← foldMapping here (member here) rule.alternatives v
    pure { rule with alternatives := alternatives, declaresChoice := true }
  else do
    let children ← member path rule.children name v
    pure { rule with children := children }

def elementField (path : String) (rule : ElementRule) (field : String) (v : Value) :
    Shaped ElementRule :=
  let here := path ++ "." ++ field
  match field with
  | "profileNote" => do
    let note ← text here v
    pure { rule with note := note }
  | "attributes" => do
    let attributes ← foldMapping here (attributeEntry here) ∅ v
    pure { rule with attributes := attributes }
  | "children" => foldMapping here (childEntry here) rule v
  | "structure" => do
    let parts ← list here name v
    pure { rule with parts := parts }
  | other =>
    .flawed rule here
      ("unknown key '" ++ other ++ "'; expected profileNote, attributes, children or structure")

def elementEntry (path : String) (rules : OrderedMap ElementRule) (name : String) (v : Value) :
    Shaped (OrderedMap ElementRule) := do
  let here := path ++ "." ++ name
  let rule ← foldMapping here (elementField here) .empty v
  pure (rules.insert name rule)

/-- Takes in a pair of the profile; a key of no known name is left to others. -/
def profileField (path : String) (r : Restriction) (field : String) (v : Value) :
    Shaped Restriction :=
  let here := path ++ "." ++ field
  match field with
  | "name" => do
    let s ← text here v
    pure { r with name := s.getD "" }
  | "version" => do
    let s ← text here v
    pure { r with version := s.getD "" }
  | "description" => do
    let s ← text here v
    pure { r with description := s.getD "" }
  | "documentTypes" => do
    let names ← list here name v
    pure { r with documentTypes := names }
  | "elements" => do
    let elements ← foldMapping here (elementEntry here) ∅ v
    pure { r with elements := elements }
  | _ => pure r

end Shape

/-- The profile that the pairs below the key `profile` write. -/
def Restriction.ofTree (pairs : Pairs) : Shaped Restriction :=
  Shape.foldPairs "profile" (Shape.profileField "profile") .empty pairs

end GrammarProfile.Profile
