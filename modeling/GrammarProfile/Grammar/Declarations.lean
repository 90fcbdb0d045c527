import GrammarProfile.OrderedMap
import GrammarProfile.Text.Blank
import GrammarProfile.Text.Lines
import GrammarProfile.Xml.Node

/-!
The declarations of a schema document by name, and what its elements say on their own: references,
names and documentation.
-/
namespace GrammarProfile.Grammar

open GrammarProfile.Xml (Tag Node)

/-- The name space of schema documents. -/
def schemaUri : String := "http://www.w3.org/2001/XMLSchema"

def inSchema (tag : Tag) : Bool := tag.uri == some schemaUri

/-- Whether an element is the one that schema documents call `name`. -/
def isSchema (tag : Tag) (name : String) : Bool := inSchema tag && tag.name == name

/-- The schema elements among some nodes. -/
def schemaElements (nodes : List Node) : List Xml.Element :=
  (Node.elements nodes).filter fun e => inSchema e.tag

/-- The first schema element `name` among some nodes. -/
def schemaElement? (nodes : List Node) (name : String) : Option Xml.Element :=
  (schemaElements nodes).find? fun e => e.tag.name == name

/-- A reference to a type, without its label. -/
inductive TypeName where
  | builtin (name : String)
  | named (name : String)
  deriving DecidableEq

def TypeName.name : TypeName → String
  | .builtin name => name
  | .named name => name

/-- What a reference written at `tag` refers to: its label may be bound to the schema name space. -/
def resolveTypeName (tag : Tag) (value : String) : TypeName :=
  let (label, name) :=
    match Text.splitFirst? ':' value.toList with
    | some (label, name) => (some (String.ofList label), String.ofList name)
    | none => (none, value)
  if tag.lookupUri? label == some schemaUri then .builtin name else .named name

/-- A reference without its label. -/
def localName (value : String) : String :=
  match Text.splitLast? ':' value.toList with
  | some (_, name) => String.ofList name
  | none => value

/-- The text of the first documentation under the first annotation, as words with one blank
between neighbours. -/
def documentation (content : List Node) : String :=
  match (schemaElement? content "annotation").bind fun a =>
      schemaElement? a.content "documentation" with
  | none => ""
  | some doc =>
    let text := Text.joinWith [' '] ((Node.textsOf doc.content).map String.toList)
    String.ofList (Text.joinWith [' '] (Text.words text))

/-- The named declarations at the top of a schema document. -/
structure Declarations where
  complexTypes : OrderedMap Xml.Element
  simpleTypes : OrderedMap Xml.Element
  groups : OrderedMap Xml.Element
  attributeGroups : OrderedMap Xml.Element
  elements : OrderedMap Xml.Element
  attributes : OrderedMap Xml.Element

namespace Declarations

def empty : Declarations := ⟨∅, ∅, ∅, ∅, ∅, ∅⟩

/-- Adds a declaration that has a name; a later one of the same kind and name replaces it. -/
def add (d : Declarations) (e : Xml.Element) : Declarations :=
  match e.tag.attribute? "name" with
  | none => d
  | some name =>
    match e.tag.name with
    | "complexType" => { d with complexTypes := d.complexTypes.insert name e }
    | "simpleType" => { d with simpleTypes := d.simpleTypes.insert name e }
    | "group" => { d with groups := d.groups.insert name e }
    | "attributeGroup" => { d with attributeGroups := d.attributeGroups.insert name e }
    | "element" => { d with elements := d.elements.insert name e }
    | "attribute" => { d with attributes := d.attributes.insert name e }
    | _ => d

def ofContent (content : List Node) : Declarations := (schemaElements content).foldl add empty

end Declarations

end GrammarProfile.Grammar
