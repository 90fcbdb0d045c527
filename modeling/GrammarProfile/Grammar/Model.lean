import GrammarProfile.Grammar.Choice
import GrammarProfile.Pattern

/-!
The model of a grammar: what it says about each element. Questions about unknown names have empty
answers.
-/
namespace GrammarProfile.Grammar

/-- An attribute that a grammar declares for an element, or that the element inherits. -/
structure Attribute where
  name : String
  required : Bool
  /-- The type of the attribute without its label. -/
  typeName : Option String
  /-- The values of an enumeration. -/
  enumValues : Option (List String)
  pattern : Option Pattern
  defaultValue : Option String
  deriving DecidableEq, Inhabited

/-- A child that the content model of an element allows. -/
structure Child where
  name : String
  minOccurs : Count
  maxOccurs : Option Count
  /-- The groups that hold this child, in group order. -/
  choiceGroupIds : List String
  deriving DecidableEq, Inhabited

/-- All that a grammar says about one element. -/
structure Element where
  xmlName : String
  displayName : String
  typeName : Option String
  /-- The named types from which the type derives, nearest first. -/
  baseTypes : List String
  children : List Child
  attributes : List Attribute
  choiceGroups : List ChoiceGroup
  doc : String
  deriving DecidableEq, Inhabited

/-- A grammar as an index of its elements. -/
structure Model where
  /-- In code point order of the names. -/
  elements : OrderedMap Element
  /-- The enumerations of named simple types, in code point order of the names. -/
  enums : OrderedMap (List String)
  root : Option String
  deriving DecidableEq, Inhabited

namespace Attribute

def cardinality (a : Attribute) : String := if a.required then "1..1" else "0..1"

def isEnum (a : Attribute) : Bool :=
  match a.enumValues with
  | some values => !values.isEmpty
  | none => false

end Attribute

namespace Child

def required (c : Child) : Bool := 1 ≤ c.minOccurs.val

def cardinality (c : Child) : String := cardinalityLabel c.minOccurs c.maxOccurs

/-- The children that a content model lists, each with those of the groups that hold it. -/
def ofContent (groups : List ChoiceGroup) (content : Particle) : List Child :=
  content.occurrences.pairs.map fun (child, o) =>
    ⟨child, o.min, o.max, (groups.filter (·.contains child)).map (·.groupId)⟩

end Child

namespace Element

def child? (e : Element) (name : String) : Option Child := e.children.find? (·.name == name)

def attribute? (e : Element) (name : String) : Option Attribute :=
  e.attributes.find? (·.name == name)

def hasChild (e : Element) (name : String) : Bool := (e.child? name).isSome

def hasAttribute (e : Element) (name : String) : Bool := (e.attribute? name).isSome

end Element

namespace Model

def hasElement (m : Model) (name : String) : Bool := m.elements.contains name

def element? (m : Model) (name : String) : Option Element := m.elements.get? name

/-- The children allowed in an element. -/
def children (m : Model) (name : String) : List Child :=
  match m.element? name with
  | some e => e.children
  | none => []

def childNames (m : Model) (name : String) : List String := (m.children name).map (·.name)

def requiredChildren (m : Model) (name : String) : List Child :=
  (m.children name).filter Child.required

def attributes (m : Model) (name : String) : List Attribute :=
  match m.element? name with
  | some e => e.attributes
  | none => []

def requiredAttributes (m : Model) (name : String) : List Attribute :=
  (m.attributes name).filter (·.required)

def choiceGroups (m : Model) (name : String) : List ChoiceGroup :=
  match m.element? name with
  | some e => e.choiceGroups
  | none => []

/-- The cardinality of the first choice group that is mandatory or exclusive, else of the first. -/
def choiceCardinality? (m : Model) (name : String) : Option String :=
  let groups := m.choiceGroups name
  match groups.find? fun g => g.required || g.exclusive with
  | some g => some g.cardinality
  | none => groups.head?.map ChoiceGroup.cardinality

def enumValues? (m : Model) (typeName : String) : Option (List String) := m.enums.get? typeName

def elementNames (m : Model) : List String := m.elements.keys

/-- The children of the root. -/
def documentTypes (m : Model) : List String :=
  match m.root with
  | some root => m.childNames root
  | none => []

def isDocumentType (m : Model) (name : String) : Bool := m.documentTypes.contains name

def size (m : Model) : Nat := m.elements.size

def isEmpty (m : Model) : Bool := m.elements.isEmpty

def choiceGroupCount (m : Model) : Nat := (m.elements.values.flatMap (·.choiceGroups)).length

end Model

end GrammarProfile.Grammar
