/-!
XML documents as trees of elements with resolved namespaces.
-/
namespace GrammarProfile.Xml

/-- An attribute; one that is written without a name space has no `uri`. -/
structure Attribute where
  uri : Option String
  name : String
  value : String
  deriving DecidableEq, Inhabited

/-- A name space in scope; the default one has no label. -/
structure Binding where
  label : Option String
  uri : String
  deriving DecidableEq, Inhabited

/-- What can be said of an element apart from its content. -/
structure Tag where
  uri : Option String
  name : String
  attributes : List Attribute
  /-- The innermost binding of a label comes first. -/
  scope : List Binding
  deriving DecidableEq, Inhabited

inductive Node where
  | element (tag : Tag) (content : List Node)
  | text (content : String)
  /-- A comment or a processing instruction, of which nothing is kept. -/
  | remark
  deriving Inhabited

/-- An element apart from the tree in which it stands. -/
structure Element where
  tag : Tag
  content : List Node
  deriving Inhabited

namespace Tag

/-- The value of the attribute `name` written without a label. -/
def attribute? (t : Tag) (name : String) : Option String :=
  (t.attributes.find? fun a => a.uri.isNone && a.name == name).map (·.value)

/-- The name space bound to a label here. -/
def lookupUri? (t : Tag) (label : Option String) : Option String :=
  (t.scope.find? fun b => b.label == label).map (·.uri)

end Tag

namespace Node

/-- The elements among some nodes. -/
def elements : List Node → List Element
  | [] => []
  | .element tag content :: rest => ⟨tag, content⟩ :: elements rest
  | _ :: rest => elements rest

mutual

/-- Every text inside a node, in document order. -/
def texts : Node → List String
  | .element _ content => textsOf content
  | .text s => [s]
  | .remark => []

def textsOf : List Node → List String
  | [] => []
  | n :: rest => texts n ++ textsOf rest

end

mutual

/-- Every element of a tree, the node itself included, in document order. -/
def tags : Node → List Tag
  | .element tag content => tag :: tagsOf content
  | .text _ => []
  | .remark => []

def tagsOf : List Node → List Tag
  | [] => []
  | n :: rest => tags n ++ tagsOf rest

end

end Node

end GrammarProfile.Xml
