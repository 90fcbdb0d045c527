import GrammarProfile.OrderedMap

/-!
Application profiles: which elements of a grammar are used, and how they are restricted.
-/
namespace GrammarProfile.Profile

/-- The key among the children of an element that holds alternatives, of which a document has
exactly one. -/
def choiceKey : String := "choice"

/-- What a profile says about an attribute. Without values any value is allowed. -/
structure AttributeRule where
  required : Bool
  values : List String
  deriving DecidableEq, Inhabited

namespace AttributeRule

def empty : AttributeRule := ⟨false, []⟩

end AttributeRule

/-- What a profile says about an element. A child may carry a cardinality label; without one the
grammar decides. -/
structure ElementRule where
  note : Option String
  attributes : OrderedMap AttributeRule
  children : OrderedMap (Option String)
  alternatives : OrderedMap (Option String)
  parts : List String
  /-- Whether there is a key for alternatives, even if it holds none. -/
  declaresChoice : Bool
  deriving DecidableEq, Inhabited

namespace ElementRule

def empty : ElementRule := ⟨none, ∅, ∅, ∅, [], false⟩

def isEmpty (r : ElementRule) : Bool :=
  r.note.isNone && r.attributes.isEmpty && r.children.isEmpty && r.alternatives.isEmpty &&
    r.parts.isEmpty && !r.declaresChoice

/-- The elements named as children or as alternatives. -/
def childNames (r : ElementRule) : List String := r.children.keys ++ r.alternatives.keys

/-- Equality that does not ask for the order of attributes and children. -/
def same (a b : ElementRule) : Bool :=
  a.note == b.note && a.attributes.sameContents b.attributes &&
    a.children.sameContents b.children && a.alternatives.sameContents b.alternatives &&
    a.parts == b.parts && a.declaresChoice == b.declaresChoice

end ElementRule

/-- A profile. -/
structure Restriction where
  name : String
  version : String
  description : String
  documentTypes : List String
  elements : OrderedMap ElementRule
  deriving DecidableEq, Inhabited

namespace Restriction

def empty : Restriction := ⟨"", "", "", [], ∅⟩

/-- Equality that does not ask for the order of elements, attributes and children. -/
def same (a b : Restriction) : Bool :=
  a.name == b.name && a.version == b.version && a.description == b.description &&
    a.documentTypes == b.documentTypes && a.elements.size == b.elements.size &&
    a.elements.pairs.all fun p =>
      match b.elements.get? p.1 with
      | some rule => p.2.same rule
      | none => false

end Restriction

end GrammarProfile.Profile
