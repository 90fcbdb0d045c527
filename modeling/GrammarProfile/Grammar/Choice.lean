import GrammarProfile.Grammar.Particle
import GrammarProfile.Text.Names

/-!
Choice groups: the alternatives that a content model offers, with their branches.
-/
namespace GrammarProfile.Grammar

/-- One alternative of a choice. -/
structure Branch where
  branchId : String
  /-- A name, or the parts of a nested compositor. -/
  label : Option String
  /-- In code point order. -/
  elements : List String
  deriving DecidableEq, Inhabited

/-- A choice found in a content model. -/
structure ChoiceGroup where
  groupId : String
  minOccurs : Count
  maxOccurs : Option Count
  branches : List Branch
  deriving DecidableEq, Inhabited

namespace ChoiceGroup

/-- A group that allows a single selection: its branches exclude each other. -/
def exclusive (g : ChoiceGroup) : Bool := g.maxOccurs == some Count.one

def required (g : ChoiceGroup) : Bool := 1 ≤ g.minOccurs.val

/-- The members of all branches, in code point order. -/
def allElements (g : ChoiceGroup) : List String := Text.nameSet (g.branches.flatMap (·.elements))

def contains (g : ChoiceGroup) (name : String) : Bool :=
  g.branches.any fun b => b.elements.contains name

theorem contains_iff {g : ChoiceGroup} {name : String} :
    g.contains name = true ↔ ∃ b ∈ g.branches, name ∈ b.elements := by
  simp [contains]

/-- The first branch that holds `name`. -/
def branchOf? (g : ChoiceGroup) (name : String) : Option Branch :=
  g.branches.find? fun b => b.elements.contains name

def cardinality (g : ChoiceGroup) : String := cardinalityLabel g.minOccurs g.maxOccurs

end ChoiceGroup

/-- A choice that lies in no other choice: its effective bounds and its alternatives. -/
structure ChoiceSite where
  minOccurs : Count
  maxOccurs : Option Count
  items : List Particle

namespace Particle

mutual

/-- The outermost choices, in document order. The minimum takes in every compositor around the
choice; the bounds of a group reference are those of a choice that is its direct content. -/
def choiceSites (enclosing : Count) : Particle → List ChoiceSite
  | .element _ _ => []
  | .any => []
  | .sequence occurs items => choiceSitesOf (enclosing.mul occurs.min) items
  | .choice occurs items => [⟨occurs.min.mul enclosing, occurs.max, items⟩]
  | .group _ occurs (.choice own items) =>
    [⟨(own.times occurs).min.mul enclosing, (own.times occurs).max, items⟩]
  | .group _ occurs inner => choiceSites (enclosing.mul occurs.min) inner

def choiceSitesOf (enclosing : Count) : List Particle → List ChoiceSite
  | [] => []
  | p :: rest => choiceSites enclosing p ++ choiceSitesOf enclosing rest

end

mutual

/-- The names by which the parts of a nested compositor are known, in order. -/
def partNames : Particle → List String
  | .element name _ => [name]
  | .group name _ _ => [name]
  | .sequence _ items => partNamesOf items
  | .choice _ items => partNamesOf items
  | .any => []

def partNamesOf : List Particle → List String
  | [] => []
  | p :: rest => partNames p ++ partNamesOf rest

end

/-- How an alternative is called: by its name, or by its parts. -/
def branchLabel (p : Particle) : Option String :=
  match p.partNames with
  | [] => none
  | parts => some (String.intercalate " + " parts)

end Particle

/-- The branches of a choice: its alternatives that mention an element, numbered in order. -/
def branchesOf (items : List Particle) : List Branch :=
  (items.filter fun p => !p.mentions.isEmpty).mapIdx fun i p =>
    ⟨"branch_" ++ toString i, p.branchLabel, Text.nameSet p.mentions⟩

/-- Numbers the sites that have a branch, from `start`. -/
def numberGroups (typeName : String) (start : Nat) : List ChoiceSite → List ChoiceGroup
  | [] => []
  | site :: rest =>
    match branchesOf site.items with
    | [] => numberGroups typeName start rest
    | branches =>
      ⟨typeName ++ ":choice_" ++ toString start, site.minOccurs, site.maxOccurs, branches⟩ ::
        numberGroups typeName (start + 1) rest

/-- The choice groups of a content model. Identifiers are numbered per declaring type; the next
free number is `start` plus the number of groups. -/
def choiceGroups (typeName : String) (p : Particle) (start : Nat) : List ChoiceGroup :=
  numberGroups typeName start (p.choiceSites .one)

/-- The group of a choice, which takes the next number if it has a branch. -/
def takeGroup (typeName : String) (site : ChoiceSite) : StateM Nat (List ChoiceGroup) :=
  match branchesOf site.items with
  | [] => pure []
  | branches => do
    let next ← get
    set (next + 1)
    pure [⟨typeName ++ ":choice_" ++ toString next, site.minOccurs, site.maxOccurs, branches⟩]

namespace Particle

mutual

/-- Collects the choice groups of a content model in document order; the state is the next free
number. -/
def collect (typeName : String) (enclosing : Count) : Particle → StateM Nat (List ChoiceGroup)
  | .element _ _ => pure []
  | .any => pure []
  | .sequence occurs items => collectAll typeName (enclosing.mul occurs.min) items
  | .choice occurs items => takeGroup typeName ⟨occurs.min.mul enclosing, occurs.max, items⟩
  | .group _ occurs (.choice own items) =>
    takeGroup typeName
      ⟨(own.times occurs).min.mul enclosing, (own.times occurs).max, items⟩
  | .group _ occurs inner => collect typeName (enclosing.mul occurs.min) inner

def collectAll (typeName : String) (enclosing : Count) :
    List Particle → StateM Nat (List ChoiceGroup)
  | [] => pure []
  | p :: rest => do
    let groups ← collect typeName enclosing p
    let more ← collectAll typeName enclosing rest
    pure (groups ++ more)

end

end Particle

end GrammarProfile.Grammar
