import GrammarProfile.Grammar.Occurs
import GrammarProfile.OrderedMap

/-!
Content models: what may stand inside an element, and how often each child may occur there.
-/
namespace GrammarProfile.Grammar

/-- A node of a content model in which every reference is resolved. A group keeps the name by
which it was referred to. -/
inductive Particle where
  | element (name : String) (occurs : Occurs)
  | sequence (occurs : Occurs) (items : List Particle)
  | choice (occurs : Occurs) (items : List Particle)
  | group (name : String) (occurs : Occurs) (inner : Particle)
  | any
  deriving Inhabited

/-- Bounds for each child, in the order in which the children first appear. -/
abbrev Tally := OrderedMap Occurs

namespace Tally

def scale (tally : Tally) (outer : Occurs) : Tally := tally.map fun _ o => o.times outer

/-- Bounds when both parts appear: those of a shared name add up. -/
def merge (a b : Tally) : Tally :=
  b.pairs.foldl
    (fun m p => m.insert p.1 (match m.get? p.1 with
      | some o => o.add p.2
      | none => p.2))
    a

/-- Bounds of `name` over all alternatives; an alternative without it never holds it. -/
def widestOf (name : String) : List Tally → Occurs
  | [] => .never
  | [t] => (t.get? name).getD .never
  | t :: u :: rest =>
    (u :: rest).foldl (fun o v => o.widest ((v.get? name).getD .never)) ((t.get? name).getD .never)

/-- Bounds when exactly one of the alternatives appears. -/
def alternatives (branches : List Tally) : Tally :=
  .ofList ((branches.flatMap OrderedMap.keys).eraseDups.map fun name =>
    (name, widestOf name branches))

end Tally

namespace Particle

/-- The content model that admits nothing. -/
def empty : Particle := .sequence .once []

mutual

/-- Every mention of an element, in document order. -/
def mentions : Particle → List String
  | .element name _ => [name]
  | .sequence _ items => mentionsOf items
  | .choice _ items => mentionsOf items
  | .group _ _ inner => mentions inner
  | .any => []

def mentionsOf : List Particle → List String
  | [] => []
  | p :: rest => mentions p ++ mentionsOf rest

end

/-- The elements mentioned, each where it first appears. -/
def elementNames (p : Particle) : List String := p.mentions.eraseDups

mutual

/-- Effective bounds of every element mentioned: a sequence adds, a choice takes the widest, and
every compositor multiplies by its own bounds. -/
def occurrences : Particle → Tally
  | .element name occurs => OrderedMap.empty.insert name occurs
  | .sequence occurs items => ((occurrencesOf items).foldl Tally.merge .empty).scale occurs
  | .choice occurs items => (Tally.alternatives (occurrencesOf items)).scale occurs
  | .group _ occurs inner => (occurrences inner).scale occurs
  | .any => .empty

def occurrencesOf : List Particle → List Tally
  | [] => []
  | p :: rest => occurrences p :: occurrencesOf rest

end

end Particle

end GrammarProfile.Grammar
