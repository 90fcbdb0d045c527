import GrammarProfile.Profile.Cardinality
import GrammarProfile.Profile.Restriction
import GrammarProfile.Proofs.Closure
import Mathlib.Data.List.Chain

/-!
Profiles that stay within a grammar: the declarative reading of what validation looks for.
-/
namespace GrammarProfile.Validation

open GrammarProfile.Grammar (Attribute Branch Child Count Element Model)
open GrammarProfile.Profile
open Relation (ReflTransGen)

/-- What a profile may say about an attribute of the grammar. -/
structure AttributeConforms (a : Attribute) (r : AttributeRule) : Prop where
  enumeration : ∀ allowed, a.enumValues = some allowed → ∀ v ∈ r.values, v ∈ allowed
  pattern : ∀ p, a.pattern = some p → ∀ v ∈ r.values, p.accepts v = true
  required : a.required = true → r.required = true

/-- A cardinality, if there is one, can be read and stays within the bounds of the child. -/
def LabelConforms (c : Child) (label : Option String) : Prop :=
  ∀ text, label = some text →
    ∃ own, readLabel text = .ok own ∧ within own ⟨c.minOccurs, c.maxOccurs⟩ = true

/-- A listed name is an element of the grammar, and a child of the element that lists it. -/
def ChildConforms (m : Model) (e : Element) (name : String) (label : Option String) : Prop :=
  m.hasElement name = true ∧ ∃ c, e.child? name = some c ∧ LabelConforms c label

/-- Some always-present child belongs to a branch. -/
def Active (rule : ElementRule) (b : Branch) : Prop := ∃ c ∈ rule.children.keys, c ∈ b.elements

/-- What a profile may say about an element of the grammar. -/
structure EntryConforms (m : Model) (e : Element) (rule : ElementRule) : Prop where
  attributes : ∀ a r, (a, r) ∈ rule.attributes.pairs →
    ∃ d, e.attribute? a = some d ∧ AttributeConforms d r
  children : ∀ c label, (c, label) ∈ rule.children.pairs → ChildConforms m e c label
  alternatives : ∀ c label, (c, label) ∈ rule.alternatives.pairs → ChildConforms m e c label
  disjoint : ∀ c ∈ rule.alternatives.keys, c ∉ rule.children.keys
  parts : ∀ p ∈ rule.parts, m.hasElement p = true
  firstPart : ∀ p, rule.parts.head? = some p → ∃ c, e.child? p = some c
  chain : rule.parts.IsChain fun a b => b ∈ m.childNames a
  choice : rule.declaresChoice = true → 2 ≤ rule.alternatives.size
  /-- A choice that the grammar requires has a listed member. -/
  mandatory : ∀ g ∈ e.choiceGroups, 1 ≤ g.minOccurs.val →
    ∃ c ∈ rule.childNames, ∃ b ∈ g.branches, c ∈ b.elements
  /-- Of a choice of one selection, at most one branch has always-present children. -/
  exclusive : ∀ g ∈ e.choiceGroups, g.maxOccurs = some Count.one →
    g.branches.Pairwise fun a b => ¬(Active rule a ∧ Active rule b)

/-- A profile that tightens a grammar and nowhere loosens it. -/
structure Conforms (m : Model) (p : Restriction) : Prop where
  documentTypes : ∀ dt ∈ p.documentTypes, dt ∈ m.documentTypes
  entries : ∀ name rule, (name, rule) ∈ p.elements.pairs →
    ∃ e, m.element? name = some e ∧ EntryConforms m e rule
  /-- Whatever a document type requires, directly or not, has an entry. -/
  chains : ∀ dt ∈ p.documentTypes, m.hasElement dt = true →
    ∀ n, ReflTransGen m.Requires dt n → n ∈ p.elements.keys

end GrammarProfile.Validation
