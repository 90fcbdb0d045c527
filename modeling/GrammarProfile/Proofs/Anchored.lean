import GrammarProfile.Grammar.Facets
import GrammarProfile.Proofs.Matching
import GrammarProfile.Proofs.PatternGroups
import GrammarProfile.Validation.Datatype

/-!
Pattern facets are matched as a whole, and one that is no regular expression is left out. Both hold of
every source but those that close the group which anchors them.
-/
namespace GrammarProfile.Pattern

/-- The source is a regular expression by itself. -/
def WellFormed (source : String) : Prop := ∃ e, readExpr source.toList = .ok e

/-- The source closes a group that it has not opened. -/
def ClosesOuter (source : String) : Prop := readExpr source.toList = .error .unopenedGroup

theorem not_wellFormed_of_error {source : String} {err : Error}
    (h : readExpr source.toList = .error err) : ¬WellFormed source := by
  rintro ⟨e, he⟩
  cases h.symm.trans he

instance (source : String) : Decidable (ClosesOuter source) :=
  inferInstanceAs (Decidable (_ = _))

/-- What is compiled is the source's own expression between anchors, unless the source ends the group
that the anchors stand around. -/
theorem compiled_cases {source : String} {p : Pattern} (h : compile source = .ok p) :
    (∃ e, readExpr source.toList = .ok e ∧
      p.expr = .concat (.look .textStart) (.concat e (.look .textEnd))) ∨ ClosesOuter source := by
  unfold compile at h
  cases hread : readExpr (anchored source.toList) with
  | error err =>
      rw [hread] at h
      cases h
  | ok e =>
      rw [hread] at h
      cases h
      exact readExpr_anchored hread

theorem not_compiled {source : String} (hopen : ¬ClosesOuter source) (h : ¬WellFormed source)
    (p : Pattern) : compile source ≠ .ok p := by
  intro hp
  obtain ⟨e, he, -⟩ := (compiled_cases hp).resolve_right hopen
  exact h ⟨e, he⟩

theorem exists_compiled (source : String) (check : Pattern → Bool)
    (h : (compile source).toOption.any check = true) :
    ∃ p, compile source = .ok p ∧ check p = true := by
  cases hp : compile source with
  | error err =>
      rw [hp] at h
      cases h
  | ok p =>
      rw [hp] at h
      exact ⟨p, rfl, h⟩

end GrammarProfile.Pattern

namespace GrammarProfile.Grammar

open GrammarProfile.Pattern (readExpr compile WellFormed ClosesOuter)
open GrammarProfile.Validation (Subject)

/-- A source that leaves its group alone is compiled only if it is well formed, and then for matching
whole values; if it is not, attributes of types that write it are checked against no pattern. -/
theorem pattern_whole_or_none (source : String) (hopen : ¬ClosesOuter source) :
    (∀ p, compile source = .ok p → ∃ e, readExpr source.toList = .ok e ∧
      ∀ value : String, p.accepts value = true ↔ e.MatchesWhole value.toList.toArray) ∧
    (¬WellFormed source → ∀ (inherited : Facets) (content : List Xml.Node),
      Facets.valuesOf "pattern" content ≠ [] →
      String.intercalate "|" (Facets.valuesOf "pattern" content) = source →
      (inherited.restrict content).pattern = none ∧
      ∀ (s : Subject) (name : String) (a : Attribute) (rule : Profile.AttributeRule),
        a.pattern = (inherited.restrict content).pattern →
        Validation.Datatype.pattern s name a rule = []) := by
  constructor
  · intro p hp
    obtain ⟨e, he, hexpr⟩ := (Pattern.compiled_cases hp).resolve_right hopen
    refine ⟨e, he, fun value => ?_⟩
    rw [Pattern.accepts, hexpr]
    exact e.occursIn_anchored_iff
  · rintro hmalformed inherited content hne rfl
    have hnone : (inherited.restrict content).pattern = none := by
      have hempty : (Facets.valuesOf "pattern" content).isEmpty = false :=
        List.isEmpty_eq_false_iff.2 hne
      simp only [Facets.restrict, hempty, Bool.false_eq_true, if_false]
      split
      · next p hp => exact absurd hp (Pattern.not_compiled hopen hmalformed p)
      · rfl
    refine ⟨hnone, fun s name a rule ha => ?_⟩
    rw [Validation.Datatype.pattern, ha, hnone]

/-- A pattern facet as a grammar writes it. -/
def patternFacet (source : String) : Xml.Node :=
  .element ⟨some schemaUri, "pattern", [⟨none, "value", source⟩], []⟩ []

theorem pattern_whole_letters :
    (¬ClosesOuter "[a-z]\x7b2,3\x7d" ∧ ∃ p, compile "[a-z]\x7b2,3\x7d" = .ok p ∧
      ∃ e, readExpr "[a-z]\x7b2,3\x7d".toList = .ok e ∧
        ∀ value : String, p.accepts value = true ↔ e.MatchesWhole value.toList.toArray) ∧
    ¬ClosesOuter "[a-z" ∧ ¬WellFormed "[a-z" ∧
      (Facets.none.restrict [patternFacet "[a-z"]).pattern = none := by
  have hletters : ¬ClosesOuter "[a-z]\x7b2,3\x7d" := by decide +kernel
  have hclass : readExpr "[a-z".toList = .error .unclosedClass := by decide +kernel
  have hopen : ¬ClosesOuter "[a-z" := by
    rw [ClosesOuter, hclass]
    nofun
  have hmalformed : ¬WellFormed "[a-z" := Pattern.not_wellFormed_of_error hclass
  obtain ⟨p, hp, -⟩ := Pattern.exists_compiled "[a-z]\x7b2,3\x7d" (·.accepts "ab")
    (by decide +kernel)
  refine ⟨⟨hletters, p, hp, (pattern_whole_or_none _ hletters).1 p hp⟩, hopen, hmalformed, ?_⟩
  exact ((pattern_whole_or_none _ hopen).2 hmalformed Facets.none [patternFacet "[a-z"] (by decide)
    (by decide)).1

/-- A source of two halves, each of which has one of the anchors to itself. -/
theorem pattern_halves_unanchored :
    ∃ p, compile "a)|(b" = .ok p ∧ ¬WellFormed "a)|(b" ∧ p.accepts "apple" = true ∧
      (Facets.none.restrict [patternFacet "a)|(b"]).pattern = some p := by
  obtain ⟨p, hp, happle⟩ := Pattern.exists_compiled "a)|(b" (·.accepts "apple")
    (by decide +kernel)
  have houter : readExpr "a)|(b".toList = .error .unopenedGroup := by decide +kernel
  have hfacets : Facets.valuesOf "pattern" [patternFacet "a)|(b"] = ["a)|(b"] := by decide
  have hjoined : String.intercalate "|" ["a)|(b"] = "a)|(b" := rfl
  refine ⟨p, hp, Pattern.not_wellFormed_of_error houter, happle, ?_⟩
  simp [Facets.restrict, hfacets, hjoined, hp]

end GrammarProfile.Grammar
