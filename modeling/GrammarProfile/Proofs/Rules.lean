import GrammarProfile.Proofs.Conformance
import GrammarProfile.Proofs.Findings
import GrammarProfile.Proofs.Names

/-!
What each rule asks for: the severity of its findings, and the condition under which an entry or
a profile has none.
-/
namespace GrammarProfile.Validation

open GrammarProfile.Grammar (Attribute Branch Child ChoiceGroup Count Element Model Occurs)
open GrammarProfile.Profile

/-! ## Lists -/

theorem forall_zipIdx_iff {α : Type} {items : List α} {p : α → Prop} :
    (∀ x ∈ items.zipIdx, p x.1) ↔ ∀ x ∈ items, p x := by
  constructor
  · intro h x hx
    obtain ⟨i, hi, rfl⟩ := List.mem_iff_getElem.1 hx
    exact h (items[i], i) (List.mem_zipIdx_iff_getElem?.2 (List.getElem?_eq_getElem hi))
  · intro h x hx
    exact h x.1 (List.mem_of_getElem? (List.mem_zipIdx_iff_getElem?.1 hx))

/-- The consecutive pairs of a list are those of a chain. -/
theorem forall_zip_drop_iff {α : Type} {items : List α} {r : α → α → Prop} :
    (∀ x ∈ items.zip (items.drop 1), r x.1 x.2) ↔ items.IsChain r := by
  induction items with
  | nil => simp
  | cons a rest ih =>
      cases rest with
      | nil => simp
      | cons b rest =>
          rw [List.isChain_cons_cons, ← ih]
          simp

/-- At most one item has a result when no two of them have one. -/
theorem filterMap_length_le_one {α β : Type} {items : List α} {f : α → Option β} :
    (items.filterMap f).length ≤ 1 ↔
      items.Pairwise fun a b => ¬((f a).isSome = true ∧ (f b).isSome = true) := by
  induction items with
  | nil => simp
  | cons a rest ih =>
      rw [List.pairwise_cons]
      cases ha : f a with
      | none => simp [ha, ih]
      | some x =>
          have hnone : (rest.filterMap f).length = 0 ↔ ∀ b ∈ rest, ¬(f b).isSome = true := by
            rw [List.length_eq_zero_iff, List.filterMap_eq_nil_iff]
            simp
          have hone : (rest.filterMap f).length + 1 ≤ 1 ↔ (rest.filterMap f).length = 0 := by omega
          rw [List.filterMap_cons_some ha, List.length_cons, hone, hnone]
          simp only [Option.isSome_some, true_and]
          refine ⟨fun h => ⟨h, ?_⟩, fun h => h.1⟩
          rw [← ih, hnone.2 h]
          exact Nat.zero_le 1

section

variable (s : Subject) (name : String) (rule : ElementRule)

/-- The names among the children of an element. -/
theorem mem_childNames {m : Model} {e : Element} (he : m.element? name = some e) {c : String} :
    c ∈ m.childNames name ↔ ∃ d, e.child? c = some d := by
  rw [Model.childNames, Model.children_eq he, List.mem_map, ← Option.isSome_iff_exists,
    Element.child?, List.find?_isSome]
  simp

/-! ## Vocabulary -/

namespace Vocabulary

theorem reports_documentTypes :
    Reports .error "vocabulary.unknown-document-type" (documentTypes s) :=
  reports_map (fun ⟨_, _⟩ => report_severity ..) fun ⟨_, _⟩ => report_ruleId ..

theorem clean_documentTypes : Clean (documentTypes s) ↔
    ∀ dt ∈ s.profile.documentTypes, dt ∈ s.grammar.documentTypes := by
  rw [(reports_documentTypes s).clean_iff, documentTypes, List.map_eq_nil_iff,
    List.filter_eq_nil_iff]
  refine Iff.trans ?_ (forall_zipIdx_iff (p := fun dt => dt ∈ s.grammar.documentTypes))
  simp

theorem reports_attributes (e : Element) :
    Reports .error "vocabulary.unknown-attribute" (attributes s name e rule) :=
  reports_map (fun _ => report_severity ..) fun _ => report_ruleId ..

theorem clean_attributes (e : Element) : Clean (attributes s name e rule) ↔
    ∀ a ∈ rule.attributes.keys, ∃ d, e.attribute? a = some d := by
  rw [(reports_attributes s name rule e).clean_iff, attributes, List.map_eq_nil_iff,
    List.filter_eq_nil_iff]
  simp only [Element.hasAttribute, Bool.not_eq_true', Bool.not_eq_false, Option.isSome_iff_exists]

theorem forall_references {p : String → Prop} : (∀ r ∈ references name rule, p r.1) ↔
    (∀ c ∈ rule.children.keys, p c) ∧ (∀ c ∈ rule.alternatives.keys, p c) ∧
      ∀ c ∈ rule.parts, p c := by
  simp only [references, List.forall_mem_append, List.forall_mem_map, and_assoc]
  exact and_congr Iff.rfl (and_congr Iff.rfl forall_zipIdx_iff)

theorem reports_unknown (refs : List (String × String)) :
    Reports .error "vocabulary.unknown-element"
      (refs.map fun (n, path) => unknownElement s n path) :=
  reports_map (fun ⟨_, _⟩ => report_severity ..) fun ⟨_, _⟩ => report_ruleId ..

theorem listed_entry : Listed Category.vocabulary.rules (entry s name rule) := by
  unfold entry
  split
  · exact (reports_unknown s [(name, elementPath name)]).listed (by decide)
  · exact listed_append.2
      ⟨(reports_attributes s name rule _).listed (by decide),
        (reports_unknown s _).listed (by decide)⟩

theorem listed_check : Listed Category.vocabulary.rules (check s) := by
  rw [check, listed_append]
  exact ⟨(reports_documentTypes s).listed (by decide),
    listed_flatMap fun ⟨name, rule⟩ _ => listed_entry s name rule⟩

/-- An unknown element is itself an error. -/
theorem not_clean_entry (h : s.grammar.element? name = none) : ¬Clean (entry s name rule) := by
  unfold entry
  rw [h]
  intro hc
  exact hc _ (List.mem_singleton.2 rfl) (report_severity ..)

theorem clean_entry {e : Element} (he : s.grammar.element? name = some e) :
    Clean (entry s name rule) ↔
      (∀ a ∈ rule.attributes.keys, ∃ d, e.attribute? a = some d) ∧
        (∀ c ∈ rule.children.keys, s.grammar.hasElement c = true) ∧
        (∀ c ∈ rule.alternatives.keys, s.grammar.hasElement c = true) ∧
        ∀ c ∈ rule.parts, s.grammar.hasElement c = true := by
  unfold entry
  simp only [he]
  rw [clean_append, clean_attributes, (reports_unknown s _).clean_iff, List.map_eq_nil_iff,
    List.filter_eq_nil_iff]
  simp only [Bool.not_eq_true', Bool.not_eq_false]
  rw [forall_references (p := fun n => s.grammar.hasElement n = true)]

theorem clean_check : Clean (check s) ↔
    (∀ dt ∈ s.profile.documentTypes, dt ∈ s.grammar.documentTypes) ∧
      ∀ p ∈ s.profile.elements.pairs, Clean (entry s p.1 p.2) := by
  rw [check, clean_append, clean_flatMap, clean_documentTypes]

end Vocabulary

/-! ## Containment -/

namespace Containment

theorem reports_children : Reports .error "structure.invalid-child" (children s name rule) :=
  reports_map (fun _ => report_severity ..) fun _ => report_ruleId ..

theorem reports_firstPart :
    Reports .error "structure.invalid-structure-root" (firstPart s name rule) :=
  reports_map (fun _ => report_severity ..) fun _ => report_ruleId ..

theorem reports_chain : Reports .error "structure.invalid-structure-chain" (chain s name rule) :=
  reports_map (fun ⟨⟨_, _⟩, _⟩ => report_severity ..) fun ⟨⟨_, _⟩, _⟩ => report_ruleId ..

theorem clean_children : Clean (children s name rule) ↔
    ∀ c ∈ rule.children.keys, s.grammar.hasElement c = true →
      c ∈ s.grammar.childNames name := by
  rw [(reports_children s name rule).clean_iff, children, List.map_eq_nil_iff,
    List.filter_eq_nil_iff]
  simp

theorem clean_firstPart : Clean (firstPart s name rule) ↔
    ∀ p, rule.parts.head? = some p → s.grammar.hasElement p = true →
      p ∈ s.grammar.childNames name := by
  rw [(reports_firstPart s name rule).clean_iff, firstPart, List.map_eq_nil_iff,
    List.filter_eq_nil_iff]
  cases rule.parts <;> simp

theorem clean_chain : Clean (chain s name rule) ↔
    rule.parts.IsChain fun a b => s.grammar.hasElement a = true → s.grammar.hasElement b = true →
      b ∈ s.grammar.childNames a := by
  rw [(reports_chain s name rule).clean_iff, chain, List.map_eq_nil_iff, List.filter_eq_nil_iff,
    ← forall_zip_drop_iff]
  refine Iff.trans ?_ (forall_zipIdx_iff (p := fun x : String × String =>
    s.grammar.hasElement x.1 = true → s.grammar.hasElement x.2 = true →
      x.2 ∈ s.grammar.childNames x.1))
  simp

theorem listed_check : Listed Category.containment.rules (check s) := by
  refine listed_flatMap fun ⟨name, rule⟩ _ => ?_
  simp only [listed_append]
  exact ⟨⟨(reports_children s name rule).listed (by decide),
    (reports_firstPart s name rule).listed (by decide)⟩,
    (reports_chain s name rule).listed (by decide)⟩

theorem clean_check : Clean (check s) ↔
    ∀ p ∈ s.knownElements,
      Clean (children s p.1 p.2 ++ firstPart s p.1 p.2 ++ chain s p.1 p.2) := by
  rw [check, clean_flatMap]

end Containment

/-! ## Datatypes and repetitions -/

namespace Datatype

variable (a : Attribute) (r : AttributeRule)

theorem reports_enumeration_of_some {allowed : List String} (ha : a.enumValues = some allowed) :
    Reports .error "datatype.invalid-enum-value" (enumeration s name a r) := by
  unfold enumeration
  rw [ha]
  exact reports_map (fun ⟨_, _⟩ => report_severity ..) fun ⟨_, _⟩ => report_ruleId ..

theorem reports_enumeration_of_none (ha : a.enumValues = none) :
    Reports .info "datatype.custom-enum-on-free-attribute" (enumeration s name a r) := by
  unfold enumeration
  rw [ha]
  exact reports_singleton (report_severity ..) (report_ruleId ..)

theorem listed_enumeration : Listed Category.datatype.rules (enumeration s name a r) := by
  cases ha : a.enumValues with
  | none => exact (reports_enumeration_of_none s name a r ha).listed (by decide)
  | some allowed => exact (reports_enumeration_of_some s name a r ha).listed (by decide)

theorem clean_enumeration : Clean (enumeration s name a r) ↔
    ∀ allowed, a.enumValues = some allowed → ∀ v ∈ r.values, v ∈ allowed := by
  cases ha : a.enumValues with
  | none => exact iff_of_true ((reports_enumeration_of_none s name a r ha).clean nofun) nofun
  | some allowed =>
      rw [(reports_enumeration_of_some s name a r ha).clean_iff]
      unfold enumeration
      rw [ha, List.map_eq_nil_iff, List.filter_eq_nil_iff]
      refine Iff.trans (forall_zipIdx_iff (p := fun v => ¬(!allowed.contains v) = true)) ?_
      simp

theorem reports_pattern : Reports .error "datatype.pattern-mismatch" (pattern s name a r) := by
  unfold pattern
  split
  · exact reports_map (fun ⟨_, _⟩ => report_severity ..) fun ⟨_, _⟩ => report_ruleId ..
  · exact reports_nil _ _

theorem clean_pattern : Clean (pattern s name a r) ↔
    ∀ p, a.pattern = some p → ∀ v ∈ r.values, p.accepts v = true := by
  rw [(reports_pattern s name a r).clean_iff]
  unfold pattern
  cases ha : a.pattern with
  | none => simp
  | some p =>
      rw [List.map_eq_nil_iff, List.filter_eq_nil_iff]
      refine Iff.trans (forall_zipIdx_iff (p := fun v => ¬(!p.accepts v) = true)) ?_
      simp

theorem listed_check : Listed Category.datatype.rules (check s) := by
  refine listed_flatMap fun ⟨name, entry⟩ _ => listed_flatMap fun ⟨attributeName, r⟩ _ => ?_
  simp only
  split
  · split
    · exact listed_nil
    · exact listed_append.2
        ⟨listed_enumeration s name _ r, (reports_pattern s name _ r).listed (by decide)⟩
  · exact listed_nil

/-- Attributes without values have nothing to check. -/
theorem clean_check : Clean (check s) ↔
    ∀ p ∈ s.knownElements, ∀ q ∈ p.2.attributes.pairs, ∀ d, declared? s p.1 q.1 = some d →
      (∀ allowed, d.enumValues = some allowed → ∀ v ∈ q.2.values, v ∈ allowed) ∧
        ∀ t, d.pattern = some t → ∀ v ∈ q.2.values, t.accepts v = true := by
  simp only [check, clean_flatMap]
  refine forall_congr' fun p => imp_congr_right fun _ => forall_congr' fun q =>
    imp_congr_right fun _ => ?_
  cases declared? s p.1 q.1 with
  | none => simp
  | some d =>
      by_cases hv : q.2.values = []
      · simp [hv]
      · simp only [List.isEmpty_iff, hv, if_false, clean_append, clean_enumeration, clean_pattern,
          Option.some.injEq, forall_eq']

end Datatype

namespace Identity

theorem reports_repeatedParts :
    Reports .warning "identity.duplicate-structure-entry" (repeatedParts s name rule) := by
  intro d hd
  obtain ⟨⟨part, i⟩, _, h⟩ := List.mem_filterMap.1 hd
  simp only at h
  split at h
  · rw [← Option.some.inj h]
    exact ⟨report_severity .., report_ruleId ..⟩
  · exact absurd h nofun

theorem reports_undeclaredTypes :
    Reports .info "identity.doctype-without-element-restriction" (undeclaredTypes s) :=
  reports_map (fun ⟨_, _⟩ => report_severity ..) fun ⟨_, _⟩ => report_ruleId ..

theorem listed_check : Listed Category.identity.rules (check s) :=
  listed_append.2 ⟨listed_flatMap fun ⟨name, rule⟩ _ =>
    (reports_repeatedParts s name rule).listed (by decide),
    (reports_undeclaredTypes s).listed (by decide)⟩

theorem clean_check : Clean (check s) := by
  rw [check, clean_append, clean_flatMap]
  exact ⟨fun ⟨name, rule⟩ _ => (reports_repeatedParts s name rule).clean nofun,
    (reports_undeclaredTypes s).clean nofun⟩

end Identity

/-! ## Choices -/

namespace Alternatives

theorem reports_emptyGroups :
    Reports .error "choice.required-group-empty" (emptyGroups s name rule) :=
  reports_map (fun _ => (located_severity ..).trans (report_severity ..)) fun _ =>
    (located_ruleId ..).trans (report_ruleId ..)

theorem clean_emptyGroups : Clean (emptyGroups s name rule) ↔
    ∀ g ∈ s.grammar.choiceGroups name, 1 ≤ g.minOccurs.val →
      ∃ c ∈ rule.childNames, ∃ b ∈ g.branches, c ∈ b.elements := by
  rw [(reports_emptyGroups s name rule).clean_iff, emptyGroups, List.map_eq_nil_iff,
    List.filter_eq_nil_iff]
  simp only [← ChoiceGroup.contains_iff]
  simp [ChoiceGroup.required]

theorem reports_incomplete :
    Reports .error "choice.incomplete-branches" (incomplete s name rule) := by
  unfold incomplete
  simp only
  split
  · exact reports_nil _ _
  · exact reports_singleton (report_severity ..) (report_ruleId ..)

theorem clean_incomplete : Clean (incomplete s name rule) ↔
    (rule.declaresChoice = true → 2 ≤ rule.alternatives.size) := by
  rw [(reports_incomplete s name rule).clean_iff]
  simp only [incomplete, ite_eq_left_iff, List.cons_ne_self]
  cases rule.declaresChoice with
  | false => simp
  | true => simp [Nat.lt_iff_add_one_le]

theorem reports_groupConflicts (g : ChoiceGroup) :
    Reports .error "choice.exclusive-branch-conflict" (groupConflicts s name rule g) := by
  unfold groupConflicts
  split
  · exact reports_nil _ _
  · exact reports_map (fun ⟨_, _⟩ => report_severity ..) fun ⟨_, _⟩ => report_ruleId ..

theorem listed_conflicts : Listed Category.choice.rules (conflicts s name rule) :=
  listed_flatMap fun g _ => (reports_groupConflicts s name rule g).listed (by decide)

/-- A branch counts as active when it holds an always-present child. -/
theorem activeBranches_length_le_one (g : ChoiceGroup) :
    (activeBranches g rule).length ≤ 1 ↔
      g.branches.Pairwise fun a b => ¬(Active rule a ∧ Active rule b) := by
  have hactive : ∀ b : Branch,
      Text.nameSet (rule.children.keys.filter b.elements.contains) = [] ↔ ¬Active rule b := by
    intro b
    rw [Text.nameSet_eq_nil, List.filter_eq_nil_iff]
    simp [Active]
  unfold activeBranches
  rw [filterMap_length_le_one]
  refine List.Pairwise.iff fun a b => not_congr (and_congr ?_ ?_)
  · split
    · next h => simp [(hactive a).1 h]
    · next h => simpa using fun hn => h ((hactive a).2 hn)
  · split
    · next h => simp [(hactive b).1 h]
    · next h => simpa using fun hn => h ((hactive b).2 hn)

theorem clean_groupConflicts (g : ChoiceGroup) : Clean (groupConflicts s name rule g) ↔
    g.branches.Pairwise fun a b => ¬(Active rule a ∧ Active rule b) := by
  rw [(reports_groupConflicts s name rule g).clean_iff, ← activeBranches_length_le_one]
  unfold groupConflicts
  cases activeBranches g rule with
  | nil => simp
  | cons first rest => cases rest <;> simp

theorem clean_conflicts : Clean (conflicts s name rule) ↔
    ∀ g ∈ s.grammar.choiceGroups name, g.maxOccurs = some Count.one →
      g.branches.Pairwise fun a b => ¬(Active rule a ∧ Active rule b) := by
  simp [conflicts, clean_groupConflicts, ChoiceGroup.exclusive]

theorem reports_invalidMembers :
    Reports .error "choice.branch-invalid-child" (invalidMembers s name rule) :=
  reports_map (fun _ => (located_severity ..).trans (report_severity ..)) fun _ =>
    (located_ruleId ..).trans (report_ruleId ..)

theorem clean_invalidMembers : Clean (invalidMembers s name rule) ↔
    ∀ c ∈ rule.alternatives.keys, c ∈ s.grammar.childNames name := by
  rw [(reports_invalidMembers s name rule).clean_iff, invalidMembers, List.map_eq_nil_iff,
    List.filter_eq_nil_iff]
  simp

theorem reports_overlap : Reports .error "choice.branch-overlap" (overlap s name rule) :=
  reports_map (fun _ => (located_severity ..).trans (report_severity ..)) fun _ =>
    (located_ruleId ..).trans (report_ruleId ..)

theorem clean_overlap : Clean (overlap s name rule) ↔
    ∀ c ∈ rule.alternatives.keys, c ∉ rule.children.keys := by
  rw [(reports_overlap s name rule).clean_iff, overlap, List.map_eq_nil_iff,
    List.filter_eq_nil_iff]
  simp only [OrderedMap.contains_iff]

theorem listed_check : Listed Category.choice.rules (check s) := by
  refine listed_flatMap fun ⟨name, rule⟩ _ => ?_
  simp only [entry]
  have hchoice : Listed Category.choice.rules (incomplete s name rule) :=
    (reports_incomplete s name rule).listed (by decide)
  have hoverlap : Listed Category.choice.rules (overlap s name rule) :=
    (reports_overlap s name rule).listed (by decide)
  split
  · simp only [listed_append]
    exact ⟨⟨⟨⟨(reports_emptyGroups s name rule).listed (by decide), hchoice⟩,
      listed_conflicts s name rule⟩, (reports_invalidMembers s name rule).listed (by decide)⟩,
      hoverlap⟩
  · exact listed_append.2 ⟨hchoice, hoverlap⟩

theorem clean_check : Clean (check s) ↔
    ∀ p ∈ s.profile.elements.pairs, Clean (entry s p.1 p.2) := by
  rw [check, clean_flatMap]

end Alternatives

/-! ## Strictness -/

namespace Strictness

theorem reports_missingChildren :
    Reports .warning "strictness.missing-required-child" (missingChildren s name rule) := by
  unfold missingChildren
  split
  · exact reports_nil _ _
  · exact reports_map (fun _ => report_severity ..) fun _ => report_ruleId ..

theorem reports_missingAttributes :
    Reports .warning "strictness.missing-required-attribute" (missingAttributes s name rule) := by
  unfold missingAttributes
  split
  · exact reports_nil _ _
  · exact reports_map (fun _ => report_severity ..) fun _ => report_ruleId ..

theorem reports_undeclared :
    Reports .warning "strictness.undeclared-child-element" (undeclared s name rule) :=
  reports_map (fun ⟨_, _⟩ => report_severity ..) fun ⟨_, _⟩ => report_ruleId ..

section Bounds

variable (path : String) (c : Child) (own : Occurs)

theorem reports_loosenedBounds :
    Reports .error "strictness.loosened-child-cardinality"
      (loosenedBounds s name path c own) := by
  unfold loosenedBounds
  refine Reports.append ?_ ?_
  · split
    · exact reports_singleton (report_severity ..) (report_ruleId ..)
    · exact reports_nil _ _
  · split
    · exact reports_nil _ _
    · split
      · exact reports_singleton (report_severity ..) (report_ruleId ..)
      · exact reports_nil _ _

theorem clean_loosenedBounds : Clean (loosenedBounds s name path c own) ↔
    within own ⟨c.minOccurs, c.maxOccurs⟩ = true := by
  rw [(reports_loosenedBounds s name path c own).clean_iff, loosenedBounds, List.append_eq_nil_iff]
  simp only [ite_eq_right_iff, List.cons_ne_nil, imp_false, Nat.not_lt, within, Bool.and_eq_true,
    decide_eq_true_eq]
  refine and_congr Iff.rfl ?_
  cases c.maxOccurs with
  | none => simp
  | some limit => cases own.max <;> simp

variable (e : Element) (child : String) (label : Option String)

theorem listed_bounds :
    Listed Category.strictness.rules.dropLast (bounds s name e path child label) := by
  unfold bounds
  split
  · split
    · exact (reports_singleton (report_severity ..) (report_ruleId ..)).listed (by decide)
    · exact (reports_loosenedBounds s name path _ _).listed (by decide)
  · exact listed_nil

theorem clean_bounds {c : Child} (hc : e.child? child = some c) :
    Clean (bounds s name e path child label) ↔ LabelConforms c label := by
  unfold bounds LabelConforms
  rw [hc]
  cases label with
  | none => simp
  | some text =>
      cases hr : readLabel text with
      | error reason =>
          refine iff_of_false (fun h => ?_) (fun h => ?_)
          · simp only [hr] at h
            exact h _ (List.mem_singleton.2 rfl) (report_severity ..)
          · obtain ⟨own, hown, _⟩ := h text rfl
            rw [hr] at hown
            exact absurd hown nofun
      | ok own => simp [hr, clean_loosenedBounds]

end Bounds

theorem reports_loosenedAttributes (e : Element) :
    Reports .error "strictness.loosened-attribute-required" (loosenedAttributes s name e rule) :=
  reports_map (fun ⟨_, _⟩ => report_severity ..) fun ⟨_, _⟩ => report_ruleId ..

theorem clean_loosenedAttributes (e : Element) : Clean (loosenedAttributes s name e rule) ↔
    ∀ a r, (a, r) ∈ rule.attributes.pairs → ∀ d, e.attribute? a = some d → d.required = true →
      r.required = true := by
  rw [(reports_loosenedAttributes s name rule e).clean_iff, loosenedAttributes,
    List.map_eq_nil_iff, List.filter_eq_nil_iff]
  simp only [Bool.and_eq_true, Option.any_eq_true, Bool.not_eq_true', not_and, Bool.not_eq_false,
    forall_exists_index, and_imp, Prod.forall]

theorem reports_missingChain (documentType : String) :
    Reports .error "strictness.missing-required-element" (missingChain s documentType) := by
  unfold missingChain
  split
  · exact reports_map (fun _ => report_severity ..) fun _ => report_ruleId ..
  · exact reports_nil _ _

theorem clean_missingChain (documentType : String) : Clean (missingChain s documentType) ↔
    (s.grammar.hasElement documentType = true →
      ∀ n, Relation.ReflTransGen s.grammar.Requires documentType n →
        n ∈ s.profile.elements.keys) := by
  rw [(reports_missingChain s documentType).clean_iff]
  simp only [missingChain, ← Model.mem_requiredNames_iff, ← OrderedMap.contains_iff]
  split
  · next h =>
      rw [List.map_eq_nil_iff, List.eq_nil_iff_forall_not_mem]
      simp [inOrder, Subject.declares, h]
  · next h => simp [h]

/-- The last rule is the only one that is not about an entry. -/
theorem listed_entry : Listed Category.strictness.rules.dropLast (entry s name rule) := by
  unfold entry
  split
  · exact listed_nil
  · next e _ =>
      simp only [cardinalities, listed_append]
      refine ⟨⟨⟨⟨(reports_missingChildren s name rule).listed (by decide),
        (reports_missingAttributes s name rule).listed (by decide)⟩, ?_, ?_⟩,
        (reports_loosenedAttributes s name rule e).listed (by decide)⟩,
        (reports_undeclared s name rule).listed (by decide)⟩
      · exact listed_flatMap fun p _ => listed_bounds s name _ e p.1 p.2
      · exact listed_flatMap fun p _ => listed_bounds s name _ e p.1 p.2

theorem listed_check : Listed Category.strictness.rules (check s) :=
  listed_append.2 ⟨listed_flatMap fun ⟨name, rule⟩ _ d hd =>
      List.dropLast_subset _ (listed_entry s name rule d hd),
    listed_flatMap fun dt _ => (reports_missingChain s dt).listed (by decide)⟩

theorem clean_entry {e : Element} (he : s.grammar.element? name = some e) :
    Clean (entry s name rule) ↔
      ((∀ c label, (c, label) ∈ rule.children.pairs →
          Clean (bounds s name e (childPath name c) c label)) ∧
        ∀ c label, (c, label) ∈ rule.alternatives.pairs →
          Clean (bounds s name e (alternativePath name c) c label)) ∧
      ∀ a r, (a, r) ∈ rule.attributes.pairs → ∀ d, e.attribute? a = some d →
        d.required = true → r.required = true := by
  have hchildren := (reports_missingChildren s name rule).clean nofun
  have hattributes := (reports_missingAttributes s name rule).clean nofun
  have hundeclared := (reports_undeclared s name rule).clean nofun
  unfold entry
  simp only [he, cardinalities, clean_append, clean_flatMap, hchildren, hattributes, hundeclared,
    true_and, and_true, clean_loosenedAttributes, Prod.forall]

theorem clean_check : Clean (check s) ↔
    (∀ p ∈ s.knownElements, Clean (entry s p.1 p.2)) ∧
      ∀ dt ∈ s.profile.documentTypes, Clean (missingChain s dt) := by
  rw [check, clean_append, clean_flatMap, clean_flatMap]

end Strictness

end

end GrammarProfile.Validation
