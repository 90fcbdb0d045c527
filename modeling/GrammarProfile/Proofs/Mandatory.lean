import GrammarProfile.Proofs.Scaffold
import GrammarProfile.Proofs.Unordered

/-!
The children that the grammar makes mandatory, in profiles about which validation has neither an
error nor a warning. An entry that lists any of its children as always present lists them all; one
that has nothing but a choice is not asked for them.
-/
namespace GrammarProfile.Validation

open GrammarProfile.Cascade (coverModel)
open GrammarProfile.Grammar (Model)
open GrammarProfile.Profile

/-- Validation has nothing to report but hints. -/
def Quiet (s : Subject) : Prop :=
  ∀ d ∈ validate .standard s, d.severity ≠ .error ∧ d.severity ≠ .warning

section Quiet

variable {s : Subject} {name : String} {rule : ElementRule}

/-- No finding of a category is lost, so none of them is an error or a warning. -/
theorem Quiet.check (h : Quiet s) (c : Category) :
    ∀ d ∈ c.check s, d.severity ≠ .error ∧ d.severity ≠ .warning := by
  intro d hd
  obtain ⟨k, hk, hseverity, _⟩ := exists_mem_validate hd
  rw [← hseverity]
  exact h k hk

/-- Whether anything is found does not depend on where the parts stand. -/
theorem quiet_of_eq_nil {m : Model} {p : Restriction} (h : validate .standard ⟨m, p, ∅⟩ = [])
    (index : LineIndex) : Quiet ⟨m, p, index⟩ := by
  intro d hd
  have hfound : unplaced d ∈ (validate .standard ⟨m, p, ∅⟩).map unplaced :=
    (SameProfile.refl p).mem_validate_iff.1 (List.mem_map_of_mem hd)
  rw [h] at hfound
  exact absurd hfound List.not_mem_nil

theorem Quiet.conforms (h : Quiet s) : Conforms s.grammar s.profile :=
  (validate_no_error_iff_conforms s).1 fun d hd => (h d hd).1

theorem Quiet.missingChildren_eq_nil (h : Quiet s)
    (hrule : (name, rule) ∈ s.profile.elements.pairs) :
    Strictness.missingChildren s name rule = [] := by
  obtain ⟨e, he, _⟩ := h.conforms.entries name rule hrule
  refine List.eq_nil_iff_forall_not_mem.2 fun d hd => ?_
  have hentry : d ∈ Strictness.entry s name rule := by
    unfold Strictness.entry
    rw [he]
    simp [hd]
  have hknown := mem_knownElements.2 ⟨hrule, Model.hasElement_iff.2 ⟨e, he⟩⟩
  have hcheck : d ∈ Category.strictness.check s :=
    List.mem_append_left _ (List.mem_flatMap.2 ⟨(name, rule), hknown, hentry⟩)
  exact (h.check .strictness d hcheck).2 (Strictness.reports_missingChildren s name rule d hd).1

/-- Without errors and warnings, mandatory children are always present and no alternatives,
unless an entry has no always-present child at all. -/
theorem mandatory_children_iff (h : Quiet s) (hrule : (name, rule) ∈ s.profile.elements.pairs) :
    (∀ c, s.grammar.Requires name c → c ∈ rule.children.keys ∧ c ∉ rule.alternatives.keys) ↔
      (rule.children.keys = [] → ∀ c, ¬s.grammar.Requires name c) := by
  constructor
  · intro hlisted hnone c hc
    have hmem := (hlisted c hc).1
    rw [hnone] at hmem
    exact absurd hmem List.not_mem_nil
  · intro hnone c hc
    obtain ⟨_, _, hentry⟩ := h.conforms.entries name rule hrule
    have hlisted := missingChildren_eq_nil.1 (h.missingChildren_eq_nil hrule)
    have hmem : c ∈ rule.children.keys := by
      rcases hlisted with hempty | hall
      · exact absurd hc (hnone hempty c)
      · exact hall c hc
    exact ⟨hmem, fun halternative => hentry.disjoint c halternative hmem⟩

end Quiet

/-- A profile of books, each of which has a cover and a text. -/
def coverProfile (book : ElementRule) : Restriction :=
  { Restriction.empty with
    elements := ⟨[("book", book), ("cover", .empty), ("text", .empty)],
      (by decide : ["book", "cover", "text"].Nodup)⟩ }

/-- The cover and the text are always present. -/
def bothParts : ElementRule :=
  { ElementRule.empty with children := ⟨[("cover", none), ("text", none)], by decide⟩ }

/-- Either the cover or the text is present. -/
def eitherPart : ElementRule :=
  { ElementRule.empty with
    alternatives := ⟨[("cover", none), ("text", none)], by decide⟩, declaresChoice := true }

theorem mandatory_bothParts : Quiet ⟨coverModel, coverProfile bothParts, ∅⟩ ∧
    ("book", bothParts) ∈ (coverProfile bothParts).elements.pairs ∧
    ((∀ c, coverModel.Requires "book" c →
        c ∈ bothParts.children.keys ∧ c ∉ bothParts.alternatives.keys) ↔
      (bothParts.children.keys = [] → ∀ c, ¬coverModel.Requires "book" c)) := by
  have hquiet : Quiet ⟨coverModel, coverProfile bothParts, ∅⟩ :=
    quiet_of_eq_nil (by decide +kernel) ∅
  have hrule : ("book", bothParts) ∈ (coverProfile bothParts).elements.pairs :=
    List.mem_cons_self
  exact ⟨hquiet, hrule, mandatory_children_iff hquiet hrule⟩

/-- Nothing is reported where the children that every book must have exclude each other. -/
theorem quiet_eitherPart : ("book", eitherPart) ∈ (coverProfile eitherPart).elements.pairs ∧
    eitherPart.childNames = ["cover", "text"] ∧ coverModel.Requires "book" "cover" ∧
    coverModel.Requires "book" "text" ∧ eitherPart.children.keys = [] ∧
    ∀ index, Quiet ⟨coverModel, coverProfile eitherPart, index⟩ := by
  refine ⟨List.mem_cons_self, rfl, ?_, ?_, rfl, quiet_of_eq_nil (by decide +kernel)⟩
  · exact Model.mem_requiredChildNames.1 (by decide)
  · exact Model.mem_requiredChildNames.1 (by decide)

end GrammarProfile.Validation
