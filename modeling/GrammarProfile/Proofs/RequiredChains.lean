import GrammarProfile.Proofs.Categories

/-!
What a document type requires in a profile. Two walks follow the required children of a grammar:
one over its elements, one over all names. Both end whatever cycles the grammar has, and they
differ in the required children that are no elements.
-/
namespace GrammarProfile.Validation

open GrammarProfile.Grammar (Model)
open GrammarProfile.Profile
open Relation (ReflTransGen)

namespace Strictness

variable {s : Subject} {name documentType : String} {rule : ElementRule} {d : Diagnostic}

theorem mem_missingChain_iff : d ∈ missingChain s documentType ↔
    s.grammar.hasElement documentType = true ∧ ∃ n ∈ s.grammar.requiredNames documentType,
      s.declares n = false ∧ d = missingElement s documentType n := by
  unfold missingChain
  split
  · next h =>
      rw [List.mem_map, and_iff_right h]
      refine exists_congr fun n => ?_
      rw [inOrder, List.mem_mergeSort, List.mem_filter, Bool.not_eq_true', and_assoc,
        eq_comm (a := d)]
  · next h => exact iff_of_false List.not_mem_nil fun hd => h hd.1

theorem not_mem_entry (hd : d.ruleId = "strictness.missing-required-element") :
    d ∉ entry s name rule := by
  intro hmem
  have hrule : ∀ r ∈ Category.strictness.rules.dropLast,
      r.1 ≠ "strictness.missing-required-element" := by decide
  exact hrule _ (listed_entry s name rule d hmem) hd

/-- The rule for required elements looks at nothing but the document types. -/
theorem mem_check_iff_missingChain (hd : d.ruleId = "strictness.missing-required-element") :
    d ∈ check s ↔ ∃ dt ∈ s.profile.documentTypes, d ∈ missingChain s dt := by
  unfold check
  rw [List.mem_append, List.mem_flatMap, List.mem_flatMap]
  refine or_iff_right ?_
  rintro ⟨p, _, hmem⟩
  exact not_mem_entry hd hmem

/-- Where all required children are elements, nothing but elements are missing. -/
theorem mem_missingChain_iff_closure
    (h : ∀ a b, s.grammar.Requires a b → s.grammar.hasElement b = true) :
    d ∈ missingChain s documentType ↔ ∃ n ∈ s.grammar.requiredClosure documentType,
      s.declares n = false ∧ d = missingElement s documentType n := by
  rw [mem_missingChain_iff]
  constructor
  · rintro ⟨hdt, n, hn, hmissing⟩
    rcases (Model.mem_requiredNames_iff_closure hdt).1 hn with hn | ⟨hnone, a, _, hstep⟩
    · exact ⟨n, hn, hmissing⟩
    · exact absurd (h a n hstep) (by rw [hnone]; decide)
  · rintro ⟨n, hn, hmissing⟩
    have hdt := (Model.mem_requiredClosure_iff_path.1 hn).1
    exact ⟨hdt, n, (Model.mem_requiredNames_iff_closure hdt).2 (.inl hn), hmissing⟩

theorem missingElement_placed (hd : d = missingElement s documentType name) :
    d = s.report .error "strictness.missing-required-element" d.path d.message := by
  rw [hd, missingElement, report_path, report_message]

end Strictness

/-- The walks from an element find each of their names once and the element first: the one exactly
the elements that can be reached over elements, the other these and the required children of them
that are no elements. So a grammar whose required children are all elements has it reported,
exactly for the elements found from a listed document type, that they have no entry. -/
theorem requiredClosure_exact (m : Model) :
    (∀ start, m.hasElement start = true →
      ((m.requiredClosure start).Nodup ∧ (m.requiredClosure start).head? = some start ∧
        ∀ n, n ∈ m.requiredClosure start ↔ ReflTransGen m.RequiresElement start n) ∧
      (m.requiredNames start).Nodup ∧ (m.requiredNames start).head? = some start ∧
        ∀ n, n ∈ m.requiredNames start ↔ n ∈ m.requiredClosure start ∨
          m.hasElement n = false ∧ ∃ a ∈ m.requiredClosure start, m.Requires a n) ∧
    ((∀ a b, m.Requires a b → m.hasElement b = true) →
      ∀ p index settings, Category.strictness ∈ settings.categories →
        ∀ d : Diagnostic, d.ruleId = "strictness.missing-required-element" →
          (d ∈ validate settings ⟨m, p, index⟩ ↔
            ∃ dt ∈ p.documentTypes, ∃ n ∈ m.requiredClosure dt, n ∉ p.elements.keys ∧
              d = Strictness.missingElement ⟨m, p, index⟩ dt n)) := by
  refine ⟨fun start hstart => ⟨⟨?_, ?_, fun n => ?_⟩, ?_, ?_, fun n => ?_⟩,
    fun hclosed p index settings hsettings d hd => ?_⟩
  · exact Model.requiredClosure_nodup m start
  · exact Model.head?_requiredClosure hstart
  · rw [Model.mem_requiredClosure_iff_path, and_iff_right hstart]
  · exact Model.requiredNames_nodup m start
  · exact head?_walk _ _ _
  · exact Model.mem_requiredNames_iff_closure hstart
  · have hcategory : d.category = Category.strictness.name := by
      unfold Diagnostic.category
      rw [hd]
      decide +kernel
    have hfound : ∀ k, k.ruleId = d.ruleId → (k ∈ Category.strictness.check ⟨m, p, index⟩ ↔
        ∃ dt ∈ p.documentTypes, ∃ n ∈ m.requiredClosure dt,
          Subject.declares ⟨m, p, index⟩ n = false ∧
            k = Strictness.missingElement ⟨m, p, index⟩ dt n) := by
      intro k hk
      refine (Strictness.mem_check_iff_missingChain (hk.trans hd)).trans ?_
      exact exists_congr fun dt => and_congr_right fun _ =>
        Strictness.mem_missingChain_iff_closure hclosed
    have hdeclares : ∀ n, Subject.declares ⟨m, p, index⟩ n = false ↔ n ∉ p.elements.keys := by
      intro n
      rw [← OrderedMap.contains_iff, Bool.not_eq_true]
      rfl
    rw [mem_validate_iff_mem_check hsettings hcategory, hfound d rfl]
    · simp only [hdeclares]
    · intro k hk hsame
      obtain ⟨dt, _, n, _, _, hmissing⟩ := (hfound k hsame).1 hk
      rw [hd]
      exact Strictness.missingElement_placed hmissing

/-- A text and its line require each other, and the line a note. -/
def ringModel : Model where
  elements := ⟨[
    ("line", ⟨"line", "Line", none, [], [⟨"text", .one, none, []⟩, ⟨"note", .one, none, []⟩], [], [],
      ""⟩),
    ("note", ⟨"note", "Note", none, [], [], [], [], ""⟩),
    ("text", ⟨"text", "Text", none, [], [⟨"line", .one, none, []⟩], [], [], ""⟩)], by decide⟩
  enums := ∅
  root := some "text"

def textsOnly : Restriction :=
  { Restriction.empty with documentTypes := ["text"], elements := ⟨[("text", .empty)], by decide⟩ }

theorem requires_ringModel {a b : String} (h : ringModel.Requires a b) :
    ringModel.hasElement b = true := by
  have hall : ∀ e ∈ ringModel.elements.values, ∀ c ∈ e.children,
      ringModel.hasElement c.name = true := by decide
  obtain ⟨c, hc, _, rfl⟩ := h
  unfold Model.children at hc
  split at hc
  · next e he => exact hall e (OrderedMap.mem_values_of_get? he) c hc
  · exact absurd hc List.not_mem_nil

theorem requiredClosure_ringModel : ringModel.hasElement "text" = true ∧
    (∀ n, n ∈ ringModel.requiredClosure "text" ↔
      ReflTransGen ringModel.RequiresElement "text" n) ∧
    (∀ n, n ∈ ringModel.requiredNames "text" ↔ n ∈ ringModel.requiredClosure "text" ∨
      ringModel.hasElement n = false ∧
        ∃ a ∈ ringModel.requiredClosure "text", ringModel.Requires a n) ∧
    ringModel.requiredClosure "text" = ["text", "line", "note"] ∧
    (∀ a b, ringModel.Requires a b → ringModel.hasElement b = true) ∧
    Strictness.missingElement ⟨ringModel, textsOnly, ∅⟩ "text" "note" ∈
      validate .standard ⟨ringModel, textsOnly, ∅⟩ := by
  have htext : ringModel.hasElement "text" = true := by decide
  have hclosed : ∀ a b, ringModel.Requires a b → ringModel.hasElement b = true :=
    fun _ _ => requires_ringModel
  obtain ⟨hwalks, hreported⟩ := requiredClosure_exact ringModel
  obtain ⟨⟨_, _, hclosure⟩, _, _, hnames⟩ := hwalks "text" htext
  refine ⟨htext, hclosure, hnames, by decide, hclosed, ?_⟩
  refine (hreported hclosed textsOnly ∅ .standard (by decide) _ (report_ruleId ..)).2 ?_
  exact ⟨"text", List.mem_singleton.2 rfl, "note", by decide, by decide, rfl⟩

end GrammarProfile.Validation
