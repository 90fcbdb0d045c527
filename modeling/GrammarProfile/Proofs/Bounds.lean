import GrammarProfile.Proofs.Conflicts
import GrammarProfile.Proofs.Labels

/-!
Bounds of an entry that leave the bounds of the grammar. The comparison of minima and maxima finds
them exactly where some number of occurrences is within the former and not within the latter.
-/
namespace GrammarProfile.Profile

open GrammarProfile.Grammar (Count Occurs)

/-- A label that can be read admits some number: a maximum below the minimum is no label. -/
theorem ordered_of_readLabel {text : String} {own : Occurs} (h : readLabel text = .ok own) :
    own.Ordered := by
  unfold readLabel at h
  split at h
  · cases h
  · split at h
    · cases h
    · next low _ =>
        split at h
        · cases h
          exact nofun
        · split at h
          · cases h
          · next high _ =>
              split at h
              · cases h
              · next hle =>
                  cases h
                  intro m hm
                  cases hm
                  exact Nat.not_lt.1 hle

/-- A range is within another exactly if the other admits all its numbers. This needs a number in
the range: one without numbers need not be within the other, though the other admits them all. -/
theorem within_iff_admits {inner outer : Occurs} (h : inner.Ordered) :
    within inner outer = true ↔ ∀ k, inner.Admits k → outer.Admits k := by
  have hwithin : within inner outer = true ↔ outer.min.val ≤ inner.min.val ∧
      ∀ b, outer.max = some b → ∃ a, inner.max = some a ∧ a.val ≤ b.val := by
    unfold within
    rw [Bool.and_eq_true, decide_eq_true_eq]
    cases outer.max <;> cases inner.max <;> simp
  rw [hwithin]
  constructor
  · rintro ⟨hmin, hmax⟩ k ⟨hlow, hhigh⟩
    refine ⟨hmin.trans hlow, fun b hb => ?_⟩
    obtain ⟨a, ha, hle⟩ := hmax b hb
    exact (hhigh a ha).trans hle
  · intro hall
    have hlowest := hall inner.min.val ⟨Nat.le_refl _, h⟩
    refine ⟨hlowest.1, fun b hb => ?_⟩
    cases ha : inner.max with
    | some a => exact ⟨a, rfl, (hall a.val ⟨h a ha, by simp [ha]⟩).2 b hb⟩
    | none =>
        -- The first number above the maximum of the grammar that is not below the minimum.
        have habove := hall (max inner.min.val (b.val + 1))
          ⟨Nat.le_max_left _ _, fun _ hm => absurd (ha.symm.trans hm) nofun⟩
        have := habove.2 b hb
        omega

/-- A range leaves another where it admits a number that the other does not admit. -/
theorem exists_outside_iff {inner outer : Occurs} (h : inner.Ordered) :
    (∃ k, inner.Admits k ∧ ¬outer.Admits k) ↔ within inner outer = false := by
  rw [← Bool.not_eq_true, within_iff_admits h]
  push Not
  rfl

end GrammarProfile.Profile

namespace GrammarProfile.Validation

open GrammarProfile.Grammar (Child Count Element Occurs)
open GrammarProfile.Profile

/-- A name that an entry lists with a label, and the path of the label. -/
inductive Labelled (name : String) (rule : ElementRule) : String → String → String → Prop
  | child {child text : String} (h : (child, some text) ∈ rule.children.pairs) :
      Labelled name rule (childPath name child) child text
  | alternative {child text : String} (h : (child, some text) ∈ rule.alternatives.pairs) :
      Labelled name rule (alternativePath name child) child text

namespace Strictness

variable {s : Subject} {name path child text : String} {rule : ElementRule} {e : Element}
  {c : Child} {own : Occurs} {d : Diagnostic} {label : Option String}

theorem bounds_of_readLabel (hc : e.child? child = some c) (hown : readLabel text = .ok own) :
    bounds s name e path child (some text) = loosenedBounds s name path c own := by
  unfold bounds
  rw [hc]
  dsimp only
  rw [hown]

theorem loosenedBounds_eq_nil_iff :
    loosenedBounds s name path c own = [] ↔ within own ⟨c.minOccurs, c.maxOccurs⟩ = true := by
  rw [← (reports_loosenedBounds s name path c own).clean_iff, clean_loosenedBounds]

theorem loosenedBounds_placed (hd : d ∈ loosenedBounds s name path c own) :
    d = s.report .error "strictness.loosened-child-cardinality" path d.message := by
  have hreport : ∃ message,
      s.report .error "strictness.loosened-child-cardinality" path message = d := by
    unfold loosenedBounds at hd
    rcases List.mem_append.1 hd with hd | hd
    · split at hd
      · exact ⟨_, (List.mem_singleton.1 hd).symm⟩
      · cases hd
    · split at hd
      · cases hd
      · split at hd
        · exact ⟨_, (List.mem_singleton.1 hd).symm⟩
        · cases hd
  obtain ⟨message, rfl⟩ := hreport
  rw [report_message]

/-- What is found about bounds beside labels that cannot be read. -/
theorem exists_loosenedBounds_of_mem_bounds (hd : d ∈ bounds s name e path child label)
    (hid : d.ruleId = "strictness.loosened-child-cardinality") :
    ∃ text c own, label = some text ∧ e.child? child = some c ∧ readLabel text = .ok own ∧
      d ∈ loosenedBounds s name path c own := by
  unfold bounds at hd
  split at hd
  · next text c hc =>
      split at hd
      · rw [List.mem_singleton.1 hd, report_ruleId] at hid
        exact absurd hid (by decide)
      · next own hown => exact ⟨text, c, own, rfl, hc, hown, hd⟩
  · cases hd

theorem mem_cardinalities_iff_bounds : d ∈ cardinalities s name e rule ↔
    (∃ p ∈ rule.children.pairs, d ∈ bounds s name e (childPath name p.1) p.1 p.2) ∨
      ∃ p ∈ rule.alternatives.pairs, d ∈ bounds s name e (alternativePath name p.1) p.1 p.2 := by
  unfold cardinalities
  rw [List.mem_append, List.mem_flatMap, List.mem_flatMap]

theorem mem_cardinalities_of_labelled (hlisted : Labelled name rule path child text)
    (hd : d ∈ bounds s name e path child (some text)) : d ∈ cardinalities s name e rule := by
  rw [mem_cardinalities_iff_bounds]
  cases hlisted with
  | child h => exact .inl ⟨_, h, hd⟩
  | alternative h => exact .inr ⟨_, h, hd⟩

theorem exists_labelled_of_mem_cardinalities (hd : d ∈ cardinalities s name e rule)
    (hid : d.ruleId = "strictness.loosened-child-cardinality") :
    ∃ path child text c own, Labelled name rule path child text ∧ e.child? child = some c ∧
      readLabel text = .ok own ∧ d ∈ loosenedBounds s name path c own := by
  rcases mem_cardinalities_iff_bounds.1 hd with ⟨⟨child, label⟩, hp, hd⟩ | ⟨⟨child, label⟩, hp, hd⟩
  · obtain ⟨text, c, own, rfl, hrest⟩ := exists_loosenedBounds_of_mem_bounds hd hid
    exact ⟨_, child, text, c, own, .child hp, hrest⟩
  · obtain ⟨text, c, own, rfl, hrest⟩ := exists_loosenedBounds_of_mem_bounds hd hid
    exact ⟨_, child, text, c, own, .alternative hp, hrest⟩

theorem mem_entry_iff_cardinalities (he : s.grammar.element? name = some e)
    (hid : d.ruleId = "strictness.loosened-child-cardinality") :
    d ∈ entry s name rule ↔ d ∈ cardinalities s name e rule := by
  have hchildren := (reports_missingChildren s name rule).not_mem hid (by decide)
  have hattributes := (reports_missingAttributes s name rule).not_mem hid (by decide)
  have hloosened := (reports_loosenedAttributes s name rule e).not_mem hid (by decide)
  have hundeclared := (reports_undeclared s name rule).not_mem hid (by decide)
  unfold entry
  rw [he]
  simp [hchildren, hattributes, hloosened, hundeclared]

theorem mem_check_iff_cardinalities (hid : d.ruleId = "strictness.loosened-child-cardinality") :
    d ∈ check s ↔ ∃ name rule e, (name, rule) ∈ s.profile.elements.pairs ∧
      s.grammar.element? name = some e ∧ d ∈ cardinalities s name e rule := by
  have hchain : d ∉ s.profile.documentTypes.flatMap (missingChain s) := by
    intro hmem
    obtain ⟨dt, _, hmem⟩ := List.mem_flatMap.1 hmem
    exact (reports_missingChain s dt).not_mem hid (by decide) hmem
  unfold check
  rw [List.mem_append, or_iff_left hchain, List.mem_flatMap]
  constructor
  · rintro ⟨⟨name, rule⟩, hknown, hd⟩
    obtain ⟨hrule, hhas⟩ := List.mem_filter.1 hknown
    obtain ⟨e, he⟩ := Grammar.Model.hasElement_iff.1 hhas
    exact ⟨name, rule, e, hrule, he, (mem_entry_iff_cardinalities he hid).1 hd⟩
  · rintro ⟨name, rule, e, hrule, he, hd⟩
    exact ⟨(name, rule), List.mem_filter.2 ⟨hrule, Grammar.Model.hasElement_iff.2 ⟨e, he⟩⟩,
      (mem_entry_iff_cardinalities he hid).2 hd⟩

/-- No finding of the rule is lost to repetition. -/
theorem mem_validate_iff {settings : Settings}
    (hsettings : Category.strictness ∈ settings.categories)
    (hid : d.ruleId = "strictness.loosened-child-cardinality") :
    d ∈ validate settings s ↔ d ∈ check s := by
  refine mem_validate_iff_mem_check hsettings ?_ fun k hk hsame => ?_
  · unfold Diagnostic.category
    rw [hid]
    decide +kernel
  · have hk' := hsame.trans hid
    obtain ⟨_, _, _, _, _, hmem⟩ := (mem_check_iff_cardinalities hk').1 hk
    obtain ⟨path, _, _, _, _, _, _, _, hmem⟩ := exists_labelled_of_mem_cardinalities hmem hk'
    have hplaced := loosenedBounds_placed hmem
    have hpath : k.path = path := by rw [hplaced, report_path]
    rwa [hid, hpath]

end Strictness

/-- A label is reported as too loose exactly if it admits a number of occurrences that the grammar
does not admit at this place, that is if it is not within the bounds of the grammar. All that is
reported by this rule is about the labels of an entry, and stands at their paths. -/
theorem loosened_iff_admits_outside {s : Subject} {settings : Settings}
    {name path child text : String} {rule : ElementRule} {e : Element} {c : Child} {own : Occurs}
    (hsettings : Category.strictness ∈ settings.categories)
    (hrule : (name, rule) ∈ s.profile.elements.pairs) (he : s.grammar.element? name = some e)
    (hlisted : Labelled name rule path child text) (hc : e.child? child = some c)
    (hown : readLabel text = .ok own) :
    ((∃ d ∈ validate settings s, d ∈ Strictness.bounds s name e path child (some text) ∧
        d.ruleId = "strictness.loosened-child-cardinality" ∧ d.path = path) ↔
      ∃ k, own.Admits k ∧ ¬(Occurs.mk c.minOccurs c.maxOccurs).Admits k) ∧
    ((∃ k, own.Admits k ∧ ¬(Occurs.mk c.minOccurs c.maxOccurs).Admits k) ↔
      within own ⟨c.minOccurs, c.maxOccurs⟩ = false) ∧
    ∀ d ∈ validate settings s, d.ruleId = "strictness.loosened-child-cardinality" →
      ∃ name rule e child text, (name, rule) ∈ s.profile.elements.pairs ∧
        s.grammar.element? name = some e ∧ Labelled name rule d.path child text ∧
        d ∈ Strictness.bounds s name e d.path child (some text) := by
  have houtside : (∃ k, own.Admits k ∧ ¬(Occurs.mk c.minOccurs c.maxOccurs).Admits k) ↔
      within own ⟨c.minOccurs, c.maxOccurs⟩ = false := exists_outside_iff (ordered_of_readLabel hown)
  have hnone : Strictness.bounds s name e path child (some text) = [] ↔
      within own ⟨c.minOccurs, c.maxOccurs⟩ = true := by
    rw [Strictness.bounds_of_readLabel hc hown, Strictness.loosenedBounds_eq_nil_iff]
  refine ⟨?_, houtside, fun d hd hid => ?_⟩
  · rw [houtside, ← Bool.not_eq_true, ← hnone]
    constructor
    · rintro ⟨d, _, hd, _⟩
      exact List.ne_nil_of_mem hd
    · intro hfound
      obtain ⟨d, hd⟩ := List.exists_mem_of_ne_nil _ hfound
      have hbounds := hd
      rw [Strictness.bounds_of_readLabel hc hown] at hbounds
      have hplaced := Strictness.loosenedBounds_placed hbounds
      have hid : d.ruleId = "strictness.loosened-child-cardinality" := by
        rw [hplaced, report_ruleId]
      have hpath : d.path = path := by rw [hplaced, report_path]
      refine ⟨d, ?_, hd, hid, hpath⟩
      exact (Strictness.mem_validate_iff hsettings hid).2
        ((Strictness.mem_check_iff_cardinalities hid).2
          ⟨name, rule, e, hrule, he, Strictness.mem_cardinalities_of_labelled hlisted hd⟩)
  · obtain ⟨name, rule, e, hrule, he, hmem⟩ := (Strictness.mem_check_iff_cardinalities hid).1
      ((Strictness.mem_validate_iff hsettings hid).1 hd)
    obtain ⟨path, child, text, c, own, hlisted, hc, hown, hmem⟩ :=
      Strictness.exists_labelled_of_mem_cardinalities hmem hid
    have hpath : d.path = path := by rw [Strictness.loosenedBounds_placed hmem, report_path]
    subst hpath
    refine ⟨name, rule, e, child, text, hrule, he, hlisted, ?_⟩
    rwa [Strictness.bounds_of_readLabel hc hown]

def optionalCover : ElementRule :=
  { ElementRule.empty with children := .ofList [("cover", some "0..1")] }

/-- A cover that may be missing is reported where the grammar requires one. -/
theorem loosened_optionalCover :
    Category.strictness ∈ Settings.standard.categories ∧
    ("book", optionalCover) ∈ (bookOnly optionalCover).elements.pairs ∧
    readLabel "0..1" = .ok ⟨.zero, some .one⟩ ∧
    ∀ index, ∃ d ∈ validate .standard ⟨twinModel, bookOnly optionalCover, index⟩,
      d.ruleId = "strictness.loosened-child-cardinality" ∧
        d.path = "profile.elements.book.children.cover" := by
  have hsettings : Category.strictness ∈ Settings.standard.categories := by decide
  have hrule : ("book", optionalCover) ∈ (bookOnly optionalCover).elements.pairs :=
    List.mem_singleton.2 rfl
  have hlisted : Labelled "book" optionalCover (childPath "book" "cover") "cover" "0..1" :=
    .child (by decide +kernel)
  have hown : readLabel "0..1" = .ok ⟨.zero, some .one⟩ := by decide +kernel
  refine ⟨hsettings, hrule, hown, fun index => ?_⟩
  obtain ⟨hreported, _⟩ := loosened_iff_admits_outside
    (s := ⟨twinModel, bookOnly optionalCover, index⟩) hsettings hrule rfl hlisted rfl hown
  obtain ⟨d, hd, _, hid, hpath⟩ := hreported.2
    ⟨0, by simp [Occurs.Admits, Count.zero], by simp [Occurs.Admits, Count.one]⟩
  exact ⟨d, hd, hid, hpath.trans (by decide +kernel)⟩

end GrammarProfile.Validation
