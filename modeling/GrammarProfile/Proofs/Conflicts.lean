import GrammarProfile.Proofs.Categories

/-!
Conflicts between the branches of an exclusive choice. They are found by counting the branches that
hold some listed child, which is not the same as looking for a branch that holds all of them: where
branches share a child, one of them may hold all and still conflict with another.
-/
namespace GrammarProfile.Validation

open GrammarProfile.Grammar (Branch ChoiceGroup Count Element Model)
open GrammarProfile.Profile

/-- A branch has all those members of its group that an entry lists among its children. -/
def HoldsAll (rule : ElementRule) (g : ChoiceGroup) (b : Branch) : Prop :=
  ∀ c ∈ rule.children.keys, g.contains c = true → c ∈ b.elements

namespace Alternatives

variable {s : Subject} {name : String} {rule : ElementRule} {g : ChoiceGroup} {d : Diagnostic}

theorem groupConflicts_eq_nil_iff : groupConflicts s name rule g = [] ↔
    g.branches.Pairwise fun a b => ¬(Active rule a ∧ Active rule b) := by
  rw [← (reports_groupConflicts s name rule g).clean_iff, clean_groupConflicts]

theorem groupConflicts_placed (hd : d ∈ groupConflicts s name rule g) :
    d = s.report .error "choice.exclusive-branch-conflict" d.path d.message := by
  unfold groupConflicts at hd
  split at hd
  · exact absurd hd List.not_mem_nil
  · obtain ⟨⟨other, present⟩, _, rfl⟩ := List.mem_map.1 hd
    rw [report_path, report_message]

theorem mem_entry_iff_conflicts (hd : d.ruleId = "choice.exclusive-branch-conflict") :
    d ∈ entry s name rule ↔ s.grammar.hasElement name = true ∧ d ∈ conflicts s name rule := by
  have hempty := (reports_emptyGroups s name rule).not_mem hd (by decide)
  have hincomplete := (reports_incomplete s name rule).not_mem hd (by decide)
  have hmembers := (reports_invalidMembers s name rule).not_mem hd (by decide)
  have hoverlap := (reports_overlap s name rule).not_mem hd (by decide)
  unfold entry
  split
  · next h => simp [h, hempty, hincomplete, hmembers, hoverlap]
  · next h => simp [h, hincomplete, hoverlap]

theorem mem_check_iff_groupConflicts (hd : d.ruleId = "choice.exclusive-branch-conflict") :
    d ∈ check s ↔ ∃ name rule, (name, rule) ∈ s.profile.elements.pairs ∧
      s.grammar.hasElement name = true ∧ ∃ g ∈ s.grammar.choiceGroups name, g.exclusive = true ∧
        d ∈ groupConflicts s name rule g := by
  have hgroups : ∀ name rule, d ∈ conflicts s name rule ↔
      ∃ g ∈ s.grammar.choiceGroups name, g.exclusive = true ∧ d ∈ groupConflicts s name rule g := by
    intro name rule
    simp only [conflicts, List.mem_flatMap, List.mem_filter, and_assoc]
  unfold check
  rw [List.mem_flatMap]
  constructor
  · rintro ⟨⟨name, rule⟩, hrule, hmem⟩
    obtain ⟨hknown, hconflict⟩ := (mem_entry_iff_conflicts hd).1 hmem
    exact ⟨name, rule, hrule, hknown, (hgroups name rule).1 hconflict⟩
  · rintro ⟨name, rule, hrule, hknown, hconflict⟩
    exact ⟨(name, rule), hrule,
      (mem_entry_iff_conflicts hd).2 ⟨hknown, (hgroups name rule).2 hconflict⟩⟩

theorem active_of_mem {b : Branch} {c : String} (hc : c ∈ rule.children.keys)
    (hb : c ∈ b.elements) : Active rule b := ⟨c, hc, hb⟩

/-- Members that no branch holds together lie in two branches. -/
theorem groupConflicts_ne_nil (hbranches : g.branches ≠ [])
    (h : ∀ b ∈ g.branches, ¬HoldsAll rule g b) : groupConflicts s name rule g ≠ [] := by
  rw [Ne, groupConflicts_eq_nil_iff]
  intro hapart
  have hoften : ∀ b ∈ g.branches, ∃ other ∈ g.branches, Active rule other ∧ other ≠ b := by
    intro b hb
    have hsplit := h b hb
    unfold HoldsAll at hsplit
    push Not at hsplit
    obtain ⟨c, hc, hmember, hout⟩ := hsplit
    obtain ⟨other, hother, hin⟩ := ChoiceGroup.contains_iff.1 hmember
    exact ⟨other, hother, active_of_mem hc hin, fun heq => hout (heq ▸ hin)⟩
  obtain ⟨first, hfirst⟩ := List.exists_mem_of_ne_nil _ hbranches
  obtain ⟨a, ha, hactive, _⟩ := hoften first hfirst
  obtain ⟨b, hb, hactive', hne⟩ := hoften a ha
  have : Std.Symm fun x y : Branch => ¬(Active rule x ∧ Active rule y) :=
    ⟨fun _ _ hxy hyx => hxy hyx.symm⟩
  exact hapart.forall hb ha hne ⟨hactive', hactive⟩

/-- Beside a branch that holds all listed members, no other branch may hold any of them. -/
theorem groupConflicts_eq_nil_iff_of_holdsAll {i : Nat} (hi : i < g.branches.length)
    (h : HoldsAll rule g g.branches[i]) : groupConflicts s name rule g = [] ↔
      ∀ j, ∀ hj : j < g.branches.length, j ≠ i → ¬Active rule g.branches[j] := by
  rw [groupConflicts_eq_nil_iff, List.pairwise_iff_getElem]
  have hactive : ∀ j, ∀ hj : j < g.branches.length, Active rule g.branches[j] →
      Active rule g.branches[i] := by
    rintro j hj ⟨c, hc, hin⟩
    have hmember := ChoiceGroup.contains_iff.2 ⟨_, List.getElem_mem hj, hin⟩
    exact ⟨c, hc, h c hc hmember⟩
  constructor
  · intro hapart j hj hne hother
    rcases Nat.lt_or_gt_of_ne hne with hlt | hlt
    · exact hapart j i hj hi hlt ⟨hother, hactive j hj hother⟩
    · exact hapart i j hi hj hlt ⟨hactive j hj hother, hother⟩
  · rintro hothers j k hj hk hlt ⟨hactive, hactive'⟩
    by_cases hji : j = i
    · exact hothers k hk (by omega) hactive'
    · exact hothers j hj hji hactive

/-- No conflict is lost to repetition. -/
theorem mem_validate_iff {settings : Settings} (hsettings : Category.choice ∈ settings.categories)
    (hd : d.ruleId = "choice.exclusive-branch-conflict") :
    d ∈ validate settings s ↔ d ∈ check s := by
  refine mem_validate_iff_mem_check hsettings ?_ fun k hk hsame => ?_
  · unfold Diagnostic.category
    rw [hd]
    decide +kernel
  · obtain ⟨_, _, _, _, _, _, _, hconflict⟩ :=
      (mem_check_iff_groupConflicts (hsame.trans hd)).1 hk
    rw [hd]
    exact groupConflicts_placed hconflict

theorem mem_validate_of_groupConflicts {settings : Settings}
    (hsettings : Category.choice ∈ settings.categories)
    (hrule : (name, rule) ∈ s.profile.elements.pairs) (hg : g ∈ s.grammar.choiceGroups name)
    (hexclusive : g.exclusive = true) (hd : d ∈ groupConflicts s name rule g) :
    d ∈ validate settings s := by
  have hid := (reports_groupConflicts s name rule g d hd).2
  have hknown : s.grammar.hasElement name = true := by
    unfold Model.choiceGroups at hg
    split at hg
    · next e he => exact Model.hasElement_iff.2 ⟨e, he⟩
    · exact absurd hg List.not_mem_nil
  exact (mem_validate_iff hsettings hid).2 ((mem_check_iff_groupConflicts hid).2
    ⟨name, rule, hrule, hknown, g, hg, hexclusive, hd⟩)

end Alternatives

/-- What is reported about an exclusive group are conflicts between its branches that hold listed
children. There is one where no branch has all members that are listed; where a branch has them
all, there is none exactly if every other branch has none of them. -/
theorem conflict_iff_sharing {s : Subject} {settings : Settings} {name : String}
    {rule : ElementRule} {g : ChoiceGroup} (hsettings : Category.choice ∈ settings.categories)
    (hrule : (name, rule) ∈ s.profile.elements.pairs) (hg : g ∈ s.grammar.choiceGroups name)
    (hexclusive : g.exclusive = true) :
    (∀ d ∈ Alternatives.groupConflicts s name rule g, d ∈ validate settings s) ∧
    (∀ d ∈ validate settings s, d.ruleId = "choice.exclusive-branch-conflict" →
      ∃ name rule, (name, rule) ∈ s.profile.elements.pairs ∧ ∃ g ∈ s.grammar.choiceGroups name,
        g.exclusive = true ∧ d ∈ Alternatives.groupConflicts s name rule g) ∧
    (g.branches ≠ [] → (∀ b ∈ g.branches, ¬HoldsAll rule g b) →
      Alternatives.groupConflicts s name rule g ≠ []) ∧
    ∀ i, ∀ hi : i < g.branches.length, HoldsAll rule g g.branches[i] →
      (Alternatives.groupConflicts s name rule g = [] ↔
        ∀ j, ∀ hj : j < g.branches.length, j ≠ i →
          ∀ c ∈ rule.children.keys, c ∉ g.branches[j].elements) := by
  refine ⟨fun d => Alternatives.mem_validate_of_groupConflicts hsettings hrule hg hexclusive,
    fun d hd hid => ?_, Alternatives.groupConflicts_ne_nil, fun i hi hall => ?_⟩
  · obtain ⟨name, rule, hrule, _, g, hg⟩ :=
      (Alternatives.mem_check_iff_groupConflicts hid).1
        ((Alternatives.mem_validate_iff hsettings hid).1 hd)
    exact ⟨name, rule, hrule, g, hg⟩
  · rw [Alternatives.groupConflicts_eq_nil_iff_of_holdsAll hi hall]
    simp only [Active, not_exists, not_and]

/-- A cover with a text, or a cover with a list. -/
def twinGroup : ChoiceGroup where
  groupId := "book:choice_0"
  minOccurs := Count.one
  maxOccurs := some Count.one
  branches := [⟨"branch_0", some "cover + text", ["cover", "text"]⟩,
    ⟨"branch_1", some "cover + list", ["cover", "list"]⟩]

def twinModel : Model where
  elements := ⟨[
    ("book", ⟨"book", "Book", none, [], [⟨"cover", .one, some .one, ["book:choice_0"]⟩,
      ⟨"text", .zero, some .one, ["book:choice_0"]⟩,
      ⟨"list", .zero, some .one, ["book:choice_0"]⟩], [], [twinGroup], ""⟩),
    ("cover", ⟨"cover", "Cover", none, [], [], [], [], ""⟩),
    ("list", ⟨"list", "List", none, [], [], [], [], ""⟩),
    ("text", ⟨"text", "Text", none, [], [], [], [], ""⟩)], by decide⟩
  enums := ∅
  root := some "book"

/-- A profile with an entry for books. -/
def bookOnly (rule : ElementRule) : Restriction :=
  { Restriction.empty with elements := ⟨[("book", rule)], List.nodup_singleton _⟩ }

def textAndList : ElementRule :=
  { ElementRule.empty with children := .ofList [("text", none), ("list", none)] }

def coverAndText : ElementRule :=
  { ElementRule.empty with children := .ofList [("cover", none), ("text", none)] }

theorem conflict_textAndList : Category.choice ∈ Settings.standard.categories ∧
    ("book", textAndList) ∈ (bookOnly textAndList).elements.pairs ∧
    twinGroup ∈ twinModel.choiceGroups "book" ∧ twinGroup.exclusive = true ∧
    (∀ b ∈ twinGroup.branches, ¬HoldsAll textAndList twinGroup b) ∧
    ∃ d ∈ validate .standard ⟨twinModel, bookOnly textAndList, ∅⟩,
      d ∈ Alternatives.groupConflicts ⟨twinModel, bookOnly textAndList, ∅⟩ "book" textAndList
        twinGroup := by
  have hsettings : Category.choice ∈ Settings.standard.categories := by decide
  have hrule : ("book", textAndList) ∈ (bookOnly textAndList).elements.pairs :=
    List.mem_singleton.2 rfl
  have hgroup : twinGroup ∈ twinModel.choiceGroups "book" := by decide
  have hexclusive : twinGroup.exclusive = true := by decide
  have hsplit : ∀ b ∈ twinGroup.branches, ¬HoldsAll textAndList twinGroup b := by
    unfold HoldsAll
    decide
  obtain ⟨hreported, _, hconflict, _⟩ :=
    conflict_iff_sharing (s := ⟨twinModel, bookOnly textAndList, ∅⟩) hsettings hrule hgroup
      hexclusive
  obtain ⟨d, hd⟩ := List.exists_mem_of_ne_nil _ (hconflict (by decide) hsplit)
  exact ⟨hsettings, hrule, hgroup, hexclusive, hsplit, d, hreported d hd, hd⟩

/-- A cover with its text is reported, though one branch has both. -/
theorem coverAndText_conflicts : twinGroup ∈ twinModel.choiceGroups "book" ∧
    twinGroup.exclusive = true ∧ (∃ b ∈ twinGroup.branches, HoldsAll coverAndText twinGroup b) ∧
    ∀ index, ∃ d ∈ validate .standard ⟨twinModel, bookOnly coverAndText, index⟩,
      d.ruleId = "choice.exclusive-branch-conflict" ∧
        d ∈ Alternatives.groupConflicts ⟨twinModel, bookOnly coverAndText, index⟩ "book"
          coverAndText twinGroup := by
  have hshared : ¬twinGroup.branches.Pairwise fun a b =>
      ¬(Active coverAndText a ∧ Active coverAndText b) := by
    unfold Active
    decide
  refine ⟨by decide, by decide, ⟨_, List.mem_cons_self, ?_⟩, fun index => ?_⟩
  · unfold HoldsAll
    decide
  · obtain ⟨d, hd⟩ := List.exists_mem_of_ne_nil
      (Alternatives.groupConflicts ⟨twinModel, bookOnly coverAndText, index⟩ "book" coverAndText
        twinGroup) fun hnil => hshared (Alternatives.groupConflicts_eq_nil_iff.1 hnil)
    have hgroup : twinGroup ∈ twinModel.choiceGroups "book" ∧ twinGroup.exclusive = true := by
      decide
    exact ⟨d, Alternatives.mem_validate_of_groupConflicts (by decide) (List.mem_singleton.2 rfl)
      hgroup.1 hgroup.2 hd, (Alternatives.reports_groupConflicts _ _ _ _ d hd).2, hd⟩

end GrammarProfile.Validation
