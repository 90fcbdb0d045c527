import GrammarProfile.Proofs.Categories
import GrammarProfile.Proofs.Scaffold
import GrammarProfile.Proofs.WellFormed

/-!
The choices of scaffolds that list optional children. Each child is either always present or an
alternative, and this split meets what validation asks of choices where the branches of an exclusive
choice have no member in common.
-/
namespace GrammarProfile.Cascade

open GrammarProfile.Grammar (Branch Child ChoiceGroup Element Model Regular)
open GrammarProfile.Profile
open GrammarProfile.Validation

/-- No member of an exclusive choice of a grammar belongs to two of its branches. -/
def DisjointBranches (m : Model) : Prop :=
  ∀ e ∈ m.elements.values, ∀ g ∈ e.choiceGroups, g.exclusive = true →
    g.branches.Pairwise fun a b => ∀ c ∈ a.elements, c ∉ b.elements

theorem mem_exclusiveNames {e : Element} {c : String} : c ∈ exclusiveNames e ↔
    ∃ g ∈ e.choiceGroups, g.exclusive = true ∧ 2 ≤ g.allElements.length ∧ c ∈ g.allElements := by
  simp [exclusiveNames, and_assoc]

/-- The names that are listed of those children whose name is of one kind. -/
theorem mem_keys_labelled {children : List Child} (h : (children.map Child.name).Nodup)
    (p : String → Bool) {c : String} :
    c ∈ (OrderedMap.ofList ((children.filter fun d => p d.name).map fun d =>
        (d.name, some d.cardinality))).keys ↔ c ∈ children.map Child.name ∧ p c = true := by
  have hnodup : ((children.filter fun d => p d.name).map Child.name).Nodup :=
    h.sublist (List.filter_sublist.map _)
  rw [OrderedMap.keys, OrderedMap.pairs_ofList_map hnodup]
  simp only [List.mem_map, List.mem_filter, exists_exists_and_eq_and]
  constructor
  · rintro ⟨d, ⟨hd, hp⟩, rfl⟩
    exact ⟨⟨d, hd, rfl⟩, hp⟩
  · rintro ⟨⟨d, hd, rfl⟩, hp⟩
    exact ⟨d, ⟨hd, hp⟩, rfl⟩

/-! ## The split of the children -/

section Rule

variable {o : ScaffoldOptions} {e : Element} {c : String} (hoptional : o.optionalChildren = true)
  (hnames : (e.children.map Child.name).Nodup)

include hoptional hnames

theorem mem_children_scaffoldRule : c ∈ (scaffoldRule o e).children.keys ↔
    c ∈ e.children.map Child.name ∧ c ∉ exclusiveNames e := by
  have hkeys := mem_keys_labelled hnames (fun n => !(exclusiveNames e).contains n) (c := c)
  rw [Bool.not_eq_true', ← Bool.not_eq_true, List.contains_iff_mem] at hkeys
  unfold scaffoldRule
  rw [hoptional]
  exact hkeys

theorem mem_alternatives_scaffoldRule : c ∈ (scaffoldRule o e).alternatives.keys ↔
    c ∈ e.children.map Child.name ∧ c ∈ exclusiveNames e := by
  have hkeys := mem_keys_labelled hnames (fun n => (exclusiveNames e).contains n) (c := c)
  rw [List.contains_iff_mem] at hkeys
  unfold scaffoldRule
  rw [hoptional]
  exact hkeys

/-- Nothing is lost by the split. -/
theorem mem_childNames_scaffoldRule : c ∈ (scaffoldRule o e).childNames ↔
    c ∈ e.children.map Child.name := by
  rw [ElementRule.childNames, List.mem_append, mem_children_scaffoldRule hoptional hnames,
    mem_alternatives_scaffoldRule hoptional hnames, ← and_or_left]
  exact and_iff_left (Decidable.not_or_self _)

omit hnames in
theorem declaresChoice_scaffoldRule : (scaffoldRule o e).declaresChoice =
    !(scaffoldRule o e).alternatives.isEmpty := by
  unfold scaffoldRule
  rw [hoptional]
  rfl

variable (hgroups : ∀ g ∈ e.choiceGroups,
  g.WellFormed ∧ ∀ c ∈ g.allElements, c ∈ e.children.map Child.name)

include hgroups

/-- All members of the group of an alternative are alternatives, so there is never just one. -/
theorem two_le_alternatives (hchoice : (scaffoldRule o e).declaresChoice = true) :
    2 ≤ (scaffoldRule o e).alternatives.size := by
  rw [declaresChoice_scaffoldRule hoptional, Bool.not_eq_true'] at hchoice
  obtain ⟨⟨c, label⟩, hc⟩ := List.exists_mem_of_ne_nil _ (List.isEmpty_eq_false_iff.1 hchoice)
  obtain ⟨_, hexclusive⟩ := (mem_alternatives_scaffoldRule hoptional hnames).1
    (OrderedMap.mem_keys_of_mem hc)
  obtain ⟨g, hg, hsingle, htwo, _⟩ := mem_exclusiveNames.1 hexclusive
  have hmembers : g.allElements ⊆ (scaffoldRule o e).alternatives.keys := fun n hn =>
    (mem_alternatives_scaffoldRule hoptional hnames).2
      ⟨(hgroups g hg).2 n hn, mem_exclusiveNames.2 ⟨g, hg, hsingle, htwo, hn⟩⟩
  have hlength := ((Text.nodup_nameSet _).subperm hmembers).length_le
  rw [OrderedMap.keys, List.length_map] at hlength
  exact htwo.trans hlength

/-- A group has a member among the children that are listed. -/
theorem exists_listed_member {g : ChoiceGroup} (hg : g ∈ e.choiceGroups) :
    ∃ c ∈ (scaffoldRule o e).childNames, ∃ b ∈ g.branches, c ∈ b.elements := by
  obtain ⟨hwell, hinside⟩ := hgroups g hg
  obtain ⟨b, hb⟩ := List.exists_mem_of_ne_nil _ hwell.branches
  obtain ⟨c, hc⟩ := List.exists_mem_of_ne_nil _ (hwell.members b hb)
  have hmember := hinside c ((hwell.union c).2 ⟨b, hb, hc⟩)
  exact ⟨c, (mem_childNames_scaffoldRule hoptional hnames).2 hmember, b, hb, hc⟩

/-- Of an exclusive group at most one branch has children that are always present: with two members
all of them are alternatives, and a single one belongs to one branch. -/
theorem apart_scaffoldRule {g : ChoiceGroup} (hg : g ∈ e.choiceGroups)
    (hexclusive : g.exclusive = true)
    (hdisjoint : g.branches.Pairwise fun a b => ∀ c ∈ a.elements, c ∉ b.elements) :
    g.branches.Pairwise fun a b =>
      ¬(Active (scaffoldRule o e) a ∧ Active (scaffoldRule o e) b) := by
  refine hdisjoint.imp_of_mem fun {a b} ha hb hapart => ?_
  rintro ⟨⟨c, hc, hca⟩, ⟨d, hd, hdb⟩⟩
  have hc := ((mem_children_scaffoldRule hoptional hnames).1 hc).2
  have hcg := ((hgroups g hg).1.union c).2 ⟨a, ha, hca⟩
  have hdg := ((hgroups g hg).1.union d).2 ⟨b, hb, hdb⟩
  have hne : c ≠ d := fun heq => hapart c hca (heq ▸ hdb)
  have htwo : 2 ≤ g.allElements.length := by
    have hpair : [c, d].Nodup := by simp [hne]
    exact (hpair.subperm (List.cons_subset.2 ⟨hcg, List.cons_subset.2
      ⟨hdg, List.nil_subset _⟩⟩)).length_le
  exact hc (mem_exclusiveNames.2 ⟨g, hg, hexclusive, htwo, hcg⟩)

/-- In the rule of an element with disjoint branches no check of choices finds anything. -/
theorem clean_entry_scaffoldRule {s : Subject} {n : String} (he : s.grammar.element? n = some e)
    (hdisjoint : ∀ g ∈ e.choiceGroups, g.exclusive = true →
      g.branches.Pairwise fun a b => ∀ c ∈ a.elements, c ∉ b.elements) :
    Clean (Alternatives.entry s n (scaffoldRule o e)) := by
  rw [clean_alternatives he, Alternatives.clean_emptyGroups, Alternatives.clean_incomplete,
    Alternatives.clean_conflicts, Alternatives.clean_invalidMembers, Alternatives.clean_overlap,
    choiceGroups_eq he, Model.childNames, Model.children_eq he]
  refine ⟨⟨⟨⟨fun g hg _ => exists_listed_member hoptional hnames hgroups hg,
    two_le_alternatives hoptional hnames hgroups⟩, fun g hg hmax => ?_⟩, fun c hc => ?_⟩,
    fun c hc hchild => ?_⟩
  · have hexclusive : g.exclusive = true := beq_iff_eq.2 hmax
    exact apart_scaffoldRule hoptional hnames hgroups hg hexclusive (hdisjoint g hg hexclusive)
  · exact ((mem_alternatives_scaffoldRule hoptional hnames).1 hc).1
  · exact ((mem_children_scaffoldRule hoptional hnames).1 hchild).2
      ((mem_alternatives_scaffoldRule hoptional hnames).1 hc).2

end Rule

/-! ## The scaffold as a whole -/

/-- All that is found about choices are errors. -/
theorem not_mem_entry_of_clean {s : Subject} {n : String} {rule : ElementRule} {d : Diagnostic}
    (hmem : (n, rule) ∈ s.profile.elements.pairs) (h : Clean (Alternatives.entry s n rule)) :
    d ∉ Alternatives.entry s n rule := by
  intro hd
  have herrors : ∀ r ∈ Category.choice.rules, r.2 = Severity.error := by decide
  have hlisted := Alternatives.listed_check s d (List.mem_flatMap.2 ⟨(n, rule), hmem, hd⟩)
  exact h d hd (herrors _ hlisted)

/-- With disjoint branches, whatever is found about choices in a scaffold that lists optional
children is found in the entry of the root. -/
theorem scaffold_choices_in_root {root? : Option String} {text dt : String} {m : Model}
    {o : ScaffoldOptions} (hload : Model.load root? text = .ok m) (hdisjoint : DisjointBranches m)
    (hdt : dt ∈ m.documentTypes) (hoptional : o.optionalChildren = true) :
    ∃ r, scaffold m o dt = .ok r ∧ ∀ index,
      (∀ n rule, (n, rule) ∈ r.elements.pairs → m.root ≠ some n →
        Alternatives.entry ⟨m, r, index⟩ n rule = []) ∧
      ∀ settings, ∀ d ∈ validate settings ⟨m, r, index⟩, d.category = Category.choice.name →
        ∃ root rule, m.root = some root ∧ (root, rule) ∈ r.elements.pairs ∧
          d ∈ Alternatives.entry ⟨m, r, index⟩ root rule := by
  have hregular := Model.regular_of_load hload
  obtain ⟨root, e, hroot, he, hname⟩ := exists_root_element hregular hdt
  refine ⟨_, scaffold_eq_outline o hdt, fun index => ?_⟩
  have hentry : ∀ n rule, (n, rule) ∈ (ordered m (outline m o dt)).elements.pairs →
      m.root ≠ some n → Alternatives.entry ⟨m, ordered m (outline m o dt), index⟩ n rule = [] := by
    intro n rule hmem hn
    rcases scaffoldElements_cases hroot he hname (mem_ordered.1 hmem) with
      ⟨rfl, _⟩ | ⟨_, d, hd, rfl⟩
    · exact absurd hroot hn
    · have hvalues := OrderedMap.mem_values_of_get? hd
      obtain ⟨_, hsound⟩ := Model.sound_of_load hload hd
      have hclean : Clean (Alternatives.entry ⟨m, ordered m (outline m o dt), index⟩ n
          (scaffoldRule o d)) :=
        clean_entry_scaffoldRule hoptional
          (hregular _ (OrderedMap.get?_eq_some_iff.1 hd)).children hsound.groups hd
          (hdisjoint d hvalues)
      exact List.eq_nil_iff_forall_not_mem.2 fun k => not_mem_entry_of_clean hmem hclean
  refine ⟨hentry, fun settings d hd hcategory => ?_⟩
  obtain ⟨_, c, _, hfound⟩ := mem_validate hd
  have hchoice : c = .choice :=
    Category.name_injective (((listed_check c _).category hfound).symm.trans hcategory)
  subst hchoice
  obtain ⟨⟨n, rule⟩, hmem, hfound⟩ := List.mem_flatMap.1 hfound
  by_cases hn : m.root = some n
  · exact ⟨n, rule, hn, hmem, hfound⟩
  · have hfound' : d ∈ Alternatives.entry ⟨m, ordered m (outline m o dt), index⟩ n rule := hfound
    rw [hentry n rule hmem hn] at hfound'
    exact absurd hfound' List.not_mem_nil

/-- Desks with a drawer for either ink or a pen. -/
def deskSchema : String :=
  "<xs:schema xmlns:xs='http://www.w3.org/2001/XMLSchema'>
  <xs:element name='desk'><xs:complexType><xs:sequence>
    <xs:element ref='drawer'/>
  </xs:sequence></xs:complexType></xs:element>
  <xs:element name='drawer'><xs:complexType><xs:choice>
    <xs:element ref='ink'/>
    <xs:element ref='pen'/>
  </xs:choice></xs:complexType></xs:element>
  <xs:element name='ink'/>
  <xs:element name='pen'/>
</xs:schema>"

def deskModel : Model where
  elements := ⟨[
    ("desk", plainElement "desk" "Desk" [⟨"drawer", .one, some .one, []⟩]),
    ("drawer", ⟨"drawer", "Drawer", none, [], [⟨"ink", .zero, some .one, ["drawer:choice_0"]⟩,
        ⟨"pen", .zero, some .one, ["drawer:choice_0"]⟩], [],
      [⟨"drawer:choice_0", .one, some .one,
        [⟨"branch_0", some "ink", ["ink"]⟩, ⟨"branch_1", some "pen", ["pen"]⟩]⟩], ""⟩),
    ("ink", plainElement "ink" "Ink" []),
    ("pen", plainElement "pen" "Pen" [])], by decide⟩
  enums := ∅
  root := some "desk"

set_option maxRecDepth 10000 in
theorem load_deskSchema : Model.load none deskSchema = .ok deskModel := by
  obtain ⟨cs, hcs, hm⟩ : ∃ cs, deskSchema = String.ofList cs ∧
      Model.unsorted? cs = some deskModel := ⟨_, rfl, by decide +kernel⟩
  rw [hcs]
  exact Model.load_eq_ok hm (by decide) List.Pairwise.nil

/-- Ink and pen are listed as alternatives, and no choice is reported. -/
theorem scaffold_choices_deskSchema : Model.load none deskSchema = .ok deskModel ∧
    DisjointBranches deskModel ∧ "drawer" ∈ deskModel.documentTypes ∧
    ∃ r, scaffold deskModel ⟨true, true, true⟩ "drawer" = .ok r ∧
      ∀ index, ∀ rule, ("drawer", rule) ∈ r.elements.pairs →
        Alternatives.entry ⟨deskModel, r, index⟩ "drawer" rule = [] := by
  have hdisjoint : DisjointBranches deskModel := by
    unfold DisjointBranches
    decide
  have hdt : "drawer" ∈ deskModel.documentTypes := by decide
  obtain ⟨r, hr, hentries⟩ := scaffold_choices_in_root (o := ⟨true, true, true⟩) load_deskSchema
    hdisjoint hdt rfl
  exact ⟨load_deskSchema, hdisjoint, hdt, r, hr, fun index rule hmem =>
    (hentries index).1 "drawer" rule hmem (by decide)⟩

end GrammarProfile.Cascade
