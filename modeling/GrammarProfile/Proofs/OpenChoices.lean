import GrammarProfile.Proofs.Growth

/-!
Profiles about which validation finds nothing but that choices are still open.
-/
namespace GrammarProfile.Validation

open GrammarProfile.Grammar (Attribute Child Count Element Model)
open GrammarProfile.Profile

/-- The rule that asks for a member of a choice. -/
def openChoice : String := "choice.required-group-empty"

/-- All that is found is that choices are open. -/
def OnlyOpen (found : List Diagnostic) : Prop := ∀ d ∈ found, d.ruleId = openChoice

/-! ## Lists of findings -/

@[simp] theorem onlyOpen_nil : OnlyOpen [] := fun _ hd => absurd hd List.not_mem_nil

@[simp] theorem onlyOpen_append {a b : List Diagnostic} :
    OnlyOpen (a ++ b) ↔ OnlyOpen a ∧ OnlyOpen b := List.forall_mem_append

@[simp] theorem onlyOpen_flatMap {α : Type} {items : List α} {f : α → List Diagnostic} :
    OnlyOpen (items.flatMap f) ↔ ∀ x ∈ items, OnlyOpen (f x) := by
  simp only [OnlyOpen, List.mem_flatMap]
  constructor
  · intro h x hx d hd
    exact h d ⟨x, hx, hd⟩
  · rintro h d ⟨x, hx, hd⟩
    exact h x hx d hd

theorem Reports.onlyOpen_iff {severity : Severity} {rule : String} {found : List Diagnostic}
    (h : Reports severity rule found) (hrule : rule ≠ openChoice) :
    OnlyOpen found ↔ found = [] := by
  constructor
  · intro hopen
    refine List.eq_nil_iff_forall_not_mem.2 fun d hd => hrule ?_
    rw [← (h d hd).2, hopen d hd]
  · rintro rfl
    exact onlyOpen_nil

/-- Other errors leave none open exactly if there are none. -/
theorem Reports.onlyOpen_iff_clean {rule : String} {found : List Diagnostic}
    (h : Reports .error rule found) (hrule : rule ≠ openChoice) :
    OnlyOpen found ↔ Clean found := (h.onlyOpen_iff hrule).trans h.clean_iff.symm

theorem onlyOpen_validate (s : Subject) :
    OnlyOpen (validate .standard s) ↔ ∀ c : Category, OnlyOpen (c.check s) := by
  constructor
  · intro h c d hd
    obtain ⟨k, hk, -, hrule, -⟩ := exists_mem_validate hd
    rw [← hrule, h k hk]
  · intro h d hd
    rw [validate_standard] at hd
    obtain ⟨c, -, hc⟩ := List.mem_flatMap.1 (dropRepeats_subset _ _ hd)
    exact h c d hc

/-! ## Entries that list what the grammar knows -/

/-- An entry with attributes and children only: its attributes are those of the element, the
required ones among them, its children are children of the element and have entries. -/
structure Faithful (s : Subject) (e : Element) (rule : ElementRule) : Prop where
  alternatives : rule.alternatives = ∅
  parts : rule.parts = []
  choice : rule.declaresChoice = false
  attributes : ∀ a r, (a, r) ∈ rule.attributes.pairs → ∃ d, e.attribute? a = some d ∧
    AttributeConforms d r ∧ (d.enumValues = none → r.values = [])
  required : ∀ a ∈ e.attributes, a.required = true → a.name ∈ rule.attributes.keys
  children : ∀ c ∈ rule.children.keys, (∃ d, e.child? c = some d) ∧
    s.grammar.hasElement c = true ∧ c ∈ s.profile.elements.keys

/-- What is left to ask of such an entry: all required children where any are listed, bounds
within those of the grammar, and no two branches of an exclusive choice. -/
structure Settled (m : Model) (name : String) (e : Element) (rule : ElementRule) : Prop where
  complete : rule.children.keys = [] ∨ ∀ c, m.Requires name c → c ∈ rule.children.keys
  bounds : ∀ c label, (c, label) ∈ rule.children.pairs → ∀ d, e.child? c = some d →
    LabelConforms d label
  exclusive : ∀ g ∈ e.choiceGroups, g.maxOccurs = some Count.one →
    g.branches.Pairwise fun a b => ¬(Active rule a ∧ Active rule b)

section Entry

variable {s : Subject} {name : String} {e : Element} {rule : ElementRule}

theorem Faithful.no_alternatives (h : Faithful s e rule) (c : String) :
    c ∉ rule.alternatives.keys := by
  rw [h.alternatives]
  exact List.not_mem_nil

theorem Faithful.onlyOpen_vocabulary (he : s.grammar.element? name = some e)
    (h : Faithful s e rule) : OnlyOpen (Vocabulary.entry s name rule) := by
  unfold Vocabulary.entry
  simp only [he]
  rw [onlyOpen_append, (Vocabulary.reports_attributes s name rule e).onlyOpen_iff_clean (by decide),
    (Vocabulary.reports_unknown s _).onlyOpen_iff_clean (by decide), ← clean_append]
  have hclean := (Vocabulary.clean_entry s name rule he).2 ⟨?_, ?_, ?_, ?_⟩
  · unfold Vocabulary.entry at hclean
    simpa only [he] using hclean
  · intro a ha
    obtain ⟨r, hr⟩ := OrderedMap.exists_of_mem_keys ha
    obtain ⟨d, hd, -⟩ := h.attributes a r hr
    exact ⟨d, hd⟩
  · exact fun c hc => (h.children c hc).2.1
  · exact fun c hc => absurd hc (h.no_alternatives c)
  · rw [h.parts]
    exact fun c hc => absurd hc List.not_mem_nil

theorem Faithful.onlyOpen_containment (he : s.grammar.element? name = some e)
    (h : Faithful s e rule) : OnlyOpen (Containment.children s name rule ++
      Containment.firstPart s name rule ++ Containment.chain s name rule) := by
  rw [onlyOpen_append, onlyOpen_append,
    (Containment.reports_children s name rule).onlyOpen_iff_clean (by decide),
    (Containment.reports_firstPart s name rule).onlyOpen_iff_clean (by decide),
    (Containment.reports_chain s name rule).onlyOpen_iff_clean (by decide),
    Containment.clean_children, Containment.clean_firstPart, Containment.clean_chain, h.parts]
  refine ⟨⟨fun c hc _ => (mem_childNames name he).2 (h.children c hc).1, ?_⟩, ?_⟩
  · simp
  · simp

theorem Faithful.onlyOpen_datatype (he : s.grammar.element? name = some e)
    (h : Faithful s e rule) {a : String} {r : AttributeRule} (ha : (a, r) ∈ rule.attributes.pairs) :
    OnlyOpen (match Datatype.declared? s name a with
      | some d =>
        if r.values.isEmpty then []
        else Datatype.enumeration s name d r ++ Datatype.pattern s name d r
      | none => []) := by
  obtain ⟨d, hd, hconforms, hfree⟩ := h.attributes a r ha
  rw [declared?_eq he, hd]
  dsimp only
  split
  · exact onlyOpen_nil
  · next hvalues =>
    rw [onlyOpen_append, (Datatype.reports_pattern s name d r).onlyOpen_iff_clean (by decide),
      Datatype.clean_pattern]
    refine ⟨?_, hconforms.pattern⟩
    cases hallowed : d.enumValues with
    | none =>
        rw [hfree hallowed] at hvalues
        exact absurd rfl hvalues
    | some allowed =>
        rw [(Datatype.reports_enumeration_of_some s name d r hallowed).onlyOpen_iff_clean
          (by decide), Datatype.clean_enumeration]
        exact hconforms.enumeration

theorem Faithful.onlyOpen_alternatives (he : s.grammar.element? name = some e)
    (h : Faithful s e rule) : OnlyOpen (Alternatives.entry s name rule) ↔
      ∀ g ∈ e.choiceGroups, g.maxOccurs = some Count.one →
        g.branches.Pairwise fun a b => ¬(Active rule a ∧ Active rule b) := by
  have hgroups : OnlyOpen (Alternatives.emptyGroups s name rule) := fun d hd =>
    (Alternatives.reports_emptyGroups s name rule d hd).2
  have hincomplete : OnlyOpen (Alternatives.incomplete s name rule) := by
    rw [(Alternatives.reports_incomplete s name rule).onlyOpen_iff_clean (by decide),
      Alternatives.clean_incomplete, h.choice]
    exact nofun
  have hmembers : OnlyOpen (Alternatives.invalidMembers s name rule) := by
    rw [(Alternatives.reports_invalidMembers s name rule).onlyOpen_iff_clean (by decide),
      Alternatives.clean_invalidMembers]
    exact fun c hc => absurd hc (h.no_alternatives c)
  have hoverlap : OnlyOpen (Alternatives.overlap s name rule) := by
    rw [(Alternatives.reports_overlap s name rule).onlyOpen_iff_clean (by decide),
      Alternatives.clean_overlap]
    exact fun c hc => absurd hc (h.no_alternatives c)
  have hconflicts : OnlyOpen (Alternatives.conflicts s name rule) ↔
      Clean (Alternatives.conflicts s name rule) := by
    rw [Alternatives.conflicts, onlyOpen_flatMap, clean_flatMap]
    refine forall_congr' fun g => imp_congr_right fun _ => ?_
    exact (Alternatives.reports_groupConflicts s name rule g).onlyOpen_iff_clean (by decide)
  unfold Alternatives.entry
  rw [if_pos (Model.hasElement_iff.2 ⟨e, he⟩)]
  simp only [onlyOpen_append, hgroups, hincomplete, hmembers, hoverlap, true_and, and_true,
    hconflicts]
  rw [Alternatives.clean_conflicts, choiceGroups_eq he]

theorem missingChildren_eq_nil : Strictness.missingChildren s name rule = [] ↔
    (rule.children.keys = [] ∨ ∀ c, s.grammar.Requires name c → c ∈ rule.children.keys) := by
  have hempty : rule.children.isEmpty = true ↔ rule.children.keys = [] := by
    simp [OrderedMap.isEmpty, OrderedMap.keys]
  unfold Strictness.missingChildren
  split
  · next h => exact iff_of_true rfl (.inl (hempty.1 h))
  · next h =>
    rw [or_iff_right (mt hempty.2 h), List.map_eq_nil_iff, List.eq_nil_iff_forall_not_mem]
    simp [Strictness.inOrder, Model.mem_requiredChildNames, OrderedMap.contains_iff]

theorem Faithful.missingAttributes_eq_nil (he : s.grammar.element? name = some e)
    (h : Faithful s e rule) : Strictness.missingAttributes s name rule = [] := by
  unfold Strictness.missingAttributes
  split
  · rfl
  · rw [List.map_eq_nil_iff, List.eq_nil_iff_forall_not_mem]
    intro a ha
    simp only [Strictness.inOrder, List.mem_mergeSort, List.mem_filter, List.mem_map,
      Model.requiredAttributes, Model.attributes, he, Bool.not_eq_true'] at ha
    obtain ⟨⟨d, ⟨hd, hrequired⟩, rfl⟩, hmissing⟩ := ha
    rw [OrderedMap.contains_iff.2 (h.required d hd hrequired)] at hmissing
    exact absurd hmissing (by decide)

theorem Faithful.undeclared_eq_nil (h : Faithful s e rule) :
    Strictness.undeclared s name rule = [] := by
  have hnone : (Vocabulary.references name rule).filter (fun r =>
      s.grammar.hasElement r.1 && !s.declares r.1) = [] := by
    rw [List.filter_eq_nil_iff]
    refine (Vocabulary.forall_references name rule (p := fun n =>
      ¬(s.grammar.hasElement n && !s.declares n) = true)).2 ⟨?_, ?_, ?_⟩
    · intro c hc
      simp [Subject.declares, OrderedMap.contains_iff.2 (h.children c hc).2.2]
    · exact fun c hc => absurd hc (h.no_alternatives c)
    · rw [h.parts]
      exact fun c hc => absurd hc List.not_mem_nil
  rw [Strictness.undeclared, hnone]
  rfl

theorem onlyOpen_bounds (path child : String) (label : Option String) :
    OnlyOpen (Strictness.bounds s name e path child label) ↔
      Clean (Strictness.bounds s name e path child label) := by
  unfold Strictness.bounds
  split
  · split
    · exact (reports_singleton (report_severity ..) (report_ruleId ..)).onlyOpen_iff_clean
        (by decide)
    · exact (Strictness.reports_loosenedBounds s name path _ _).onlyOpen_iff_clean (by decide)
  · exact iff_of_true onlyOpen_nil clean_nil

theorem Faithful.onlyOpen_strictness (he : s.grammar.element? name = some e)
    (h : Faithful s e rule) : OnlyOpen (Strictness.entry s name rule) ↔
      (rule.children.keys = [] ∨ ∀ c, s.grammar.Requires name c → c ∈ rule.children.keys) ∧
        ∀ c label, (c, label) ∈ rule.children.pairs → ∀ d, e.child? c = some d →
          LabelConforms d label := by
  have hattributes : OnlyOpen (Strictness.loosenedAttributes s name e rule) := by
    rw [(Strictness.reports_loosenedAttributes s name rule e).onlyOpen_iff_clean (by decide),
      Strictness.clean_loosenedAttributes]
    intro a r ha d hd hrequired
    obtain ⟨d', hd', hconforms, -⟩ := h.attributes a r ha
    rw [hd] at hd'
    exact hconforms.required (Option.some.inj hd' ▸ hrequired)
  have hbounds : OnlyOpen (Strictness.cardinalities s name e rule) ↔
      ∀ c label, (c, label) ∈ rule.children.pairs → ∀ d, e.child? c = some d →
        LabelConforms d label := by
    rw [Strictness.cardinalities, h.alternatives, onlyOpen_append, onlyOpen_flatMap]
    refine (and_iff_left (fun d hd => absurd hd List.not_mem_nil)).trans ?_
    simp only [Prod.forall, onlyOpen_bounds]
    refine forall_congr' fun c => forall_congr' fun label => imp_congr_right fun hc => ?_
    obtain ⟨d, hd⟩ := (h.children c (OrderedMap.mem_keys_of_mem hc)).1
    rw [Strictness.clean_bounds s name (childPath name c) e c label hd]
    simp [hd]
  unfold Strictness.entry
  simp only [he, onlyOpen_append, hattributes, hbounds, h.missingAttributes_eq_nil he,
    h.undeclared_eq_nil, onlyOpen_nil, and_true,
    (Strictness.reports_missingChildren s name rule).onlyOpen_iff (by decide),
    missingChildren_eq_nil]

end Entry

/-! ## Profiles of such entries -/

/-- All entries are faithful, and the document types are those of the grammar and have entries,
with all that they require. -/
structure FaithfulProfile (s : Subject) : Prop where
  entries : ∀ name rule, (name, rule) ∈ s.profile.elements.pairs →
    ∃ e, s.grammar.element? name = some e ∧ Faithful s e rule
  documentTypes : ∀ dt ∈ s.profile.documentTypes, dt ∈ s.grammar.documentTypes
  declared : ∀ dt ∈ s.profile.documentTypes, ∀ n,
    Relation.ReflTransGen s.grammar.Requires dt n → n ∈ s.profile.elements.keys

theorem FaithfulProfile.onlyOpen_identity {s : Subject} (h : FaithfulProfile s) :
    OnlyOpen (Identity.check s) := by
  rw [Identity.check, onlyOpen_append, onlyOpen_flatMap]
  constructor
  · rintro ⟨name, rule⟩ hp
    obtain ⟨e, -, hfaithful⟩ := h.entries name rule hp
    simp [Identity.repeatedParts, hfaithful.parts]
  · rw [(Identity.reports_undeclaredTypes s).onlyOpen_iff (by decide), Identity.undeclaredTypes,
      List.map_eq_nil_iff, List.filter_eq_nil_iff]
    refine (forall_zipIdx_iff (p := fun dt => ¬(!s.declares dt) = true)).2 fun dt hdt => ?_
    simp [Subject.declares, OrderedMap.contains_iff.2 (h.declared dt hdt dt .refl)]

/-- Of a profile with faithful entries, validation finds only open choices exactly if all of them
are settled. -/
theorem FaithfulProfile.onlyOpen_iff {s : Subject} (h : FaithfulProfile s) :
    OnlyOpen (validate .standard s) ↔ ∀ name rule, (name, rule) ∈ s.profile.elements.pairs →
      ∀ e, s.grammar.element? name = some e → Settled s.grammar name e rule := by
  have hknown : ∀ {name rule}, (name, rule) ∈ s.profile.elements.pairs →
      (name, rule) ∈ s.knownElements := by
    intro name rule hp
    obtain ⟨e, he, -⟩ := h.entries name rule hp
    exact mem_knownElements.2 ⟨hp, Model.hasElement_iff.2 ⟨e, he⟩⟩
  rw [onlyOpen_validate]
  constructor
  · intro hopen name rule hp e he
    obtain ⟨e', he', hfaithful⟩ := h.entries name rule hp
    obtain rfl := Option.some.inj (he.symm.trans he')
    have hchoice : OnlyOpen (Alternatives.entry s name rule) :=
      onlyOpen_flatMap.1 (hopen .choice) (name, rule) hp
    have hstrict : OnlyOpen (Strictness.entry s name rule) :=
      onlyOpen_flatMap.1 (onlyOpen_append.1 (hopen .strictness)).1 (name, rule) (hknown hp)
    obtain ⟨hcomplete, hbounds⟩ := (hfaithful.onlyOpen_strictness he).1 hstrict
    exact ⟨hcomplete, hbounds, (hfaithful.onlyOpen_alternatives he).1 hchoice⟩
  · intro hsettled c
    cases c with
    | vocabulary =>
        rw [Category.check, Vocabulary.check, onlyOpen_append, onlyOpen_flatMap,
          (Vocabulary.reports_documentTypes s).onlyOpen_iff_clean (by decide),
          Vocabulary.clean_documentTypes]
        refine ⟨h.documentTypes, ?_⟩
        rintro ⟨name, rule⟩ hp
        obtain ⟨e, he, hfaithful⟩ := h.entries name rule hp
        exact hfaithful.onlyOpen_vocabulary he
    | containment =>
        rw [Category.check, Containment.check, onlyOpen_flatMap]
        rintro ⟨name, rule⟩ hp
        obtain ⟨e, he, hfaithful⟩ := h.entries name rule (mem_knownElements.1 hp).1
        exact hfaithful.onlyOpen_containment he
    | datatype =>
        rw [Category.check, Datatype.check, onlyOpen_flatMap]
        rintro ⟨name, rule⟩ hp
        obtain ⟨e, he, hfaithful⟩ := h.entries name rule (mem_knownElements.1 hp).1
        rw [onlyOpen_flatMap]
        rintro ⟨a, r⟩ ha
        exact hfaithful.onlyOpen_datatype he ha
    | identity => exact h.onlyOpen_identity
    | choice =>
        rw [Category.check, Alternatives.check, onlyOpen_flatMap]
        rintro ⟨name, rule⟩ hp
        obtain ⟨e, he, hfaithful⟩ := h.entries name rule hp
        exact (hfaithful.onlyOpen_alternatives he).2 (hsettled name rule hp e he).exclusive
    | strictness =>
        rw [Category.check, Strictness.check, onlyOpen_append, onlyOpen_flatMap, onlyOpen_flatMap]
        constructor
        · rintro ⟨name, rule⟩ hp
          have hmem := (mem_knownElements.1 hp).1
          obtain ⟨e, he, hfaithful⟩ := h.entries name rule hmem
          have hentry := hsettled name rule hmem e he
          exact (hfaithful.onlyOpen_strictness he).2 ⟨hentry.complete, hentry.bounds⟩
        · intro dt hdt
          rw [(Strictness.reports_missingChain s dt).onlyOpen_iff_clean (by decide),
            Strictness.clean_missingChain]
          exact fun _ => h.declared dt hdt

end GrammarProfile.Validation
