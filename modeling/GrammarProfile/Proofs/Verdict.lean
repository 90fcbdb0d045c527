import GrammarProfile.Proofs.Rules

/-!
The verdict of validation: there is no error exactly for the profiles that conform to the grammar,
wherever the keys of the profile stand in its text.
-/
namespace GrammarProfile.Validation

open GrammarProfile.Grammar (Element Model)
open GrammarProfile.Profile

/-- No category has an error about one entry. -/
structure EntryClean (s : Subject) (name : String) (rule : ElementRule) : Prop where
  vocabulary : Clean (Vocabulary.entry s name rule)
  containment : Clean (Containment.children s name rule ++ Containment.firstPart s name rule ++
    Containment.chain s name rule)
  datatype : ∀ q ∈ rule.attributes.pairs, ∀ d, Datatype.declared? s name q.1 = some d →
    (∀ allowed, d.enumValues = some allowed → ∀ v ∈ q.2.values, v ∈ allowed) ∧
      ∀ t, d.pattern = some t → ∀ v ∈ q.2.values, t.accepts v = true
  choice : Clean (Alternatives.entry s name rule)
  strictness : Clean (Strictness.entry s name rule)

section Entry

variable {s : Subject} {name : String} {rule : ElementRule} {e : Element}

theorem declared?_eq (he : s.grammar.element? name = some e) (a : String) :
    Datatype.declared? s name a = e.attribute? a := by
  rw [Datatype.declared?, he, Option.bind_some]

theorem choiceGroups_eq (he : s.grammar.element? name = some e) :
    s.grammar.choiceGroups name = e.choiceGroups := by
  rw [Model.choiceGroups, he]

theorem clean_alternatives (he : s.grammar.element? name = some e) :
    Clean (Alternatives.entry s name rule) ↔
      (((Clean (Alternatives.emptyGroups s name rule) ∧
          Clean (Alternatives.incomplete s name rule)) ∧
        Clean (Alternatives.conflicts s name rule)) ∧
        Clean (Alternatives.invalidMembers s name rule)) ∧
      Clean (Alternatives.overlap s name rule) := by
  unfold Alternatives.entry
  rw [if_pos (Model.hasElement_iff.2 ⟨e, he⟩)]
  simp only [clean_append]

theorem EntryClean.conforms (he : s.grammar.element? name = some e) (h : EntryClean s name rule) :
    EntryConforms s.grammar e rule := by
  obtain ⟨hattributes, hchildren, halternatives, hparts⟩ :=
    (Vocabulary.clean_entry s name rule he).1 h.vocabulary
  obtain ⟨⟨hvalid, hfirst⟩, hchain⟩ := by simpa only [clean_append] using h.containment
  obtain ⟨⟨⟨⟨hgroups, hchoice⟩, hconflicts⟩, hmembers⟩, hoverlap⟩ :=
    (clean_alternatives he).1 h.choice
  obtain ⟨⟨hbounds, hbounds'⟩, hrequired⟩ := (Strictness.clean_entry s name rule he).1 h.strictness
  rw [Containment.clean_children] at hvalid
  rw [Containment.clean_firstPart] at hfirst
  rw [Containment.clean_chain] at hchain
  rw [Alternatives.clean_emptyGroups, choiceGroups_eq he] at hgroups
  rw [Alternatives.clean_conflicts, choiceGroups_eq he] at hconflicts
  rw [Alternatives.clean_invalidMembers] at hmembers
  refine
    { attributes := fun a r ha => ?_
      children := fun c label hc => ?_
      alternatives := fun c label hc => ?_
      disjoint := (Alternatives.clean_overlap s name rule).1 hoverlap
      parts := hparts
      firstPart := fun p hp => ?_
      chain := ?_
      choice := (Alternatives.clean_incomplete s name rule).1 hchoice
      mandatory := hgroups
      exclusive := hconflicts }
  · obtain ⟨d, hd⟩ := hattributes a (OrderedMap.mem_keys_of_mem ha)
    have hvalues := h.datatype (a, r) ha d (by rw [declared?_eq he, hd])
    exact ⟨d, hd, hvalues.1, hvalues.2, hrequired a r ha d hd⟩
  · have hkey := OrderedMap.mem_keys_of_mem hc
    obtain ⟨d, hd⟩ := (mem_childNames name he).1 (hvalid c hkey (hchildren c hkey))
    exact ⟨hchildren c hkey, d, hd, (Strictness.clean_bounds _ _ _ _ _ _ hd).1 (hbounds c label hc)⟩
  · have hkey := OrderedMap.mem_keys_of_mem hc
    obtain ⟨d, hd⟩ := (mem_childNames name he).1 (hmembers c hkey)
    exact ⟨halternatives c hkey, d, hd,
      (Strictness.clean_bounds _ _ _ _ _ _ hd).1 (hbounds' c label hc)⟩
  · exact (mem_childNames name he).1 (hfirst p hp (hparts p (List.mem_of_mem_head? hp)))
  · exact hchain.imp_of_mem_imp fun a b ha hb hab => hab (hparts a ha) (hparts b hb)

theorem EntryConforms.entryClean (he : s.grammar.element? name = some e)
    (h : EntryConforms s.grammar e rule) : EntryClean s name rule := by
  refine ⟨?_, ?_, ?_, ?_, ?_⟩
  · refine (Vocabulary.clean_entry s name rule he).2 ⟨?_, ?_, ?_, h.parts⟩
    · intro a ha
      obtain ⟨r, hr⟩ := OrderedMap.exists_of_mem_keys ha
      obtain ⟨d, hd, _⟩ := h.attributes a r hr
      exact ⟨d, hd⟩
    · intro c hc
      obtain ⟨label, hl⟩ := OrderedMap.exists_of_mem_keys hc
      exact (h.children c label hl).1
    · intro c hc
      obtain ⟨label, hl⟩ := OrderedMap.exists_of_mem_keys hc
      exact (h.alternatives c label hl).1
  · rw [clean_append, clean_append, Containment.clean_children, Containment.clean_firstPart,
      Containment.clean_chain]
    refine ⟨⟨?_, ?_⟩, ?_⟩
    · intro c hc _
      obtain ⟨label, hl⟩ := OrderedMap.exists_of_mem_keys hc
      obtain ⟨d, hd, _⟩ := (h.children c label hl).2
      exact (mem_childNames name he).2 ⟨d, hd⟩
    · exact fun p hp _ => (mem_childNames name he).2 (h.firstPart p hp)
    · exact h.chain.imp fun a b hab _ _ => hab
  · intro q hq d hd
    obtain ⟨d', hd', hconforms⟩ := h.attributes q.1 q.2 hq
    rw [declared?_eq he, hd'] at hd
    rw [← Option.some.inj hd]
    exact ⟨hconforms.enumeration, hconforms.pattern⟩
  · rw [clean_alternatives he, Alternatives.clean_emptyGroups, Alternatives.clean_incomplete,
      Alternatives.clean_conflicts, Alternatives.clean_invalidMembers, Alternatives.clean_overlap,
      choiceGroups_eq he]
    refine ⟨⟨⟨⟨h.mandatory, h.choice⟩, h.exclusive⟩, ?_⟩, h.disjoint⟩
    intro c hc
    obtain ⟨label, hl⟩ := OrderedMap.exists_of_mem_keys hc
    obtain ⟨d, hd, _⟩ := (h.alternatives c label hl).2
    exact (mem_childNames name he).2 ⟨d, hd⟩
  · refine (Strictness.clean_entry s name rule he).2 ⟨⟨?_, ?_⟩, ?_⟩
    · intro c label hc
      obtain ⟨_, d, hd, hlabel⟩ := h.children c label hc
      exact (Strictness.clean_bounds _ _ _ _ _ _ hd).2 hlabel
    · intro c label hc
      obtain ⟨_, d, hd, hlabel⟩ := h.alternatives c label hc
      exact (Strictness.clean_bounds _ _ _ _ _ _ hd).2 hlabel
    · intro a r ha d hd
      obtain ⟨d', hd', hconforms⟩ := h.attributes a r ha
      rw [hd] at hd'
      rw [Option.some.inj hd']
      exact hconforms.required

end Entry

theorem mem_knownElements {s : Subject} {name : String} {rule : ElementRule} :
    (name, rule) ∈ s.knownElements ↔
      (name, rule) ∈ s.profile.elements.pairs ∧ s.grammar.hasElement name = true :=
  List.mem_filter

/-- The categories together: the document types, what requires an entry, and each entry alone. -/
theorem clean_checks_iff (s : Subject) : (∀ c : Category, Clean (c.check s)) ↔
    (∀ dt ∈ s.profile.documentTypes, dt ∈ s.grammar.documentTypes) ∧
    (∀ name rule, (name, rule) ∈ s.profile.elements.pairs →
      ∃ e, s.grammar.element? name = some e ∧ EntryClean s name rule) ∧
    ∀ dt ∈ s.profile.documentTypes, Clean (Strictness.missingChain s dt) := by
  constructor
  · intro h
    obtain ⟨hdocument, hvocabulary⟩ := (Vocabulary.clean_check s).1 (h .vocabulary)
    obtain ⟨hstrictness, hchain⟩ := (Strictness.clean_check s).1 (h .strictness)
    refine ⟨hdocument, ?_, hchain⟩
    intro name rule hmem
    have hentry := hvocabulary (name, rule) hmem
    cases he : s.grammar.element? name with
    | none => exact absurd hentry (Vocabulary.not_clean_entry s name rule he)
    | some e =>
        have hknown := mem_knownElements.2 ⟨hmem, Model.hasElement_iff.2 ⟨e, he⟩⟩
        have hcontainment := (Containment.clean_check s).1 (h .containment) (name, rule) hknown
        have hdatatype := (Datatype.clean_check s).1 (h .datatype) (name, rule) hknown
        have hchoice := (Alternatives.clean_check s).1 (h .choice) (name, rule) hmem
        exact ⟨e, rfl, hentry, hcontainment, hdatatype, hchoice,
          hstrictness (name, rule) hknown⟩
  · rintro ⟨hdocument, hentries, hchain⟩ c
    have hentry : ∀ p ∈ s.profile.elements.pairs, EntryClean s p.1 p.2 := by
      intro p hp
      obtain ⟨_, _, h⟩ := hentries p.1 p.2 hp
      exact h
    have hknown : ∀ p ∈ s.knownElements, EntryClean s p.1 p.2 :=
      fun p hp => hentry p (mem_knownElements.1 hp).1
    cases c with
    | vocabulary =>
        exact (Vocabulary.clean_check s).2 ⟨hdocument, fun p hp => (hentry p hp).vocabulary⟩
    | containment => exact (Containment.clean_check s).2 fun p hp => (hknown p hp).containment
    | datatype => exact (Datatype.clean_check s).2 fun p hp => (hknown p hp).datatype
    | identity => exact Identity.clean_check s
    | choice => exact (Alternatives.clean_check s).2 fun p hp => (hentry p hp).choice
    | strictness =>
        exact (Strictness.clean_check s).2 ⟨fun p hp => (hknown p hp).strictness, hchain⟩

theorem listed_check (c : Category) (s : Subject) : Listed c.rules (c.check s) := by
  cases c with
  | vocabulary => exact Vocabulary.listed_check s
  | containment => exact Containment.listed_check s
  | datatype => exact Datatype.listed_check s
  | identity => exact Identity.listed_check s
  | choice => exact Alternatives.listed_check s
  | strictness => exact Strictness.listed_check s

theorem graded_check (c : Category) (s : Subject) : Graded (c.check s) := (listed_check c s).graded

/-- With the standard settings nothing is filtered out, and no error is lost to repetition. -/
theorem clean_validate_standard (s : Subject) :
    Clean (validate .standard s) ↔ ∀ c : Category, Clean (c.check s) := by
  have hall : ∀ c : Category, c ∈ Category.all := by
    intro c
    cases c <;> decide
  have hgraded : Graded (Category.all.flatMap fun c => c.check s) := by
    apply graded_flatMap
    intro c _
    exact graded_check c s
  have hkeep : ∀ found : List Diagnostic,
      found.filter (fun d => d.severity.atLeast .info) = found := by
    intro found
    exact List.filter_eq_self.2 fun d _ => decide_eq_true (Nat.zero_le _)
  have hfound : validate .standard s = dropRepeats [] (Category.all.flatMap fun c => c.check s) :=
    hkeep _
  rw [hfound, clean_dropRepeats hgraded, clean_flatMap]
  exact ⟨fun h c => h c (hall c), fun h c _ => h c⟩

/-- Validation finds no error in a profile exactly if the profile conforms to the grammar. -/
theorem validate_no_error_iff_conforms (s : Subject) :
    (∀ d ∈ validate .standard s, d.severity ≠ .error) ↔ Conforms s.grammar s.profile := by
  refine (clean_validate_standard s).trans ((clean_checks_iff s).trans ?_)
  constructor
  · rintro ⟨hdocument, hentries, hchain⟩
    refine ⟨hdocument, ?_, fun dt hdt => (Strictness.clean_missingChain s dt).1 (hchain dt hdt)⟩
    intro name rule hmem
    obtain ⟨e, he, hentry⟩ := hentries name rule hmem
    exact ⟨e, he, hentry.conforms he⟩
  · intro h
    refine ⟨h.documentTypes, ?_, fun dt hdt =>
      (Strictness.clean_missingChain s dt).2 (h.chains dt hdt)⟩
    intro name rule hmem
    obtain ⟨e, he, hentry⟩ := h.entries name rule hmem
    exact ⟨e, he, hentry.entryClean he⟩

end GrammarProfile.Validation
