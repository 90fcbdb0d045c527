import GrammarProfile.Proofs.Arrangement
import GrammarProfile.Proofs.Categories

/-!
Profiles that take in what the grammar allows and what their entries have room for. Validation
finds no error in them that it did not find before, but for choices that have to be made.
-/
namespace GrammarProfile.Validation

open GrammarProfile.Grammar (Attribute Branch Child ChoiceGroup Count Element Model Occurs)
open GrammarProfile.Profile

/-! ## Findings without their places -/

def unplaced (d : Diagnostic) : Diagnostic := .plain d.severity d.ruleId d.path d.message

@[simp] theorem unplaced_located (d : Diagnostic) (place : Option Location) :
    unplaced (d.located place) = unplaced d := by
  cases place <;> rfl

@[simp] theorem unplaced_report (s : Subject) (severity : Severity) (rule path message : String) :
    unplaced (s.report severity rule path message) = .plain severity rule path message :=
  unplaced_located _ _

theorem unplaced_eq_iff {d k : Diagnostic} : unplaced k = unplaced d ↔
    k.severity = d.severity ∧ k.ruleId = d.ruleId ∧ k.path = d.path ∧ k.message = d.message := by
  simp [unplaced, Diagnostic.plain]

/-- An error, but not the one that a choice has to be made. -/
def Grave (d : Diagnostic) : Prop :=
  d.severity = .error ∧ d.ruleId ≠ "choice.required-group-empty"

theorem Grave.congr {d k : Diagnostic} (h : Grave d) (hsame : unplaced k = unplaced d) :
    Grave k := by
  obtain ⟨hseverity, hrule, _⟩ := unplaced_eq_iff.1 hsame
  exact ⟨hseverity.trans h.1, hrule ▸ h.2⟩

/-- All grave findings are there before, maybe at another place. -/
def Covers (before after : List Diagnostic) : Prop :=
  ∀ d ∈ after, Grave d → ∃ k ∈ before, unplaced k = unplaced d

section Covers

variable {α β : Type} {a b c found : List Diagnostic} {rule : String}

theorem Covers.trans (hab : Covers a b) (hbc : Covers b c) : Covers a c := by
  intro d hd hgrave
  obtain ⟨k, hk, hsame⟩ := hbc d hd hgrave
  obtain ⟨l, hl, hsame'⟩ := hab k hk (hgrave.congr hsame)
  exact ⟨l, hl, hsame'.trans hsame⟩

theorem Covers.mono (h : Covers a c) (hsub : a ⊆ b) : Covers b c := by
  intro d hd hgrave
  obtain ⟨k, hk, hsame⟩ := h d hd hgrave
  exact ⟨k, hsub hk, hsame⟩

theorem covers_append {before : List Diagnostic} :
    Covers before (a ++ b) ↔ Covers before a ∧ Covers before b := List.forall_mem_append

theorem Covers.append {a' b' : List Diagnostic} (ha : Covers a a') (hb : Covers b b') :
    Covers (a ++ b) (a' ++ b') :=
  covers_append.2 ⟨ha.mono (List.subset_append_left a b), hb.mono (List.subset_append_right a b)⟩

theorem covers_of_clean (h : Clean b) : Covers a b :=
  fun d hd hgrave => absurd hgrave.1 (h d hd)

theorem covers_of_reports {severity : Severity}
    (h : Reports severity "choice.required-group-empty" b) : Covers a b :=
  fun d hd hgrave => absurd (h d hd).2 hgrave.2

theorem Covers.flatMap {items : List α} {items' : List β} {f : α → List Diagnostic}
    {g : β → List Diagnostic}
    (h : ∀ y ∈ items', Covers [] (g y) ∨ ∃ x ∈ items, Covers (f x) (g y)) :
    Covers (items.flatMap f) (items'.flatMap g) := by
  intro d hd hgrave
  obtain ⟨y, hy, hd⟩ := List.mem_flatMap.1 hd
  rcases h y hy with hnone | ⟨x, hx, hcovers⟩
  · obtain ⟨k, hk, _⟩ := hnone d hd hgrave
    exact absurd hk List.not_mem_nil
  · obtain ⟨k, hk, hsame⟩ := hcovers d hd hgrave
    exact ⟨k, List.mem_flatMap.2 ⟨x, hx, hk⟩, hsame⟩

theorem Covers.map {items items' : List α} {f g : α → Diagnostic} (hsub : items' ⊆ items)
    (hsame : ∀ x, unplaced (f x) = unplaced (g x)) : Covers (items.map f) (items'.map g) := by
  intro d hd _
  obtain ⟨x, hx, rfl⟩ := List.mem_map.1 hd
  exact ⟨f x, List.mem_map_of_mem (hsub hx), hsame x⟩

theorem Covers.singleton {d k : Diagnostic} (h : unplaced d = unplaced k) : Covers [d] [k] := by
  intro l hl _
  rw [List.mem_singleton.1 hl]
  exact ⟨d, List.mem_singleton_self d, h⟩

theorem covers_nil : Covers a [] := covers_of_clean clean_nil

end Covers

/-! ## Entries that grow -/

/-- What an entry may take in: attributes and children that the grammar allows. A new child is no
member of the choice, and no exclusive choice of the grammar that holds it gets a second active
branch. -/
structure Grown (m : Model) (e : Element) (rule grown : ElementRule) : Prop where
  attributes : ∀ a x, (a, x) ∈ grown.attributes.pairs → (a, x) ∈ rule.attributes.pairs ∨
    ∃ d, e.attribute? a = some d ∧ AttributeConforms d x
  children : ∀ c label, (c, label) ∈ grown.children.pairs → (c, label) ∈ rule.children.pairs ∨
    ChildConforms m e c label
  kept : ∀ c ∈ rule.children.keys, c ∈ grown.children.keys
  alternatives : grown.alternatives = rule.alternatives
  parts : grown.parts = rule.parts
  declaresChoice : grown.declaresChoice = rule.declaresChoice
  disjoint : ∀ c ∈ grown.children.keys, c ∈ rule.alternatives.keys → c ∈ rule.children.keys
  exclusive : ∀ g ∈ e.choiceGroups, g.maxOccurs = some Count.one →
    (∀ c ∈ grown.children.keys, g.contains c = true → c ∈ rule.children.keys) ∨
      g.branches.Pairwise fun a b => ¬(Active grown a ∧ Active grown b)

section Entry

variable {s t : Subject} {name : String} {rule grown : ElementRule} {e : Element}

theorem Grown.refl (m : Model) (e : Element) (rule : ElementRule) : Grown m e rule rule where
  attributes := fun _ _ h => .inl h
  children := fun _ _ h => .inl h
  kept := fun _ h => h
  alternatives := rfl
  parts := rfl
  declaresChoice := rfl
  disjoint := fun _ h _ => h
  exclusive := fun _ _ _ => .inl fun _ h _ => h

theorem Grown.child_cases (h : Grown s.grammar e rule grown) {c : String}
    (hc : c ∈ grown.children.keys) : c ∈ rule.children.keys ∨
      s.grammar.hasElement c = true ∧ ∃ d, e.child? c = some d := by
  obtain ⟨label, hlabel⟩ := OrderedMap.exists_of_mem_keys hc
  rcases h.children c label hlabel with hold | ⟨hknown, d, hd, _⟩
  · exact .inl (OrderedMap.mem_keys_of_mem hold)
  · exact .inr ⟨hknown, d, hd⟩

namespace Vocabulary

theorem mem_references {r : String × String} : r ∈ references name rule ↔
    (∃ c ∈ rule.children.keys, (c, childPath name c) = r) ∨
      (∃ c ∈ rule.alternatives.keys, (c, alternativePath name c) = r) ∨
        ∃ p ∈ rule.parts.zipIdx, (p.1, partPath name p.2) = r := by
  simp only [references, List.mem_append, List.mem_map, or_assoc]

theorem covers_unknown (hm : t.grammar = s.grammar) (he : s.grammar.element? name = none) :
    Covers (entry s name rule) (entry t name rule) := by
  unfold entry
  rw [hm, he]
  exact Covers.singleton (by simp [unknownElement])

theorem covers_entry (hm : t.grammar = s.grammar) (he : s.grammar.element? name = some e)
    (h : Grown s.grammar e rule grown) : Covers (entry s name rule) (entry t name grown) := by
  unfold entry
  rw [hm, he]
  refine Covers.append (Covers.map (fun a ha => ?_) fun a => by simp)
    (Covers.map (fun r hr => ?_) fun r => by simp [unknownElement])
  · obtain ⟨ha, hunknown⟩ := List.mem_filter.1 ha
    obtain ⟨x, hx⟩ := OrderedMap.exists_of_mem_keys ha
    rcases h.attributes a x hx with hold | ⟨d, hd, _⟩
    · exact List.mem_filter.2 ⟨OrderedMap.mem_keys_of_mem hold, hunknown⟩
    · simp [Element.hasAttribute, hd] at hunknown
  · obtain ⟨hr, hunknown⟩ := List.mem_filter.1 hr
    refine List.mem_filter.2 ⟨mem_references.2 ?_, hunknown⟩
    rw [mem_references, h.alternatives, h.parts] at hr
    refine hr.imp_left ?_
    rintro ⟨c, hc, hpair⟩
    rcases h.child_cases hc with hold | ⟨hknown, _⟩
    · exact ⟨c, hold, hpair⟩
    · subst hpair
      simp [hknown] at hunknown

theorem covers_empty (he : s.grammar.element? name = some e) :
    Covers [] (entry s name .empty) := by
  unfold entry
  rw [he]
  exact covers_nil

end Vocabulary

namespace Containment

def ofEntry (s : Subject) (name : String) (rule : ElementRule) : List Diagnostic :=
  children s name rule ++ firstPart s name rule ++ chain s name rule

theorem check_eq (s : Subject) :
    check s = s.knownElements.flatMap fun p => ofEntry s p.1 p.2 := rfl

theorem covers_entry (hm : t.grammar = s.grammar) (he : s.grammar.element? name = some e)
    (h : Grown s.grammar e rule grown) :
    Covers (ofEntry s name rule) (ofEntry t name grown) := by
  unfold ofEntry children firstPart chain
  rw [hm, h.parts]
  refine Covers.append (Covers.append (Covers.map (fun c hc => ?_) fun c => by simp) ?_) ?_
  · obtain ⟨hc, hinvalid⟩ := List.mem_filter.1 hc
    refine List.mem_filter.2 ⟨?_, hinvalid⟩
    rcases h.child_cases hc with hold | ⟨_, hvalid⟩
    · exact hold
    · simp [(mem_childNames name he).2 hvalid] at hinvalid
  · exact Covers.map (List.Subset.refl _) fun p => by simp
  · exact Covers.map (List.Subset.refl _) fun p => by simp

theorem covers_empty : Covers [] (ofEntry s name .empty) := covers_nil

end Containment

namespace Datatype

def ofAttribute (s : Subject) (name : String) (q : String × AttributeRule) : List Diagnostic :=
  match declared? s name q.1 with
  | some a => if q.2.values.isEmpty then [] else enumeration s name a q.2 ++ pattern s name a q.2
  | none => []

def ofEntry (s : Subject) (name : String) (rule : ElementRule) : List Diagnostic :=
  rule.attributes.pairs.flatMap (ofAttribute s name)

theorem check_eq (s : Subject) :
    check s = s.knownElements.flatMap fun p => ofEntry s p.1 p.2 := rfl

theorem covers_enumeration (a : Attribute) (x : AttributeRule) :
    Covers (enumeration s name a x) (enumeration t name a x) := by
  unfold enumeration
  split
  · exact Covers.map (List.Subset.refl _) fun v => by simp
  · exact covers_of_clean (by simp [Clean])

theorem covers_pattern (a : Attribute) (x : AttributeRule) :
    Covers (pattern s name a x) (pattern t name a x) := by
  unfold pattern
  split
  · exact Covers.map (List.Subset.refl _) fun v => by simp
  · exact covers_nil

theorem covers_entry (hm : t.grammar = s.grammar) (he : s.grammar.element? name = some e)
    (h : Grown s.grammar e rule grown) :
    Covers (ofEntry s name rule) (ofEntry t name grown) := by
  refine Covers.flatMap fun q hq => ?_
  rcases h.attributes q.1 q.2 hq with hold | ⟨d, hd, hconforms⟩
  · refine .inr ⟨q, hold, ?_⟩
    unfold ofAttribute declared?
    rw [hm]
    split
    · split
      · exact covers_nil
      · exact (covers_enumeration _ _).append (covers_pattern _ _)
    · exact covers_nil
  · refine .inl (covers_of_clean ?_)
    have hdeclared : declared? t name q.1 = some d := by
      rw [declared?, hm, he, Option.bind_some, hd]
    unfold ofAttribute
    rw [hdeclared]
    dsimp only
    split
    · exact clean_nil
    · rw [clean_append, clean_enumeration, clean_pattern]
      exact ⟨hconforms.enumeration, hconforms.pattern⟩

theorem covers_empty : Covers [] (ofEntry s name .empty) := covers_nil

end Datatype

namespace Alternatives

theorem covers_incomplete (h : grown.declaresChoice = rule.declaresChoice)
    (halternatives : grown.alternatives = rule.alternatives) :
    Covers (incomplete s name rule) (incomplete t name grown) := by
  unfold incomplete
  rw [h, halternatives]
  dsimp only
  split
  · exact covers_nil
  · exact Covers.singleton (by simp)

theorem covers_overlap (halternatives : grown.alternatives = rule.alternatives)
    (hdisjoint : ∀ c ∈ grown.children.keys, c ∈ rule.alternatives.keys → c ∈ rule.children.keys) :
    Covers (overlap s name rule) (overlap t name grown) := by
  unfold overlap
  rw [halternatives]
  refine Covers.map (fun c hc => ?_) fun c => by simp
  obtain ⟨hc, hin⟩ := List.mem_filter.1 hc
  exact List.mem_filter.2 ⟨hc, OrderedMap.contains_iff.2
    (hdisjoint c (OrderedMap.contains_iff.1 hin) hc)⟩

/-- A group that gets no new child has the active branches that it had. -/
theorem activeBranches_congr {g : ChoiceGroup}
    (h : ∀ c, g.contains c = true → (c ∈ grown.children.keys ↔ c ∈ rule.children.keys)) :
    activeBranches g grown = activeBranches g rule := by
  refine List.filterMap_congr fun b hb => ?_
  have hset : Text.nameSet (grown.children.keys.filter b.elements.contains) =
      Text.nameSet (rule.children.keys.filter b.elements.contains) := by
    refine Text.nameSet_congr fun c => ?_
    rw [List.mem_filter, List.mem_filter]
    refine and_congr_left fun hc => h c (ChoiceGroup.contains_iff.2 ⟨b, hb, ?_⟩)
    simpa using hc
  rw [hset]

theorem covers_groupConflicts (g : ChoiceGroup)
    (h : activeBranches g grown = activeBranches g rule) :
    Covers (groupConflicts s name rule g) (groupConflicts t name grown g) := by
  unfold groupConflicts
  rw [h]
  split
  · exact covers_nil
  · exact Covers.map (List.Subset.refl _) fun p => by simp

theorem covers_entry (hm : t.grammar = s.grammar) (he : s.grammar.element? name = some e)
    (h : Grown s.grammar e rule grown) : Covers (entry s name rule) (entry t name grown) := by
  have hknown : s.grammar.hasElement name = true := Model.hasElement_iff.2 ⟨e, he⟩
  unfold entry
  rw [hm, if_pos hknown, if_pos hknown]
  refine Covers.append (Covers.append (Covers.append (Covers.append
    (covers_of_reports (reports_emptyGroups t name grown)) ?_) ?_) ?_) ?_
  · exact covers_incomplete h.declaresChoice h.alternatives
  · unfold conflicts
    rw [hm, choiceGroups_eq he]
    refine Covers.flatMap fun g hg => ?_
    obtain ⟨hg, hexclusive⟩ := List.mem_filter.1 hg
    have hone : g.maxOccurs = some Count.one := by simpa [ChoiceGroup.exclusive] using hexclusive
    -- Either the group is as it was, or its branches do not conflict.
    rcases h.exclusive g hg hone with hsame | hpairwise
    · refine .inr ⟨g, List.mem_filter.2 ⟨hg, hexclusive⟩, covers_groupConflicts g ?_⟩
      exact activeBranches_congr fun c hc => ⟨fun hin => hsame c hin hc, h.kept c⟩
    · exact .inl (covers_of_clean ((clean_groupConflicts t name grown g).2 hpairwise))
  · unfold invalidMembers
    rw [hm, h.alternatives]
    exact Covers.map (List.Subset.refl _) fun c => by simp
  · exact covers_overlap h.alternatives h.disjoint

theorem covers_unknown (hm : t.grammar = s.grammar) (he : s.grammar.element? name = none) :
    Covers (entry s name rule) (entry t name rule) := by
  have hunknown : ¬s.grammar.hasElement name = true := by
    rw [Model.hasElement_iff, he]
    simp
  unfold entry
  rw [hm, if_neg hunknown, if_neg hunknown]
  exact (covers_incomplete rfl rfl).append (covers_overlap rfl fun c hc _ => hc)

theorem covers_empty : Covers [] (entry s name .empty) := by
  have hincomplete : Clean (incomplete s name .empty) :=
    (clean_incomplete s name .empty).2 nofun
  have hoverlap : Clean (overlap s name .empty) := clean_nil
  have hmembers : Clean (invalidMembers s name .empty) := clean_nil
  have hconflicts : Clean (conflicts s name .empty) := by
    rw [clean_conflicts]
    refine fun g _ _ => List.pairwise_of_forall fun a b hactive => ?_
    obtain ⟨c, hc, _⟩ := hactive.1
    exact absurd hc List.not_mem_nil
  unfold entry
  split
  · simp only [covers_append]
    exact ⟨⟨⟨⟨covers_of_reports (reports_emptyGroups s name .empty), covers_of_clean hincomplete⟩,
      covers_of_clean hconflicts⟩, covers_of_clean hmembers⟩, covers_of_clean hoverlap⟩
  · exact covers_of_clean (clean_append.2 ⟨hincomplete, hoverlap⟩)

end Alternatives

namespace Strictness

theorem covers_loosenedBounds (path : String) (c : Child) (own : Occurs) :
    Covers (loosenedBounds s name path c own) (loosenedBounds t name path c own) := by
  unfold loosenedBounds
  dsimp only
  refine Covers.append ?_ ?_
  · split
    · exact Covers.singleton (by simp)
    · exact covers_nil
  · split
    · exact covers_nil
    · split
      · exact Covers.singleton (by simp)
      · exact covers_nil

theorem covers_bounds (path child : String) (label : Option String) :
    Covers (bounds s name e path child label) (bounds t name e path child label) := by
  unfold bounds
  split
  · split
    · exact Covers.singleton (by simp)
    · exact covers_loosenedBounds path _ _
  · exact covers_nil

theorem covers_entry (hm : t.grammar = s.grammar) (he : s.grammar.element? name = some e)
    (h : Grown s.grammar e rule grown) : Covers (entry s name rule) (entry t name grown) := by
  unfold entry
  rw [hm, he]
  dsimp only
  refine Covers.append (Covers.append (Covers.append (Covers.append ?_ ?_) ?_) ?_) ?_
  · exact covers_of_clean ((reports_missingChildren t name grown).clean nofun)
  · exact covers_of_clean ((reports_missingAttributes t name grown).clean nofun)
  · unfold cardinalities
    rw [h.alternatives]
    refine Covers.append (Covers.flatMap fun p hp => ?_)
      (Covers.flatMap fun p hp => .inr ⟨p, hp, covers_bounds _ _ _⟩)
    rcases h.children p.1 p.2 hp with hold | ⟨_, d, hd, hlabel⟩
    · exact .inr ⟨p, hold, covers_bounds _ _ _⟩
    · exact .inl (covers_of_clean ((clean_bounds _ _ _ _ _ _ hd).2 hlabel))
  · unfold loosenedAttributes
    refine Covers.map (fun q hq => ?_) fun q => by simp
    obtain ⟨hq, hloose⟩ := List.mem_filter.1 hq
    refine List.mem_filter.2 ⟨?_, hloose⟩
    rcases h.attributes q.1 q.2 hq with hold | ⟨d, hd, hconforms⟩
    · exact hold
    · simp [hd] at hloose
      exact absurd (hconforms.required hloose.1) (by simp [hloose.2])
  · exact covers_of_clean ((reports_undeclared t name grown).clean nofun)

theorem covers_empty (he : s.grammar.element? name = some e) :
    Covers [] (entry s name .empty) := by
  refine covers_of_clean ((clean_entry s name .empty he).2 ⟨⟨?_, ?_⟩, ?_⟩)
  · exact fun c label hc => absurd hc List.not_mem_nil
  · exact fun c label hc => absurd hc List.not_mem_nil
  · exact fun a x ha => absurd ha List.not_mem_nil

theorem covers_missingChain (hm : t.grammar = s.grammar)
    (hkept : ∀ n ∈ s.profile.elements.keys, n ∈ t.profile.elements.keys) (documentType : String) :
    Covers (missingChain s documentType) (missingChain t documentType) := by
  unfold missingChain
  rw [hm]
  split
  · refine Covers.map (fun n hn => ?_) fun n => by simp [missingElement]
    rw [inOrder, List.mem_mergeSort, List.mem_filter] at hn ⊢
    refine ⟨hn.1, ?_⟩
    have hmissing : n ∉ t.profile.elements.keys := by
      rw [← OrderedMap.contains_iff]
      simpa [Subject.declares] using hn.2
    have hbefore : n ∉ s.profile.elements.keys := fun hin => hmissing (hkept n hin)
    rw [← OrderedMap.contains_iff] at hbefore
    simpa [Subject.declares] using hbefore
  · exact covers_nil

end Strictness

end Entry

/-! ## Findings with the standard settings -/

theorem validate_standard (s : Subject) :
    validate .standard s = dropRepeats [] (Category.all.flatMap fun c => c.check s) :=
  List.filter_eq_self.2 fun _ _ => decide_eq_true (Nat.zero_le _)

/-- Whatever a category finds is reported, perhaps by a finding that it repeats. -/
theorem exists_mem_validate {s : Subject} {c : Category} {d : Diagnostic} (hd : d ∈ c.check s) :
    ∃ k ∈ validate .standard s, k.severity = d.severity ∧
      k.ruleId = d.ruleId ∧ k.path = d.path ∧ k.message = d.message := by
  have hall : c ∈ Settings.standard.categories := by cases c <;> decide
  obtain ⟨k, hk, hseverity, hsame⟩ :=
    exists_mem_validate_of_mem hall hd (decide_eq_true (Nat.zero_le _))
  exact ⟨k, hk, hseverity, sameFinding_iff.1 hsame⟩

/-! ## Profiles that grow -/

/-- What a profile says about an element: nothing if it has no entry. -/
def ruleOf (r : Restriction) (n : String) : ElementRule := (r.elements.get? n).getD .empty

/-- A profile with the same document types and with all its entries, some of which have grown. -/
structure Grows (m : Model) (r grown : Restriction) : Prop where
  documentTypes : grown.documentTypes = r.documentTypes
  kept : ∀ n ∈ r.elements.keys, n ∈ grown.elements.keys
  entries : ∀ n rule, (n, rule) ∈ grown.elements.pairs → (n, rule) ∈ r.elements.pairs ∨
    ∃ e, m.element? n = some e ∧ Grown m e (ruleOf r n) rule

namespace Grows

variable {s t : Subject}

/-- Findings about single entries are covered if those about an entry that grows are. -/
theorem covers_entries (h : Grows s.grammar s.profile t.profile)
    {f g : String → ElementRule → List Diagnostic}
    (hunknown : ∀ n rule, s.grammar.element? n = none → Covers (f n rule) (g n rule))
    (hgrown : ∀ n e rule grown, s.grammar.element? n = some e → Grown s.grammar e rule grown →
      Covers (f n rule) (g n grown))
    (hempty : ∀ n e, s.grammar.element? n = some e → Covers [] (f n .empty)) :
    Covers (s.profile.elements.pairs.flatMap fun p => f p.1 p.2)
      (t.profile.elements.pairs.flatMap fun p => g p.1 p.2) := by
  refine Covers.flatMap fun p hp => ?_
  rcases h.entries p.1 p.2 hp with hold | ⟨e, he, hrule⟩
  · refine .inr ⟨p, hold, ?_⟩
    cases he : s.grammar.element? p.1 with
    | none => exact hunknown p.1 p.2 he
    | some e => exact hgrown p.1 e p.2 p.2 he (.refl s.grammar e p.2)
  · cases hbefore : s.profile.elements.get? p.1 with
    | none =>
        rw [ruleOf, hbefore, Option.getD_none] at hrule
        exact .inl ((hempty p.1 e he).trans (hgrown p.1 e _ p.2 he hrule))
    | some rule =>
        rw [ruleOf, hbefore, Option.getD_some] at hrule
        exact .inr ⟨(p.1, rule), OrderedMap.get?_eq_some_iff.1 hbefore,
          hgrown p.1 e rule p.2 he hrule⟩

theorem flatMap_knownElements (s : Subject) (f : String → ElementRule → List Diagnostic) :
    s.knownElements.flatMap (fun p => f p.1 p.2) =
      s.profile.elements.pairs.flatMap fun p =>
        if s.grammar.hasElement p.1 then f p.1 p.2 else [] := by
  unfold Subject.knownElements
  induction s.profile.elements.pairs with
  | nil => rfl
  | cons p rest ih =>
      rw [List.flatMap_cons, List.filter_cons, ← ih]
      split <;> rfl

theorem covers_knownElements (h : Grows s.grammar s.profile t.profile)
    (hm : t.grammar = s.grammar) {f g : String → ElementRule → List Diagnostic}
    (hgrown : ∀ n e rule grown, s.grammar.element? n = some e → Grown s.grammar e rule grown →
      Covers (f n rule) (g n grown))
    (hempty : ∀ n e, s.grammar.element? n = some e → Covers [] (f n .empty)) :
    Covers (s.knownElements.flatMap fun p => f p.1 p.2)
      (t.knownElements.flatMap fun p => g p.1 p.2) := by
  rw [flatMap_knownElements, flatMap_knownElements, hm]
  refine h.covers_entries (f := fun n rule => if s.grammar.hasElement n then f n rule else [])
    (g := fun n rule => if s.grammar.hasElement n then g n rule else []) ?_ ?_ ?_
  · intro n rule he
    have hnot : ¬s.grammar.hasElement n = true := by simp [Model.hasElement_iff, he]
    rw [if_neg hnot, if_neg hnot]
    exact covers_nil
  · intro n e rule grown he hrule
    rw [if_pos (Model.hasElement_iff.2 ⟨e, he⟩), if_pos (Model.hasElement_iff.2 ⟨e, he⟩)]
    exact hgrown n e rule grown he hrule
  · intro n e he
    rw [if_pos (Model.hasElement_iff.2 ⟨e, he⟩)]
    exact hempty n e he

theorem covers_check (h : Grows s.grammar s.profile t.profile) (hm : t.grammar = s.grammar)
    (c : Category) : Covers (c.check s) (c.check t) := by
  cases c with
  | vocabulary =>
      refine Covers.append ?_ (h.covers_entries (f := Vocabulary.entry s)
        (g := Vocabulary.entry t) (fun n rule he => Vocabulary.covers_unknown hm he)
        (fun n e rule grown he hrule => Vocabulary.covers_entry hm he hrule)
        fun n e he => Vocabulary.covers_empty he)
      unfold Vocabulary.documentTypes
      rw [hm, h.documentTypes]
      exact Covers.map (List.Subset.refl _) fun p => by simp
  | containment =>
      rw [Category.check, Category.check, Containment.check_eq, Containment.check_eq]
      exact h.covers_knownElements hm
        (fun n e rule grown he hrule => Containment.covers_entry hm he hrule)
        fun n e _ => Containment.covers_empty
  | datatype =>
      rw [Category.check, Category.check, Datatype.check_eq, Datatype.check_eq]
      exact h.covers_knownElements hm
        (fun n e rule grown he hrule => Datatype.covers_entry hm he hrule)
        fun n e _ => Datatype.covers_empty
  | identity => exact covers_of_clean (Identity.clean_check t)
  | choice =>
      exact h.covers_entries (f := Alternatives.entry s) (g := Alternatives.entry t)
        (fun n rule he => Alternatives.covers_unknown hm he)
        (fun n e rule grown he hrule => Alternatives.covers_entry hm he hrule)
        fun n e he => Alternatives.covers_empty
  | strictness =>
      refine Covers.append (h.covers_knownElements hm (f := Strictness.entry s)
        (g := Strictness.entry t)
        (fun n e rule grown he hrule => Strictness.covers_entry hm he hrule)
        fun n e he => Strictness.covers_empty he) ?_
      rw [h.documentTypes]
      exact Covers.flatMap fun dt hdt => .inr ⟨dt, hdt, Strictness.covers_missingChain hm h.kept dt⟩

/-- What is found after growth was found before, also when repeated findings are dropped. -/
theorem exists_before (h : Grows s.grammar s.profile t.profile) (hm : t.grammar = s.grammar)
    {d : Diagnostic} (hd : d ∈ validate .standard t) (hgrave : Grave d) :
    ∃ k ∈ validate .standard s, k.ruleId = d.ruleId ∧ k.path = d.path ∧ k.message = d.message := by
  have hcovers : Covers (Category.all.flatMap fun c => c.check s)
      (Category.all.flatMap fun c => c.check t) :=
    Covers.flatMap fun c hc => .inr ⟨c, hc, h.covers_check hm c⟩
  rw [validate_standard] at hd
  -- The finding that covers `d` may have been dropped for one that it repeats.
  obtain ⟨k, hk, hsame⟩ := hcovers d (dropRepeats_subset _ _ hd) hgrave
  obtain ⟨_, hrule, hpath, hmessage⟩ := unplaced_eq_iff.1 hsame
  obtain ⟨c, _, hk⟩ := List.mem_flatMap.1 hk
  obtain ⟨l, hl, _, hrule', hpath', hmessage'⟩ := exists_mem_validate hk
  exact ⟨l, hl, hrule'.trans hrule, hpath'.trans hpath, hmessage'.trans hmessage⟩

end Grows

end GrammarProfile.Validation
