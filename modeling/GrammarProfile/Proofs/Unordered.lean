import GrammarProfile.Proofs.Growth

/-!
Validation does not depend on the order in which a profile lists its entries and what is in them,
nor on where all that stands in its text: neither changes what is found.
-/
namespace GrammarProfile.Validation

open GrammarProfile.Grammar (Attribute Branch Child ChoiceGroup Element Model Occurs)
open GrammarProfile.Profile

/-- Entries that say the same to the rules, in whatever order. -/
structure SameRule (a b : ElementRule) : Prop where
  attributes : a.attributes.Agrees b.attributes
  children : a.children.Agrees b.children
  alternatives : a.alternatives.Agrees b.alternatives
  parts : a.parts = b.parts
  declaresChoice : a.declaresChoice = b.declaresChoice

/-- Profiles that say the same to the rules, in whatever order. -/
structure SameProfile (p q : Restriction) : Prop where
  documentTypes : p.documentTypes = q.documentTypes
  entries : ∀ n, Option.Rel SameRule (p.elements.get? n) (q.elements.get? n)

section

variable {a b : ElementRule} {p q : Restriction} {m : Model} {i j : LineIndex} {s : Subject}
  {n : String} {d : Diagnostic}

theorem SameRule.refl (a : ElementRule) : SameRule a a :=
  ⟨fun _ => rfl, fun _ => rfl, fun _ => rfl, rfl, rfl⟩

theorem SameRule.symm (h : SameRule a b) : SameRule b a :=
  ⟨h.attributes.symm, h.children.symm, h.alternatives.symm, h.parts.symm, h.declaresChoice.symm⟩

theorem SameProfile.refl (p : Restriction) : SameProfile p p := by
  refine ⟨rfl, fun n => ?_⟩
  cases p.elements.get? n with
  | none => exact .none
  | some rule => exact .some (.refl rule)

theorem SameProfile.symm (h : SameProfile p q) : SameProfile q p := by
  refine ⟨h.documentTypes.symm, fun n => ?_⟩
  have hrel := h.entries n
  generalize p.elements.get? n = v, q.elements.get? n = w at hrel ⊢
  cases hrel with
  | none => exact .none
  | some hrule => exact .some hrule.symm

theorem SameProfile.declares_eq (h : SameProfile p q) (n : String) :
    (⟨m, p, i⟩ : Subject).declares n = (⟨m, q, i⟩ : Subject).declares n := by
  have hsome : (p.elements.get? n).isSome = (q.elements.get? n).isSome := by
    have hrel := h.entries n
    generalize p.elements.get? n = v, q.elements.get? n = w at hrel ⊢
    cases hrel <;> rfl
  unfold Subject.declares
  rw [Bool.eq_iff_iff, OrderedMap.contains_iff, OrderedMap.contains_iff, ← OrderedMap.get?_isSome,
    ← OrderedMap.get?_isSome, hsome]

theorem SameProfile.exists_rule (h : SameProfile p q) (ha : (n, a) ∈ p.elements.pairs) :
    ∃ b, (n, b) ∈ q.elements.pairs ∧ SameRule a b := by
  have hrel := h.entries n
  rw [OrderedMap.get?_eq_some_iff.2 ha] at hrel
  generalize hb : q.elements.get? n = v at hrel
  cases hrel with
  | some hrule => exact ⟨_, OrderedMap.get?_eq_some_iff.1 hb, hrule⟩

/-- What is found entry by entry is the same if it is the same for entries that say the same. -/
theorem SameProfile.mem_flatMap_iff (h : SameProfile p q)
    {f g : String → ElementRule → List Diagnostic}
    (hfg : ∀ n a b, SameRule a b → (d ∈ f n a ↔ d ∈ g n b)) :
    (d ∈ p.elements.pairs.flatMap fun x => f x.1 x.2) ↔
      d ∈ q.elements.pairs.flatMap fun x => g x.1 x.2 := by
  rw [List.mem_flatMap, List.mem_flatMap]
  constructor
  · rintro ⟨⟨n, a⟩, ha, hd⟩
    obtain ⟨b, hb, hrule⟩ := h.exists_rule ha
    exact ⟨(n, b), hb, (hfg n a b hrule).1 hd⟩
  · rintro ⟨⟨n, b⟩, hb, hd⟩
    obtain ⟨a, ha, hrule⟩ := h.symm.exists_rule hb
    exact ⟨(n, a), ha, (hfg n a b hrule.symm).2 hd⟩

theorem SameProfile.mem_knownElements_iff (h : SameProfile p q)
    {f g : String → ElementRule → List Diagnostic}
    (hfg : ∀ n a b, SameRule a b → (d ∈ f n a ↔ d ∈ g n b)) :
    (d ∈ (⟨m, p, i⟩ : Subject).knownElements.flatMap fun x => f x.1 x.2) ↔
      d ∈ (⟨m, q, i⟩ : Subject).knownElements.flatMap fun x => g x.1 x.2 := by
  rw [Grows.flatMap_knownElements, Grows.flatMap_knownElements]
  refine h.mem_flatMap_iff (f := fun n rule => if m.hasElement n then f n rule else [])
    (g := fun n rule => if m.hasElement n then g n rule else []) fun n a b hrule => ?_
  split
  · exact hfg n a b hrule
  · exact Iff.rfl

/-! ## The order of what an entry says -/

namespace Vocabulary

theorem mem_references_iff (h : SameRule a b) {r : String × String} :
    r ∈ references n a ↔ r ∈ references n b := by
  simp only [mem_references, h.children.mem_keys_iff, h.alternatives.mem_keys_iff, h.parts]

theorem mem_entry_iff (h : SameRule a b) : d ∈ entry s n a ↔ d ∈ entry s n b := by
  unfold entry
  split
  · exact Iff.rfl
  · simp only [attributes, List.mem_append, List.mem_map, List.mem_filter,
      h.attributes.mem_keys_iff, mem_references_iff h]

end Vocabulary

namespace Containment

theorem mem_ofEntry_iff (h : SameRule a b) : d ∈ ofEntry s n a ↔ d ∈ ofEntry s n b := by
  simp only [ofEntry, children, firstPart, chain, List.mem_append, List.mem_map, List.mem_filter,
    h.children.mem_keys_iff, h.parts]

end Containment

namespace Datatype

theorem mem_ofEntry_iff (h : SameRule a b) : d ∈ ofEntry s n a ↔ d ∈ ofEntry s n b := by
  simp only [ofEntry, List.mem_flatMap, h.attributes.mem_pairs_iff]

end Datatype

namespace Alternatives

theorem emptyGroups_eq (h : SameRule a b) : emptyGroups s n a = emptyGroups s n b := by
  have hany : ∀ g : ChoiceGroup, a.childNames.any g.contains = b.childNames.any g.contains := by
    intro g
    rw [Bool.eq_iff_iff, List.any_eq_true, List.any_eq_true]
    simp only [ElementRule.childNames, List.mem_append, h.children.mem_keys_iff,
      h.alternatives.mem_keys_iff]
  simp only [emptyGroups, hany]

theorem incomplete_eq (h : SameRule a b) : incomplete s n a = incomplete s n b := by
  simp only [incomplete, h.declaresChoice, h.alternatives.size_eq]

/-- The active branches of a group and their members are listed as the grammar has them, and by
code points. -/
theorem conflicts_eq (h : SameRule a b) : conflicts s n a = conflicts s n b := by
  have hgroup : groupConflicts s n a = groupConflicts s n b := by
    funext g
    unfold groupConflicts
    rw [activeBranches_congr fun _ _ => h.children.mem_keys_iff]
  unfold conflicts
  rw [hgroup]

theorem mem_entry_iff (h : SameRule a b) : d ∈ entry s n a ↔ d ∈ entry s n b := by
  have hmembers : d ∈ invalidMembers s n a ↔ d ∈ invalidMembers s n b := by
    simp only [invalidMembers, List.mem_map, List.mem_filter, h.alternatives.mem_keys_iff]
  have hoverlap : d ∈ overlap s n a ↔ d ∈ overlap s n b := by
    simp only [overlap, List.mem_map, List.mem_filter, h.alternatives.mem_keys_iff,
      h.children.contains_eq]
  unfold entry
  rw [emptyGroups_eq h, incomplete_eq h, conflicts_eq h]
  split <;> simp only [List.mem_append, hmembers, hoverlap]

end Alternatives

namespace Strictness

theorem missingChildren_eq (h : SameRule a b) : missingChildren s n a = missingChildren s n b := by
  simp only [missingChildren, h.children.isEmpty_eq, h.children.contains_eq]

theorem missingAttributes_eq (h : SameRule a b) :
    missingAttributes s n a = missingAttributes s n b := by
  simp only [missingAttributes, h.attributes.isEmpty_eq, h.attributes.contains_eq]

theorem mem_cardinalities_iff (h : SameRule a b) {e : Element} :
    d ∈ cardinalities s n e a ↔ d ∈ cardinalities s n e b := by
  simp only [cardinalities, List.mem_append, List.mem_flatMap, h.children.mem_pairs_iff,
    h.alternatives.mem_pairs_iff]

theorem mem_loosenedAttributes_iff (h : SameRule a b) {e : Element} :
    d ∈ loosenedAttributes s n e a ↔ d ∈ loosenedAttributes s n e b := by
  simp only [loosenedAttributes, List.mem_map, List.mem_filter, h.attributes.mem_pairs_iff]

/-- Of the pairs with the same first part only the first is kept. -/
theorem mem_distinctFirst_iff {pairs : List (String × String)} {r : String × String} :
    r ∈ distinctFirst pairs ↔ pairs.find? (fun q => q.1 == r.1) = some r := by
  induction pairs with
  | nil => simp [distinctFirst]
  | cons first rest ih =>
      rw [distinctFirst, List.mem_cons, List.mem_filter, ih, List.find?_cons]
      by_cases hr : first.1 = r.1
      · simp [hr, eq_comm]
      · have hne : r ≠ first := fun heq => hr (congrArg Prod.fst heq).symm
        have hbeq : (first.1 == r.1) = false := by simpa using hr
        rw [hbeq]
        simp [hne, Ne.symm hr]

theorem mem_distinctFirst_filter_iff (keep : String → Bool) {pairs : List (String × String)}
    {r : String × String} : r ∈ distinctFirst (pairs.filter fun x => keep x.1) ↔
      keep r.1 = true ∧ pairs.find? (fun q => q.1 == r.1) = some r := by
  rw [mem_distinctFirst_iff, List.find?_filter]
  by_cases hr : keep r.1 = true
  · have hsame : (fun x : String × String => decide (keep x.1 = true ∧ (x.1 == r.1) = true)) =
        fun x => x.1 == r.1 := by
      funext x
      by_cases hx : x.1 = r.1 <;> simp [hx, hr]
    rw [hsame]
    exact (and_iff_right hr).symm
  · refine iff_of_false (fun hfind => ?_) fun h => hr h.1
    have hkept := List.find?_some hfind
    exact hr (of_decide_eq_true hkept).1

theorem find?_references (f : String → String × String) (hf : ∀ c, (f c).1 = c)
    (keys : List String) (n : String) :
    (keys.map f).find? (fun q => q.1 == n) = if n ∈ keys then some (f n) else none := by
  induction keys with
  | nil => rfl
  | cons c rest ih =>
      rw [List.map_cons, List.find?_cons, ih, hf]
      by_cases hc : c = n
      · simp [hc]
      · have hbeq : (c == n) = false := by simpa using hc
        rw [hbeq]
        simp [Ne.symm hc]

/-- A name is reported where it stands first: among the children, in the choice, or as a part. -/
theorem mem_undeclared_iff (h : SameRule a b) (hp : SameProfile p q) :
    d ∈ undeclared ⟨m, p, i⟩ n a ↔ d ∈ undeclared ⟨m, q, i⟩ n b := by
  have hfind : ∀ c, (Vocabulary.references n a).find? (fun r => r.1 == c) =
      (Vocabulary.references n b).find? fun r => r.1 == c := by
    intro c
    unfold Vocabulary.references
    rw [List.find?_append, List.find?_append, List.find?_append, List.find?_append,
      find?_references _ (fun _ => rfl), find?_references _ (fun _ => rfl),
      find?_references _ (fun _ => rfl), find?_references _ (fun _ => rfl), h.parts]
    simp only [h.children.mem_keys_iff, h.alternatives.mem_keys_iff]
  have hmem : ∀ r : String × String,
      r ∈ distinctFirst ((Vocabulary.references n a).filter fun r =>
        m.hasElement r.1 && !(⟨m, p, i⟩ : Subject).declares r.1) ↔
      r ∈ distinctFirst ((Vocabulary.references n b).filter fun r =>
        m.hasElement r.1 && !(⟨m, q, i⟩ : Subject).declares r.1) := by
    intro r
    rw [mem_distinctFirst_filter_iff fun c => m.hasElement c && !Subject.declares ⟨m, p, i⟩ c,
      mem_distinctFirst_filter_iff fun c => m.hasElement c && !Subject.declares ⟨m, q, i⟩ c,
      hp.declares_eq, hfind]
  unfold undeclared
  rw [List.mem_map, List.mem_map]
  exact exists_congr fun r => and_congr_left fun _ => hmem r

theorem missingChain_eq (h : SameProfile p q) (documentType : String) :
    missingChain ⟨m, p, i⟩ documentType = missingChain ⟨m, q, i⟩ documentType := by
  unfold missingChain
  simp only [h.declares_eq]
  rfl

theorem mem_entry_iff (h : SameRule a b) (hp : SameProfile p q) :
    d ∈ entry ⟨m, p, i⟩ n a ↔ d ∈ entry ⟨m, q, i⟩ n b := by
  unfold entry
  dsimp only
  split
  · exact Iff.rfl
  · next e he =>
      have hchildren : missingChildren ⟨m, p, i⟩ n a = missingChildren ⟨m, q, i⟩ n b :=
        missingChildren_eq (s := ⟨m, p, i⟩) h
      have hattributes : missingAttributes ⟨m, p, i⟩ n a = missingAttributes ⟨m, q, i⟩ n b :=
        missingAttributes_eq (s := ⟨m, p, i⟩) h
      have hcardinalities : d ∈ cardinalities ⟨m, p, i⟩ n e a ↔
          d ∈ cardinalities ⟨m, q, i⟩ n e b := mem_cardinalities_iff (s := ⟨m, p, i⟩) h
      have hloosened : d ∈ loosenedAttributes ⟨m, p, i⟩ n e a ↔
          d ∈ loosenedAttributes ⟨m, q, i⟩ n e b := mem_loosenedAttributes_iff (s := ⟨m, p, i⟩) h
      simp only [List.mem_append, hchildren, hattributes, hcardinalities, hloosened,
        mem_undeclared_iff h hp]

end Strictness

/-- A category finds the same in profiles that say the same. -/
theorem SameProfile.mem_check_iff (h : SameProfile p q) (c : Category) :
    d ∈ c.check ⟨m, p, i⟩ ↔ d ∈ c.check ⟨m, q, i⟩ := by
  cases c with
  | vocabulary =>
      have htypes : Vocabulary.documentTypes ⟨m, p, i⟩ = Vocabulary.documentTypes ⟨m, q, i⟩ := by
        unfold Vocabulary.documentTypes
        simp only [h.documentTypes]
        rfl
      refine List.mem_append.trans (Iff.trans ?_ List.mem_append.symm)
      rw [htypes]
      exact or_congr_right (h.mem_flatMap_iff (f := Vocabulary.entry ⟨m, p, i⟩)
        (g := Vocabulary.entry ⟨m, q, i⟩) fun n a b hrule =>
          Vocabulary.mem_entry_iff (s := ⟨m, p, i⟩) hrule)
  | containment =>
      rw [Category.check, Category.check, Containment.check_eq, Containment.check_eq]
      exact h.mem_knownElements_iff fun n a b hrule =>
        Containment.mem_ofEntry_iff (s := ⟨m, p, i⟩) hrule
  | datatype =>
      rw [Category.check, Category.check, Datatype.check_eq, Datatype.check_eq]
      exact h.mem_knownElements_iff fun n a b hrule =>
        Datatype.mem_ofEntry_iff (s := ⟨m, p, i⟩) hrule
  | identity =>
      have htypes : Identity.undeclaredTypes ⟨m, p, i⟩ = Identity.undeclaredTypes ⟨m, q, i⟩ := by
        unfold Identity.undeclaredTypes
        simp only [h.documentTypes, h.declares_eq]
        rfl
      refine List.mem_append.trans (Iff.trans ?_ List.mem_append.symm)
      rw [htypes]
      refine or_congr_left (h.mem_flatMap_iff (f := Identity.repeatedParts ⟨m, p, i⟩)
        (g := Identity.repeatedParts ⟨m, q, i⟩) fun n a b hrule => ?_)
      unfold Identity.repeatedParts
      rw [hrule.parts]
      exact Iff.rfl
  | choice =>
      exact h.mem_flatMap_iff (f := Alternatives.entry ⟨m, p, i⟩)
        (g := Alternatives.entry ⟨m, q, i⟩) fun n a b hrule =>
          Alternatives.mem_entry_iff (s := ⟨m, p, i⟩) hrule
  | strictness =>
      have hchain : Strictness.missingChain ⟨m, p, i⟩ = Strictness.missingChain ⟨m, q, i⟩ :=
        funext fun documentType => Strictness.missingChain_eq h documentType
      refine List.mem_append.trans (Iff.trans ?_ List.mem_append.symm)
      rw [hchain, h.documentTypes]
      exact or_congr_left (h.mem_knownElements_iff (f := Strictness.entry ⟨m, p, i⟩)
        (g := Strictness.entry ⟨m, q, i⟩) fun n a b hrule => Strictness.mem_entry_iff hrule h)

end

/-! ## Findings where no place is known -/

@[simp] theorem located_none (d : Diagnostic) : d.located none = d := rfl

/-- The subject without the places of its parts. -/
def Subject.unplaced (s : Subject) : Subject := { s with index := .empty }

namespace Subject

variable (s : Subject) (severity : Severity) (rule path message : String)

@[simp] theorem unplaced_grammar : s.unplaced.grammar = s.grammar := rfl

@[simp] theorem unplaced_profile : s.unplaced.profile = s.profile := rfl

@[simp] theorem get?_unplaced_index : s.unplaced.index.get? path = none := rfl

@[simp] theorem locate_unplaced_index : s.unplaced.index.locate path = none := by
  have hwithin : ∀ depth path, LineIndex.locateWithin .empty depth path = none := by
    intro depth
    induction depth with
    | zero => exact fun _ => rfl
    | succ depth ih =>
        intro path
        have hget : OrderedMap.empty.get? path = (none : Option Location) := rfl
        rw [LineIndex.locateWithin, hget]
        dsimp only
        split
        · exact ih _
        · rfl
  exact hwithin _ _

@[simp] theorem report_unplaced :
    s.unplaced.report severity rule path message = .plain severity rule path message := by
  unfold report
  rw [locate_unplaced_index]
  rfl

end Subject

section

variable (s : Subject) (n : String) (rule : ElementRule)

theorem Vocabulary.map_unplaced_entry :
    (entry s n rule).map unplaced = entry s.unplaced n rule := by
  unfold entry
  rw [Subject.unplaced_grammar]
  split
  · simp [unknownElement]
  · simp [attributes, unknownElement, Function.comp_def]

theorem Containment.map_unplaced_ofEntry :
    (ofEntry s n rule).map unplaced = ofEntry s.unplaced n rule := by
  simp [ofEntry, children, firstPart, chain, Function.comp_def]

theorem Datatype.map_unplaced_ofEntry :
    (ofEntry s n rule).map unplaced = ofEntry s.unplaced n rule := by
  unfold ofEntry
  rw [List.map_flatMap]
  refine congrArg (fun f => List.flatMap f rule.attributes.pairs) (funext fun x => ?_)
  unfold ofAttribute declared?
  rw [Subject.unplaced_grammar]
  split
  · split
    · rfl
    · unfold enumeration pattern
      rw [List.map_append]
      congr 1 <;> split <;> simp [Function.comp_def]
  · rfl

theorem Identity.map_unplaced_repeatedParts :
    (repeatedParts s n rule).map unplaced = repeatedParts s.unplaced n rule := by
  unfold repeatedParts
  rw [List.map_filterMap]
  refine List.filterMap_congr fun x _ => ?_
  dsimp only
  split <;> simp

theorem Alternatives.map_unplaced_entry :
    (entry s n rule).map unplaced = entry s.unplaced n rule := by
  have hincomplete : (incomplete s n rule).map unplaced = incomplete s.unplaced n rule := by
    unfold incomplete
    dsimp only
    split <;> simp
  have hconflicts : (conflicts s n rule).map unplaced = conflicts s.unplaced n rule := by
    unfold conflicts
    rw [List.map_flatMap]
    refine congrArg (fun f => List.flatMap f _) (funext fun g => ?_)
    unfold groupConflicts
    split <;> simp [Function.comp_def]
  have hempty : (emptyGroups s n rule).map unplaced = emptyGroups s.unplaced n rule := by
    simp [emptyGroups, Function.comp_def]
  have hmembers : (invalidMembers s n rule).map unplaced = invalidMembers s.unplaced n rule := by
    simp [invalidMembers, choicePlace, Function.comp_def]
  have hoverlap : (overlap s n rule).map unplaced = overlap s.unplaced n rule := by
    simp [overlap, choicePlace, Function.comp_def]
  unfold entry
  rw [Subject.unplaced_grammar]
  split <;> simp only [List.map_append, hincomplete, hconflicts, hempty, hmembers, hoverlap]

theorem Strictness.map_unplaced_bounds (e : Element) (path child : String)
    (label : Option String) : (bounds s n e path child label).map unplaced =
      bounds s.unplaced n e path child label := by
  unfold bounds
  split
  · split
    · simp
    · unfold loosenedBounds
      dsimp only
      rw [List.map_append]
      congr 1
      · split <;> simp
      · split
        · rfl
        · split <;> simp
  · rfl

theorem Strictness.map_unplaced_entry :
    (entry s n rule).map unplaced = entry s.unplaced n rule := by
  unfold entry
  rw [Subject.unplaced_grammar]
  split
  · rfl
  · have hchildren : (missingChildren s n rule).map unplaced =
        missingChildren s.unplaced n rule := by
      unfold missingChildren
      split <;> simp [Function.comp_def]
    have hattributes : (missingAttributes s n rule).map unplaced =
        missingAttributes s.unplaced n rule := by
      unfold missingAttributes
      split <;> simp [Function.comp_def]
    simp only [List.map_append, hchildren, hattributes]
    simp [cardinalities, loosenedAttributes, undeclared, List.map_flatMap, map_unplaced_bounds,
      Function.comp_def, Subject.declares]

theorem Strictness.map_unplaced_missingChain (documentType : String) :
    (missingChain s documentType).map unplaced = missingChain s.unplaced documentType := by
  unfold missingChain
  rw [Subject.unplaced_grammar]
  split
  · simp [missingElement, Function.comp_def, Subject.declares]
  · rfl

/-- Where the parts of a profile stand decides only where the findings are. -/
theorem map_unplaced_check (c : Category) : (c.check s).map unplaced = c.check s.unplaced := by
  have hknown : s.unplaced.knownElements = s.knownElements := rfl
  cases c with
  | vocabulary =>
      simp [Category.check, Vocabulary.check, Vocabulary.documentTypes, List.map_flatMap,
        Vocabulary.map_unplaced_entry, Function.comp_def]
  | containment =>
      simp [Category.check, Containment.check_eq, List.map_flatMap, hknown,
        Containment.map_unplaced_ofEntry]
  | datatype =>
      simp [Category.check, Datatype.check_eq, List.map_flatMap, hknown,
        Datatype.map_unplaced_ofEntry]
  | identity =>
      simp [Category.check, Identity.check, Identity.undeclaredTypes, List.map_flatMap,
        Identity.map_unplaced_repeatedParts, Function.comp_def, Subject.declares]
  | choice =>
      simp [Category.check, Alternatives.check, List.map_flatMap, Alternatives.map_unplaced_entry]
  | strictness =>
      simp [Category.check, Strictness.check, List.map_flatMap, hknown,
        Strictness.map_unplaced_entry, Strictness.map_unplaced_missingChain]

end

/-! ## Findings with any settings -/

section

variable {p q : Restriction} {m : Model} {i j : LineIndex} {settings : Settings} {x : Diagnostic}

/-- What is found, places aside: the findings of the categories that are serious enough. -/
theorem mem_map_unplaced_validate_iff {s : Subject} : x ∈ (validate settings s).map unplaced ↔
    x.severity.atLeast settings.minimum = true ∧
      ∃ c ∈ settings.categories, x ∈ c.check s.unplaced := by
  simp only [← map_unplaced_check, List.mem_map]
  constructor
  · rintro ⟨d, hd, rfl⟩
    obtain ⟨hminimum, c, hc, hd⟩ := mem_validate hd
    exact ⟨hminimum, c, hc, d, hd, rfl⟩
  · rintro ⟨hminimum, c, hc, d, hd, rfl⟩
    -- If the finding was dropped, then for one that differs from it in nothing but its place.
    obtain ⟨k, hk, hseverity, hsame⟩ := exists_mem_validate_of_mem hc hd hminimum
    exact ⟨k, hk, unplaced_eq_iff.2 ⟨hseverity, sameFinding_iff.1 hsame⟩⟩

/-- Profiles that say the same have the same findings, wherever their parts stand. -/
theorem SameProfile.mem_validate_iff (h : SameProfile p q) :
    x ∈ (validate settings ⟨m, p, i⟩).map unplaced ↔
      x ∈ (validate settings ⟨m, q, j⟩).map unplaced := by
  rw [mem_map_unplaced_validate_iff, mem_map_unplaced_validate_iff]
  refine and_congr_right fun _ => exists_congr fun c => and_congr_right fun _ => ?_
  exact h.mem_check_iff c (i := .empty)

end

end GrammarProfile.Validation
