import GrammarProfile.Proofs.Readings
import GrammarProfile.Proofs.Reorder
import GrammarProfile.Proofs.Unordered

/-!
Profiles whose pairs have moved. Where nothing is wrong with a profile, nothing is wrong with it
once its pairs have moved, and what is read from it says the same. So putting a profile into order
does not change what is found in it.
-/
namespace GrammarProfile.Profile

open GrammarProfile.Validation (SameProfile SameRule)
open GrammarProfile.Yaml (Value Pairs)
open GrammarProfile.Yaml.Value (Rearranged)

section Rel

variable {α β : Type} {rel : α → α → Prop} {x y : Option α} {a : α}

theorem exists_rel_of_some (h : Option.Rel rel x y) (hx : x = some a) :
    ∃ b, y = some b ∧ rel a b := by
  subst hx
  cases h with
  | some hvalue => exact ⟨_, rfl, hvalue⟩

theorem exists_of_rel_some (h : Option.Rel rel x y) (hy : y = some a) :
    ∃ b, x = some b ∧ rel b a := by
  subst hy
  cases h with
  | some hvalue => exact ⟨_, rfl, hvalue⟩

theorem map_eq_of_rel {f : α → β} (h : Option.Rel rel x y)
    (hf : ∀ u, x = some u → ∀ t, rel u t → f u = f t) : x.map f = y.map f := by
  cases h with
  | none => rfl
  | some hvalue => exact congrArg some (hf _ rfl _ hvalue)

end Rel

/-! ## Sections -/

section Sections

variable {v w : Option Value} {inner : Pairs}

theorem IsSection.moved (h : IsSection v inner) (hmoved : Option.Rel Rearranged v w) :
    ∃ after, IsSection w after ∧
      ∀ n, Option.Rel Rearranged (Pairs.get? inner n) (Pairs.get? after n) := by
  cases h with
  | missing =>
      cases hmoved
      exact ⟨[], .missing, fun _ => .none⟩
  | null =>
      cases hmoved with
      | some hvalue =>
          cases hvalue
          exact ⟨[], .null, fun _ => .none⟩
  | mapping hkeyed =>
      cases hmoved with
      | @some _ u hvalue =>
          obtain ⟨after, rfl⟩ := hvalue.exists_mapping
          exact ⟨after, .mapping (hvalue.keyed hkeyed), fun n => hvalue.get?_rel (hkeyed.once n)⟩

theorem IsSection.distinct (h : IsSection v inner) (hv : ∀ u, v = some u → u.Distinct) :
    ∀ n u, Pairs.get? inner n = some u → u.Distinct := by
  intro n u hu
  cases h with
  | mapping _ => exact ((hv _ rfl).pairs? rfl).2 _ (Pairs.mem_of_get? hu)
  | _ => exact absurd hu (by simp)

end Sections

/-! ## What is wrong with a value -/

/-- If nothing is wrong with a value, nothing is once its pairs have moved. -/
def Steady {α : Type} (convert : Value → Shaped α) : Prop :=
  ∀ v w, v.Distinct → Rearranged v w → (convert v).flaws = [] → (convert w).flaws = []

section Steady

variable {α β : Type} {convert : Value → Shaped α}

theorem Steady.of_eq (h : ∀ v w, Rearranged v w → convert v = convert w) : Steady convert := by
  intro v w _ hmoved hflaws
  rwa [← h v w hmoved]

theorem Steady.bind_pure (h : Steady convert) (f : α → β) :
    Steady fun v => convert v >>= fun a => pure (f a) := by
  intro v w hv hmoved hflaws
  exact Shaped.flaws_bind_eq_nil.2 ⟨h v w hv hmoved (Shaped.flaws_bind_eq_nil.1 hflaws).1, rfl⟩

end Steady

namespace Shape

variable {α : Type} {path : String} {v w : Value}

theorem text_moved (h : Rearranged v w) : text path v = text path w := by cases h <;> rfl

theorem list_moved {convert : String → Value → Shaped (Option α)} (h : Rearranged v w) :
    list path convert v = list path convert w := by cases h <;> rfl

theorem cardinality_moved (h : Rearranged v w) : cardinality path v = cardinality path w := by
  cases h <;> rfl

theorem steady_foldMapping {step : α → String → Value → Shaped α} {acc : α}
    (hsame : ∀ a b n u, (step a n u).flaws = (step b n u).flaws)
    (hstep : ∀ n, Steady (step acc n)) : Steady (foldMapping path step acc) := by
  intro v w hv hmoved hflaws
  obtain ⟨inner, hinner, hsteps⟩ := section_of_foldMapping hv hflaws
  obtain ⟨after, hafter, hrel⟩ := hinner.moved (.some hmoved)
  rw [foldMapping_section hafter, flaws_foldPairs hsame hafter.keyed]
  intro n u hu
  -- What is found under a name now was found there before, perhaps in another order.
  obtain ⟨t, ht, hvalue⟩ := exists_of_rel_some (hrel n) hu
  obtain ⟨hdistinct, before, hclean⟩ := hsteps n t ht
  exact hstep n t u hdistinct hvalue ((hsame acc before n t).trans hclean)

theorem steady_attributeField (rule : AttributeRule) (n : String) :
    Steady (attributeField path rule n) := by
  refine Steady.of_eq fun v w hmoved => ?_
  unfold attributeField
  dsimp only
  split
  · cases hmoved <;> rfl
  · rw [list_moved hmoved]
  · cases hmoved <;> rfl

theorem flaws_attributeField (a b : AttributeRule) (n : String) (u : Value) :
    (attributeField path a n u).flaws = (attributeField path b n u).flaws := by
  unfold attributeField
  dsimp only
  split
  · split <;> rfl
  · rfl
  · rfl

theorem steady_attributeRule : Steady (attributeRule path) :=
  steady_foldMapping flaws_attributeField fun n => steady_attributeField .empty n

theorem steady_childEntry (rule : ElementRule) (n : String) :
    Steady (childEntry path rule n) := by
  have hmember : ∀ (here : String) (members : OrderedMap (Option String)) (c : String)
      (v w : Value), Rearranged v w → member here members c v = member here members c w := by
    intro here members c v w hmoved
    unfold member
    rw [cardinality_moved hmoved]
  unfold childEntry
  dsimp only
  split
  · exact (steady_foldMapping (fun _ _ _ _ => rfl) fun c =>
      .of_eq fun v w hmoved => hmember _ _ c v w hmoved).bind_pure _
  · refine Steady.of_eq fun v w hmoved => ?_
    rw [hmember _ _ n v w hmoved]

theorem steady_elementField (rule : ElementRule) (n : String) :
    Steady (elementField path rule n) := by
  intro v w hv hmoved
  unfold elementField
  dsimp only
  split
  · rw [text_moved hmoved]
    exact id
  · exact (steady_foldMapping (fun _ _ _ _ => rfl) fun a =>
      steady_attributeRule.bind_pure _).bind_pure _ v w hv hmoved
  · exact steady_foldMapping flaws_childEntry (steady_childEntry rule) v w hv hmoved
  · rw [list_moved hmoved]
    exact id
  · exact id

theorem steady_profileField (r : Restriction) (n : String) :
    Steady (profileField path r n) := by
  intro v w hv hmoved
  unfold profileField
  dsimp only
  split
  · rw [text_moved hmoved]
    exact id
  · rw [text_moved hmoved]
    exact id
  · rw [text_moved hmoved]
    exact id
  · rw [list_moved hmoved]
    exact id
  · exact (steady_foldMapping (fun _ _ _ _ => rfl) fun n =>
      (steady_foldMapping flaws_elementField
        (steady_elementField .empty)).bind_pure _).bind_pure _ v w hv hmoved
  · exact id

end Shape

/-! ## What a value says -/

namespace Shape

variable {path : String} {w : Value}

/-- A part of the result that one key sets, from a value that may have moved in itself. -/
theorem foldPairs_part_moved {α β : Type} {parent : String}
    {step : α → String → Value → Shaped α} {a b : Pairs} (part : α → β) (name : String)
    (read : Value → β → β)
    (hset : ∀ u before, part (step before name u).result = read u (part before))
    (hkeep : ∀ before n u, n ≠ name → part (step before n u).result = part before)
    (hread : ∀ u t old, Rearranged u t → read u old = read t old) (ha : a.Keyed) (hb : b.Keyed)
    (hrel : ∀ n, Option.Rel Rearranged (Pairs.get? a n) (Pairs.get? b n)) (acc : α) :
    part (foldPairs parent step acc a).result = part (foldPairs parent step acc b).result := by
  rw [foldPairs_part part read (fun u _ => hset u) hkeep ha,
    foldPairs_part part read (fun u _ => hset u) hkeep hb,
    map_eq_of_rel (hrel name) fun u _ t hmoved => hread u t (part acc) hmoved]

theorem required_attributeField {rule : AttributeRule} {n : String} (h : n ≠ "required") :
    (attributeField path rule n w).result.required = rule.required := by
  unfold attributeField
  dsimp only
  split
  · exact absurd rfl h
  · rfl
  · rfl

theorem values_attributeField {rule : AttributeRule} {n : String} (h : n ≠ "values") :
    (attributeField path rule n w).result.values = rule.values := by
  unfold attributeField
  dsimp only
  split
  · split <;> rfl
  · exact absurd rfl h
  · rfl

end Shape

theorem AttributeRule.eq_of_parts {a b : AttributeRule} (hrequired : a.required = b.required)
    (hvalues : a.values = b.values) : a = b := by
  cases a
  cases b
  cases hrequired
  cases hvalues
  rfl

section Rules

variable {path n : String} {v w : Value}

theorem attributeRule_moved (hv : v.Distinct) (hmoved : Rearranged v w)
    (hflaws : (attributeRule path v).flaws = []) :
    (attributeRule path v).result = (attributeRule path w).result := by
  obtain ⟨fields, hfields, _⟩ := Shape.section_of_foldMapping hv hflaws
  obtain ⟨after, hafter, hrel⟩ := hfields.moved (.some hmoved)
  unfold attributeRule
  rw [Shape.foldMapping_section hfields, Shape.foldMapping_section hafter]
  refine AttributeRule.eq_of_parts ?_ ?_
  · refine Shape.foldPairs_part_moved AttributeRule.required "required"
      (fun u old => (Shape.attributeField path ⟨old, []⟩ "required" u).result.required)
      (fun u before => ?_) (fun _ _ _ hn => Shape.required_attributeField hn)
      (fun u t old hvalue => ?_) hfields.keyed hafter.keyed hrel .empty
    · cases u <;> rfl
    · cases hvalue <;> rfl
  · refine Shape.foldPairs_part_moved AttributeRule.values "values"
      (fun u _ => (Shape.list (path ++ "." ++ "values") Shape.attributeValue u).result)
      (fun _ _ => rfl) (fun _ _ _ hn => Shape.values_attributeField hn)
      (fun u t _ hvalue => ?_) hfields.keyed hafter.keyed hrel .empty
    rw [Shape.list_moved hvalue]

theorem alternatives_entryRule {fields children members : Pairs} (h : fields.Keyed)
    (hsection : IsSection (Pairs.get? fields "children") children)
    (hmembers : IsSection (Pairs.get? children choiceKey) members) (c : String) :
    (entryRule path fields).result.alternatives.get? c = (Pairs.get? members c).map fun x =>
      (Shape.cardinality (childrenPath path ++ "." ++ choiceKey ++ "." ++ c) x).result := by
  have hchoice : (Shape.listing (entryRule path fields).result).2 = _ :=
    choice_entryRule h hsection
  refine (congrArg (fun l => l.1.get? c) hchoice).trans ?_
  cases hw : Pairs.get? children choiceKey with
  | none =>
      rw [hw] at hmembers
      cases hmembers
      rfl
  | some w =>
      rw [hw] at hmembers
      rw [Option.map_some, Option.getD_some, Shape.foldMapping_section hmembers]
      exact (Shape.get?_foldPairs (fun _ _ _ => rfl) hmembers.keyed ∅ c).trans Option.or_none

theorem declaresChoice_entryRule {fields children : Pairs} (h : fields.Keyed)
    (hsection : IsSection (Pairs.get? fields "children") children) :
    (entryRule path fields).result.declaresChoice = (Pairs.get? children choiceKey).isSome := by
  have hchoice : (Shape.listing (entryRule path fields).result).2 = _ :=
    choice_entryRule h hsection
  refine (congrArg Prod.snd hchoice).trans ?_
  cases Pairs.get? children choiceKey <;> rfl

/-- What an entry says, also when its pairs have moved. -/
theorem sameRule_readEntry (hv : v.Distinct) (hmoved : Rearranged v w)
    (hflaws : (readEntry n v).flaws = []) :
    SameRule (readEntry n v).result (readEntry n w).result := by
  have hclean : (Shape.elementEntry "profile.elements" ∅ n v).flaws = [] :=
    Shaped.flaws_bind_eq_nil.2 ⟨hflaws, rfl⟩
  obtain ⟨fields, children, hentry⟩ := Shape.entry_of_elementEntry hv hclean
  obtain ⟨attributes, hattributes⟩ := hentry.attributes
  obtain ⟨members, hmembers⟩ := hentry.members
  -- The sections of the entry, each with what it has become.
  obtain ⟨fields', hfields', hfield⟩ := hentry.entry.moved (.some hmoved)
  obtain ⟨attributes', hattributes', hattribute⟩ := hattributes.moved (hfield _)
  obtain ⟨children', hchildren', hchild⟩ := hentry.listed.moved (hfield _)
  obtain ⟨members', hmembers', hmember⟩ := hmembers.moved (hchild _)
  have hinner : ∀ a x, Pairs.get? attributes a = some x → x.Distinct :=
    hattributes.distinct (hentry.entry.distinct (fun u hu => by cases hu; exact hv) _)
  have hkeyed := hentry.entry.keyed
  have hkeyed' := hfields'.keyed
  rw [readEntry_section hentry.entry] at hflaws ⊢
  rw [readEntry_section hfields']
  have hattributeFlaws := ((flaws_entryRule_iff hkeyed hattributes hentry.listed).1 hflaws).1
  refine ⟨fun a => ?_, fun c => ?_, fun c => ?_, ?_, ?_⟩
  · rw [attributes_entryRule hkeyed hattributes, attributes_entryRule hkeyed' hattributes']
    exact map_eq_of_rel (hattribute a) fun x hx y hxy =>
      attributeRule_moved (hinner a x hx) hxy (hattributeFlaws a x hx)
  · rw [children_entryRule hkeyed hentry.listed, children_entryRule hkeyed' hchildren']
    split
    · rfl
    · exact map_eq_of_rel (hchild c) fun x _ y hxy => by rw [Shape.cardinality_moved hxy]
  · rw [alternatives_entryRule hkeyed hentry.listed hmembers,
      alternatives_entryRule hkeyed' hchildren' hmembers']
    exact map_eq_of_rel (hmember c) fun x _ y hxy => by rw [Shape.cardinality_moved hxy]
  · rw [parts_entryRule hkeyed, parts_entryRule hkeyed']
    exact congrArg (Option.getD · []) (map_eq_of_rel (hfield _) fun x _ y hxy => by
      rw [Shape.list_moved hxy])
  · rw [declaresChoice_entryRule hkeyed hentry.listed, declaresChoice_entryRule hkeyed' hchildren']
    have hpart := hchild choiceKey
    generalize Pairs.get? children choiceKey = x, Pairs.get? children' choiceKey = y at hpart ⊢
    cases hpart <;> rfl

end Rules

/-! ## What a profile says -/

/-- A profile that is accepted is also read when its pairs have moved, and says the same. -/
theorem Accepted.moved {text : String} {r : Restriction} {root fields elements : Pairs}
    {after : Value} (h : Accepted text r root fields elements)
    (haccepted : (Profile.read text).profile = some r)
    (hmoved : Rearranged (.mapping root) after) (index : LineIndex) :
    ∃ moved, Reading.ofValue index after = ⟨some moved, [], index⟩ ∧ SameProfile r moved := by
  obtain ⟨hflaws, hresult⟩ := h.ofTree haccepted
  have hroot := (Yaml.distinct_of_read h.read).pairs? rfl
  have hbelow := (hroot.2 _ (Pairs.mem_of_get? h.profile)).pairs? rfl
  have hdistinct : ∀ n u, Pairs.get? fields n = some u → u.Distinct :=
    fun n u hu => hbelow.2 _ (Pairs.mem_of_get? hu)
  -- The root keeps what stands under its key for the profile.
  obtain ⟨root', rfl⟩ := hmoved.exists_mapping
  obtain ⟨u, hprofile', hbelow'⟩ :=
    exists_rel_of_some (hmoved.get?_rel (h.different.not_isKey "profile")) h.profile
  obtain ⟨fields', rfl⟩ := hbelow'.exists_mapping
  have hkeyed' := hbelow'.keyed h.keyed
  have hfield := fun n => hbelow'.get?_rel (h.keyed.once n)
  obtain ⟨elements', helements', helement⟩ := h.listed.moved (hfield _)
  have hclean : (Restriction.ofTree fields').flaws = [] := by
    rw [flaws_ofTree hkeyed']
    intro n u hu
    obtain ⟨t, ht, hvalue⟩ := exists_of_rel_some (hfield n) hu
    exact Shape.steady_profileField _ n t u (hdistinct n t ht) hvalue
      ((flaws_ofTree h.keyed).1 hflaws n t ht)
  refine ⟨_, ofValue_eq_of_tree hprofile' hclean, ?_, fun n => ?_⟩
  · rw [← hresult, documentTypes_ofTree_field h.keyed, documentTypes_ofTree_field hkeyed']
    exact congrArg (Option.getD · []) (map_eq_of_rel (hfield _) fun x _ y hxy => by
      rw [Shape.list_moved hxy])
  · rw [h.get?_elements haccepted, elements_ofTree_get? hkeyed' helements']
    have hinner := h.listed.distinct (hdistinct _) n
    have hentries := h.flaws_readEntry haccepted n
    have hpart := helement n
    generalize Pairs.get? elements n = x, Pairs.get? elements' n = y at hpart hinner hentries ⊢
    cases hpart with
    | none => exact .none
    | some hvalue => exact .some (sameRule_readEntry (hinner _ rfl) hvalue (hentries _ rfl))

end GrammarProfile.Profile

namespace GrammarProfile.Cascade

open GrammarProfile.Grammar (Model)
open GrammarProfile.Profile (Accepted IsEntry IsSection Reading)
open GrammarProfile.Validation (unplaced validate)
open GrammarProfile.Yaml (Value Pairs)
open GrammarProfile.Yaml.Value (Rearranged)

/-! ## Profiles in order -/

theorem length_choices_le_one {children : Pairs} (h : children.Keyed) :
    (children.filter fun p => isChoiceKey p.1).length ≤ 1 := by
  have hkey : ∀ p ∈ children.filter fun p => isChoiceKey p.1,
      Pairs.isKey Profile.choiceKey p.1 = true := by
    intro p hp
    obtain ⟨hp, hchoice⟩ := List.mem_filter.1 hp
    obtain ⟨n, hn⟩ := h.textual p hp
    rw [hn] at hchoice ⊢
    have hname : n = Profile.choiceKey := by
      simpa [isChoiceKey, Value.string?, Value.untagged] using hchoice
    exact Pairs.isKey_iff.2 (congrArg _ hname)
  have honce : (children.filter fun p => isChoiceKey p.1).Pairwise fun p q =>
      Pairs.isKey Profile.choiceKey p.1 = true → ¬Pairs.isKey Profile.choiceKey q.1 = true :=
    (h.once Profile.choiceKey).sublist List.filter_sublist
  generalize children.filter (fun p => isChoiceKey p.1) = choices at hkey honce
  match choices with
  | [] => exact Nat.zero_le 1
  | [_] => exact Nat.le_refl 1
  | p :: q :: _ =>
      exact absurd (hkey q (by simp))
        ((List.pairwise_cons.1 honce).1 q List.mem_cons_self (hkey p List.mem_cons_self))

theorem oneChoice_of_isEntry {v : Value} {fields children : Pairs} (h : IsEntry v fields children)
    (grammar : Model) (name : String) : OneChoice grammar name v := by
  intro inner listed hinner hlisted _
  have hentry := h.entry
  cases hentry with
  | null => cases hinner
  | mapping _ =>
      obtain rfl := Option.some.inj hinner
      have hsection := h.listed
      rw [hlisted] at hsection
      cases hsection with
      | mapping hkeyed => exact length_choices_le_one hkeyed

/-- Putting an accepted profile into order only moves what is in it. -/
theorem rearranged_reorderTree {text : String} {r : Profile.Restriction}
    {root fields elements : Pairs} (h : Accepted text r root fields elements) (grammar : Model) :
    Rearranged (.mapping root) ((reorderTree grammar (.mapping root)).getD (.mapping root)) := by
  have hnone : (Pairs.get? fields "elements").bind Value.pairs? = none →
      reorderTree grammar (.mapping root) = none := by
    intro helements
    unfold reorderTree Tree.elements?
    rw [h.below, Option.bind_some, helements]
    rfl
  cases helements : Pairs.get? fields "elements" with
  | none =>
      rw [hnone (by rw [helements]; rfl)]
      exact .same _
  | some v =>
      have hlisted := h.listed
      rw [helements] at hlisted
      cases hlisted with
      | null =>
          rw [hnone (by rw [helements]; rfl)]
          exact .same _
      | mapping hkeyed =>
          have hdistinct := Yaml.distinct_of_read h.read
          obtain ⟨hdifferent, hvalues⟩ := distinct_entries hdistinct h.below helements
          rw [reorderTree_eq grammar h.below helements, Option.getD_some,
            rearranged_editElements_iff hdistinct h.below helements,
            rearranged_orderElements_iff hdifferent hvalues]
          · refine ⟨hkeyed.textual, fun n v hv => ?_⟩
            obtain ⟨inner, children, hentry⟩ := h.entries.entry n v hv
            exact oneChoice_of_isEntry hentry grammar n
          · intro p hp
            obtain ⟨n, hn⟩ := hkeyed.textual p hp
            rw [hn]
            rfl

theorem reorder_eq_ok {text : String} {r : Profile.Restriction} {root fields elements : Pairs}
    (h : Accepted text r root fields elements) (grammar : Model) :
    reorder grammar text =
      .ok ((reorderTree grammar (.mapping root)).elim text Tree.render) := by
  unfold reorder editText
  rw [h.read]
  dsimp only
  rw [h.below]
  cases reorderTree grammar (.mapping root) <;> rfl

/-- Putting a profile into order leaves what any settings let validation find in it, whatever
grammar it is held against; only the places may change. -/
theorem reorder_keeps_findings {grammar : Model} {text : String} {r : Profile.Restriction}
    (h : (Profile.read text).profile = some r) : ∃ tree, Yaml.read text = .ok tree ∧
      reorder grammar text = .ok ((reorderTree grammar tree).elim text Tree.render) ∧
      ∀ index, ∃ moved,
        Reading.ofValue index ((reorderTree grammar tree).getD tree) = ⟨some moved, [], index⟩ ∧
        ∀ m settings x, x ∈ (validate settings ⟨m, moved, index⟩).map unplaced ↔
          x ∈ (validate settings ⟨m, r, (Profile.read text).index⟩).map unplaced := by
  obtain ⟨root, fields, elements, haccepted⟩ := Profile.accepted_of_read h
  refine ⟨.mapping root, haccepted.read, reorder_eq_ok haccepted grammar, fun index => ?_⟩
  obtain ⟨moved, hread, hsame⟩ :=
    haccepted.moved h (rearranged_reorderTree haccepted grammar) index
  exact ⟨moved, hread, fun m settings x => hsame.symm.mem_validate_iff⟩

/-- A child before its parent. -/
def misplacedRoot : Pairs :=
  [(.string "profile", .mapping [(.string "elements", .mapping [(.string "b", .null),
    (.string "a", .mapping [(.string "children", .mapping [(.string "b", .null)])])])])]

def misplacedProfile : String :=
  "profile: \x7belements: \x7bb: , a: \x7bchildren: \x7bb: \x7d\x7d\x7d\x7d"

theorem reorder_misplaced_keeps : ∃ r, (Profile.read misplacedProfile).profile = some r ∧
    ∃ tree, Yaml.read misplacedProfile = .ok tree ∧
      reorder ⟨∅, ∅, none⟩ misplacedProfile =
        .ok ((reorderTree ⟨∅, ∅, none⟩ tree).elim misplacedProfile Tree.render) ∧
      ∀ index, ∃ moved, Reading.ofValue index ((reorderTree ⟨∅, ∅, none⟩ tree).getD tree) =
          ⟨some moved, [], index⟩ ∧
        ∀ m settings x, x ∈ (validate settings ⟨m, moved, index⟩).map unplaced ↔
          x ∈ (validate settings ⟨m, r, (Profile.read misplacedProfile).index⟩).map unplaced := by
  have hread : Yaml.read misplacedProfile = .ok (.mapping misplacedRoot) :=
    Value.read_eq_ok rfl (by decide +kernel)
  have hprofile := congrArg Reading.profile (Profile.read_eq_of_tree hread rfl rfl)
  exact ⟨_, hprofile, reorder_keeps_findings hprofile⟩

end GrammarProfile.Cascade
