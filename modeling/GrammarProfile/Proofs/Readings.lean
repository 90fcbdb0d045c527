import GrammarProfile.Proofs.Edits

/-!
What is read from the sections of a profile: each rule of an entry, and each part of a rule, comes
from the value under its own key.
-/
namespace GrammarProfile.Profile

open GrammarProfile.Yaml (Value Pairs)

namespace Shape

variable {α β : Type} {parent path : String} {step : α → String → Value → Shaped α} {pairs : Pairs}
  {v : Value}

/-! ## Folds whose flaws do not depend on what is read before -/

theorem flaws_foldPairs_congr (hstep : ∀ a b n w, (step a n w).flaws = (step b n w).flaws)
    (a b : α) (pairs : Pairs) :
    (foldPairs parent step a pairs).flaws = (foldPairs parent step b pairs).flaws := by
  induction pairs generalizing a b with
  | nil => rfl
  | cons p rest ih =>
      obtain ⟨key, w⟩ := p
      cases key with
      | string n =>
          have hcons : ∀ c, (foldPairs parent step c ((.string n, w) :: rest)).flaws =
              (step c n w).flaws ++ (foldPairs parent step (step c n w).result rest).flaws :=
            fun _ => rfl
          rw [hcons, hcons, hstep a b, ih]
      | _ => exact congrArg (_ :: ·) (ih a b)

theorem flaws_foldPairs (hstep : ∀ a b n w, (step a n w).flaws = (step b n w).flaws)
    (h : pairs.Keyed) (acc : α) : (foldPairs parent step acc pairs).flaws = [] ↔
      ∀ n w, Pairs.get? pairs n = some w → (step acc n w).flaws = [] := by
  induction h using Pairs.Keyed.induction with
  | nil => exact iff_of_true rfl fun n w hw => absurd hw (by simp)
  | cons m u rest hm hrest ih =>
      have hcons : (foldPairs parent step acc ((.string m, u) :: rest)).flaws =
          (step acc m u).flaws ++ (foldPairs parent step (step acc m u).result rest).flaws := rfl
      rw [hcons, flaws_foldPairs_congr hstep _ acc, List.append_eq_nil_iff, ih]
      constructor
      · rintro ⟨hfirst, hothers⟩ n w hw
        rw [Pairs.get?_cons_string] at hw
        split at hw
        · next hn =>
            cases hw
            exact hn ▸ hfirst
        · exact hothers n w hw
      · intro hall
        refine ⟨hall m u ?_, fun n w hw => hall n w ?_⟩
        · rw [Pairs.get?_cons_string, if_pos rfl]
        · have hne : n ≠ m := fun e => hm (e ▸ Pairs.mem_names_of_get? hw)
          rw [Pairs.get?_cons_string, if_neg hne, hw]

theorem flaws_foldMapping_congr (hstep : ∀ a b n w, (step a n w).flaws = (step b n w).flaws)
    (a b : α) (v : Value) :
    (foldMapping path step a v).flaws = (foldMapping path step b v).flaws := by
  cases v with
  | mapping pairs => exact flaws_foldPairs_congr hstep a b pairs
  | _ => rfl

/-- A part of the result that no key sets. -/
theorem foldPairs_keep (part : α → β)
    (hkeep : ∀ before n w, part (step before n w).result = part before) (acc : α) (pairs : Pairs) :
    part (foldPairs parent step acc pairs).result = part acc := by
  induction pairs generalizing acc with
  | nil => rfl
  | cons p rest ih =>
      obtain ⟨key, w⟩ := p
      cases key with
      | string n => exact (ih _).trans (hkeep acc n w)
      | _ => exact ih acc

theorem foldMapping_keep (part : α → β)
    (hkeep : ∀ before n w, part (step before n w).result = part before) (acc : α) (v : Value) :
    part (foldMapping path step acc v).result = part acc := by
  cases v with
  | mapping pairs => exact foldPairs_keep part hkeep acc pairs
  | _ => rfl

/-- Where each key inserts what its value is converted to, that is found under the key. -/
theorem get?_foldPairs {γ : Type} {step : OrderedMap γ → String → Value → Shaped (OrderedMap γ)}
    {convert : String → Value → γ}
    (hstep : ∀ before n w, (step before n w).result = before.insert n (convert n w))
    (h : pairs.Keyed) (acc : OrderedMap γ) (a : String) :
    (foldPairs parent step acc pairs).result.get? a =
      ((Pairs.get? pairs a).map (convert a)).or (acc.get? a) := by
  have hresult : (foldPairs parent step acc pairs).result.get? a =
      ((Pairs.get? pairs a).map fun w => some (convert a w)).getD (acc.get? a) := by
    refine foldPairs_part (fun rules : OrderedMap γ => rules.get? a)
      (fun w _ => some (convert a w)) (fun w _ before => ?_) (fun before n w hn => ?_) h acc
    · rw [hstep, OrderedMap.get?_insert, if_pos rfl]
    · rw [hstep, OrderedMap.get?_insert, if_neg (Ne.symm hn)]
  rw [hresult]
  cases Pairs.get? pairs a <;> rfl

theorem foldMapping_section (h : IsSection (some v) pairs) (acc : α) :
    foldMapping path step acc v = foldPairs path step acc pairs := by
  cases h with
  | null => rfl
  | mapping _ => rfl

/-! ## Steps -/

theorem flaws_childEntry (a b : ElementRule) (n : String) (w : Value) :
    (childEntry path a n w).flaws = (childEntry path b n w).flaws := by
  unfold childEntry
  dsimp only
  split
  · exact congrArg (· ++ []) (flaws_foldMapping_congr (fun _ _ _ _ => rfl) _ _ w)
  · rfl

theorem flaws_elementField (a b : ElementRule) (n : String) (w : Value) :
    (elementField path a n w).flaws = (elementField path b n w).flaws := by
  unfold elementField
  dsimp only
  split
  · rfl
  · rfl
  · exact flaws_foldMapping_congr flaws_childEntry a b w
  · rfl
  · rfl

theorem flaws_profileField (a b : Restriction) (n : String) (w : Value) :
    (profileField path a n w).flaws = (profileField path b n w).flaws := by
  unfold profileField
  dsimp only
  split <;> rfl

theorem attributes_elementField {rule : ElementRule} {n : String} {w : Value}
    (h : n ≠ "attributes") : (elementField path rule n w).result.attributes = rule.attributes := by
  have hchild : ∀ (p : String) (before : ElementRule) (c : String) (u : Value),
      (childEntry p before c u).result.attributes = before.attributes := by
    intro p before c u
    unfold childEntry
    dsimp only
    split <;> rfl
  unfold elementField
  dsimp only
  split
  · rfl
  · exact absurd rfl h
  · exact foldMapping_keep _ (hchild _) rule w
  · rfl
  · rfl

theorem parts_elementField {rule : ElementRule} {n : String} {w : Value}
    (h : n ≠ "structure") : (elementField path rule n w).result.parts = rule.parts := by
  have hchild : ∀ (p : String) (before : ElementRule) (c : String) (u : Value),
      (childEntry p before c u).result.parts = before.parts := by
    intro p before c u
    unfold childEntry
    dsimp only
    split <;> rfl
  unfold elementField
  dsimp only
  split
  · rfl
  · rfl
  · exact foldMapping_keep _ (hchild _) rule w
  · exact absurd rfl h
  · rfl

/-- What a rule lists, whatever else it says. -/
def listing (rule : ElementRule) :
    OrderedMap (Option String) × OrderedMap (Option String) × Bool :=
  (rule.children, rule.alternatives, rule.declaresChoice)

theorem listing_elementField {rule : ElementRule} {n : String} {w : Value}
    (h : n ≠ "children") : listing (elementField path rule n w).result = listing rule := by
  unfold elementField
  dsimp only
  split <;> first | rfl | exact absurd rfl h

theorem children_foldPairs (h : pairs.Keyed) (rule : ElementRule) (c : String) :
    (foldPairs path (childEntry path) rule pairs).result.children.get? c =
      if c = choiceKey then rule.children.get? c
      else ((Pairs.get? pairs c).map fun w =>
        some (cardinality (path ++ "." ++ c) w).result).getD (rule.children.get? c) := by
  split
  · next hc =>
      subst hc
      refine foldPairs_keep (fun rule => rule.children.get? choiceKey) (fun before n w => ?_) rule
        pairs
      unfold childEntry
      dsimp only
      split
      · rfl
      · next hn => exact (OrderedMap.get?_insert ..).trans (if_neg fun e => hn (by simp [e]))
  · next hc =>
      refine foldPairs_part (fun rule => rule.children.get? c)
        (fun w _ => some (cardinality (path ++ "." ++ c) w).result) (fun w _ before => ?_)
        (fun before n w hn => ?_) h rule
      · unfold childEntry
        rw [if_neg (by simpa using hc)]
        exact (OrderedMap.get?_insert ..).trans (if_pos rfl)
      · unfold childEntry
        dsimp only
        split
        · rfl
        · exact (OrderedMap.get?_insert ..).trans (if_neg (Ne.symm hn))

theorem choice_foldPairs (h : pairs.Keyed) (rule : ElementRule) :
    (listing (foldPairs path (childEntry path) rule pairs).result).2 =
      ((Pairs.get? pairs choiceKey).map fun w =>
        ((foldMapping (path ++ "." ++ choiceKey) (member (path ++ "." ++ choiceKey))
          rule.alternatives w).result, true)).getD (listing rule).2 := by
  refine foldPairs_part (fun rule => (listing rule).2) (fun w old => ((foldMapping
    (path ++ "." ++ choiceKey) (member (path ++ "." ++ choiceKey)) old.1 w).result, true))
    (fun w _ before => ?_) (fun before n w hn => ?_) h rule
  · unfold childEntry
    rw [if_pos (by simp)]
    rfl
  · unfold childEntry
    rw [if_neg (by simpa using hn)]
    rfl

end Shape

/-! ## Entries -/

/-- The rule that the pairs of an entry write. -/
def entryRule (path : String) (fields : Pairs) : Shaped ElementRule :=
  Shape.foldPairs path (Shape.elementField path) .empty fields

def attributeRule (path : String) (v : Value) : Shaped AttributeRule :=
  Shape.foldMapping path (Shape.attributeField path) .empty v

def attributesPath (path : String) : String := path ++ "." ++ "attributes"

def childrenPath (path : String) : String := path ++ "." ++ "children"

section Entry

variable {path : String} {fields attributes children : Pairs} {v : Value}

theorem attributes_entryRule (h : fields.Keyed)
    (hsection : IsSection (Pairs.get? fields "attributes") attributes) (a : String) :
    (entryRule path fields).result.attributes.get? a = (Pairs.get? attributes a).map fun x =>
      (attributeRule (attributesPath path ++ "." ++ a) x).result := by
  have hresult : (entryRule path fields).result.attributes =
      ((Pairs.get? fields "attributes").map fun w => (Shape.foldMapping (attributesPath path)
        (Shape.attributeEntry (attributesPath path)) ∅ w).result).getD ∅ :=
    Shape.foldPairs_field (fun _ _ => rfl) (fun _ _ _ hn => Shape.attributes_elementField hn) h _
  rw [hresult]
  cases hw : Pairs.get? fields "attributes" with
  | none =>
      rw [hw] at hsection
      cases hsection
      rfl
  | some w =>
      rw [hw] at hsection
      rw [Option.map_some, Option.getD_some, Shape.foldMapping_section hsection]
      exact (Shape.get?_foldPairs (fun _ _ _ => rfl) hsection.keyed ∅ a).trans Option.or_none

theorem parts_entryRule (h : fields.Keyed) : (entryRule path fields).result.parts =
    ((Pairs.get? fields "structure").map fun w =>
      (Shape.list (path ++ "." ++ "structure") Shape.name w).result).getD [] :=
  Shape.foldPairs_field (fun _ _ => rfl) (fun _ _ _ hn => Shape.parts_elementField hn) h _

theorem elementField_children (hsection : IsSection (some v) children) (rule : ElementRule) :
    Shape.elementField path rule "children" v =
      Shape.foldPairs (childrenPath path) (Shape.childEntry (childrenPath path)) rule children :=
  Shape.foldMapping_section hsection rule

theorem children_entryRule (h : fields.Keyed)
    (hsection : IsSection (Pairs.get? fields "children") children) (c : String) :
    (entryRule path fields).result.children.get? c = if c = choiceKey then none
      else (Pairs.get? children c).map fun x =>
        (Shape.cardinality (childrenPath path ++ "." ++ c) x).result := by
  -- The key for the choice stands among the children, but what is below it is no child.
  have hresult : (entryRule path fields).result.children.get? c =
      ((Pairs.get? fields "children").map fun _ => if c = choiceKey then none
        else ((Pairs.get? children c).map fun x =>
          some (Shape.cardinality (childrenPath path ++ "." ++ c) x).result).getD none).getD none := by
    refine Shape.foldPairs_part (fun rule : ElementRule => rule.children.get? c)
      (fun _ old => if c = choiceKey then old else ((Pairs.get? children c).map fun x =>
        some (Shape.cardinality (childrenPath path ++ "." ++ c) x).result).getD old) ?_ ?_ h _
    · intro w hw before
      rw [hw] at hsection
      rw [elementField_children hsection]
      exact Shape.children_foldPairs hsection.keyed before c
    · intro before n w hn
      exact congrArg (fun l => l.1.get? c) (Shape.listing_elementField hn)
  rw [hresult]
  cases hw : Pairs.get? fields "children" with
  | none =>
      rw [hw] at hsection
      cases hsection
      simp
  | some w => cases Pairs.get? children c <;> simp

theorem choice_entryRule (h : fields.Keyed)
    (hsection : IsSection (Pairs.get? fields "children") children) :
    (Shape.listing (entryRule path fields).result).2 =
      ((Pairs.get? children choiceKey).map fun w => ((Shape.foldMapping
        (childrenPath path ++ "." ++ choiceKey)
        (Shape.member (childrenPath path ++ "." ++ choiceKey)) ∅ w).result, true)).getD
        (∅, false) := by
  have hresult : (Shape.listing (entryRule path fields).result).2 =
      ((Pairs.get? fields "children").map fun _ => ((Pairs.get? children choiceKey).map fun x =>
        ((Shape.foldMapping (childrenPath path ++ "." ++ choiceKey)
          (Shape.member (childrenPath path ++ "." ++ choiceKey)) ∅ x).result, true)).getD
          (∅, false)).getD (∅, false) := by
    refine Shape.foldPairs_part (fun rule : ElementRule => (Shape.listing rule).2)
      (fun _ old => ((Pairs.get? children choiceKey).map fun x => ((Shape.foldMapping
        (childrenPath path ++ "." ++ choiceKey)
        (Shape.member (childrenPath path ++ "." ++ choiceKey)) old.1 x).result, true)).getD old)
      ?_ ?_ h _
    · intro w hw before
      rw [hw] at hsection
      rw [elementField_children hsection]
      exact Shape.choice_foldPairs hsection.keyed before
    · intro before n w hn
      exact congrArg Prod.snd (Shape.listing_elementField hn)
  rw [hresult]
  cases hw : Pairs.get? fields "children" with
  | none =>
      rw [hw] at hsection
      cases hsection
      rfl
  | some w => rfl

theorem flaws_attributes (path : String) (hsection : IsSection (some v) attributes) :
    (Shape.elementField path .empty "attributes" v).flaws = [] ↔
      ∀ a x, Pairs.get? attributes a = some x →
        (attributeRule (attributesPath path ++ "." ++ a) x).flaws = [] := by
  have hfold : (Shape.elementField path .empty "attributes" v).flaws =
      (Shape.foldMapping (attributesPath path) (Shape.attributeEntry (attributesPath path)) ∅
        v).flaws ++ [] := rfl
  rw [hfold, List.append_nil, Shape.foldMapping_section hsection,
    Shape.flaws_foldPairs (fun _ _ _ _ => rfl) hsection.keyed]
  refine forall_congr' fun a => forall_congr' fun x => imp_congr_right fun _ => ?_
  have hentry : (Shape.attributeEntry (attributesPath path) ∅ a x).flaws =
      (attributeRule (attributesPath path ++ "." ++ a) x).flaws ++ [] := rfl
  rw [hentry, List.append_nil]

theorem flaws_children (path : String) (hsection : IsSection (some v) children) :
    (Shape.elementField path .empty "children" v).flaws = [] ↔
      ∀ c x, Pairs.get? children c = some x →
        (Shape.childEntry (childrenPath path) .empty c x).flaws = [] := by
  rw [elementField_children hsection, Shape.flaws_foldPairs Shape.flaws_childEntry hsection.keyed]

/-- What holds of every pair of a section holds of the section, if there is one. -/
theorem forall_section {p : String → Value → Prop} {q : Value → Prop} {name : String}
    {inner : Pairs} (hsection : IsSection (Pairs.get? fields name) inner)
    (h : ∀ w, IsSection (some w) inner → (q w ↔ ∀ n x, Pairs.get? inner n = some x → p n x)) :
    (∀ w, Pairs.get? fields name = some w → q w) ↔ ∀ n x, Pairs.get? inner n = some x → p n x := by
  cases hv : Pairs.get? fields name with
  | none =>
      rw [hv] at hsection
      cases hsection
      exact iff_of_true (fun w hw => nomatch hw) fun n x hx => absurd hx (by simp)
  | some v =>
      rw [hv] at hsection
      rw [← h v hsection]
      exact ⟨fun hall => hall v rfl, fun hq w hw => Option.some.inj hw ▸ hq⟩

/-- An entry has no flaws exactly if its attributes, its children and its other parts have none. -/
theorem flaws_entryRule_iff (h : fields.Keyed)
    (hattributes : IsSection (Pairs.get? fields "attributes") attributes)
    (hchildren : IsSection (Pairs.get? fields "children") children) :
    (entryRule path fields).flaws = [] ↔
      (∀ a x, Pairs.get? attributes a = some x →
        (attributeRule (attributesPath path ++ "." ++ a) x).flaws = []) ∧
      (∀ c x, Pairs.get? children c = some x →
        (Shape.childEntry (childrenPath path) .empty c x).flaws = []) ∧
      ∀ n w, n ≠ "attributes" → n ≠ "children" → Pairs.get? fields n = some w →
        (Shape.elementField path .empty n w).flaws = [] := by
  have hfields : (entryRule path fields).flaws = [] ↔ ∀ n w, Pairs.get? fields n = some w →
      (Shape.elementField path .empty n w).flaws = [] :=
    Shape.flaws_foldPairs Shape.flaws_elementField h _
  rw [hfields, ← forall_section hattributes fun w hw => flaws_attributes path hw,
    ← forall_section hchildren fun w hw => flaws_children path hw]
  constructor
  · intro hall
    exact ⟨fun w hw => hall _ w hw, fun w hw => hall _ w hw, fun n w _ _ hw => hall n w hw⟩
  · rintro ⟨hattribute, hchild, hothers⟩ n w hw
    by_cases hn : n = "attributes"
    · subst hn
      exact hattribute w hw
    · by_cases hn' : n = "children"
      · subst hn'
        exact hchild w hw
      · exact hothers n w hn hn' hw

/-- A label fits under every key but the one for the choice. -/
theorem flaws_childEntry_label {c : String} (hc : c ≠ choiceKey) (rule : ElementRule)
    (label : String) : (Shape.childEntry path rule c (.string label)).flaws = [] := by
  unfold Shape.childEntry
  rw [if_neg (by simpa using hc)]
  rfl

end Entry

/-! ## Profiles -/

def entryPath (n : String) : String := "profile.elements" ++ "." ++ n

section Profile

variable {fields elements : Pairs} {v : Value}

/-- What the value of an entry writes about its element. -/
def readEntry (n : String) (v : Value) : Shaped ElementRule :=
  Shape.foldMapping (entryPath n) (Shape.elementField (entryPath n)) .empty v

theorem readEntry_section {n : String} {inner : Pairs} (h : IsSection (some v) inner) :
    readEntry n v = entryRule (entryPath n) inner := Shape.foldMapping_section h ElementRule.empty

theorem elements_ofTree_get? (h : fields.Keyed)
    (hsection : IsSection (Pairs.get? fields "elements") elements) (n : String) :
    (Restriction.ofTree fields).result.elements.get? n =
      (Pairs.get? elements n).map fun w => (readEntry n w).result := by
  have hresult : (Restriction.ofTree fields).result.elements =
      ((Pairs.get? fields "elements").map fun w => (Shape.foldMapping "profile.elements"
        (Shape.elementEntry "profile.elements") ∅ w).result).getD ∅ :=
    Shape.foldPairs_field (fun _ _ => rfl) (fun _ _ _ hn => Shape.elements_profileField hn) h _
  rw [hresult]
  cases hw : Pairs.get? fields "elements" with
  | none =>
      rw [hw] at hsection
      cases hsection
      rfl
  | some w =>
      rw [hw] at hsection
      rw [Option.map_some, Option.getD_some, Shape.foldMapping_section hsection]
      exact (Shape.get?_foldPairs (fun _ _ _ => rfl) hsection.keyed ∅ n).trans Option.or_none

theorem documentTypes_ofTree_congr {a b : Pairs} (ha : a.Keyed) (hb : b.Keyed)
    (h : Pairs.get? a "documentTypes" = Pairs.get? b "documentTypes") :
    (Restriction.ofTree a).result.documentTypes = (Restriction.ofTree b).result.documentTypes := by
  rw [documentTypes_ofTree_field ha, documentTypes_ofTree_field hb, h]

theorem flaws_ofTree (h : fields.Keyed) : (Restriction.ofTree fields).flaws = [] ↔
    ∀ n w, Pairs.get? fields n = some w →
      (Shape.profileField "profile" .empty n w).flaws = [] :=
  Shape.flaws_foldPairs Shape.flaws_profileField h _

theorem flaws_elements (hsection : IsSection (some v) elements) :
    (Shape.profileField "profile" .empty "elements" v).flaws = [] ↔
      ∀ n w, Pairs.get? elements n = some w → (readEntry n w).flaws = [] := by
  have hfold : (Shape.profileField "profile" .empty "elements" v).flaws =
      (Shape.foldMapping "profile.elements" (Shape.elementEntry "profile.elements") ∅
        v).flaws ++ [] := rfl
  rw [hfold, List.append_nil, Shape.foldMapping_section hsection,
    Shape.flaws_foldPairs (fun _ _ _ _ => rfl) hsection.keyed]
  refine forall_congr' fun n => forall_congr' fun w => imp_congr_right fun _ => ?_
  have hentry : (Shape.elementEntry "profile.elements" ∅ n w).flaws =
      (readEntry n w).flaws ++ [] := rfl
  rw [hentry, List.append_nil]

end Profile

namespace Accepted

variable {text : String} {r : Restriction} {root fields elements : Pairs}

theorem ofTree (h : Accepted text r root fields elements)
    (haccepted : (Profile.read text).profile = some r) :
    (Restriction.ofTree fields).flaws = [] ∧ (Restriction.ofTree fields).result = r := by
  obtain ⟨root', fields', hread, hprofile, hflaws, hresult⟩ := read_eq_some haccepted
  have hroot : Value.mapping root' = .mapping root := Except.ok.inj (hread.symm.trans h.read)
  cases hroot
  cases hprofile.symm.trans h.profile
  exact ⟨hflaws, hresult⟩

theorem get?_elements (h : Accepted text r root fields elements)
    (haccepted : (Profile.read text).profile = some r) (n : String) :
    r.elements.get? n = (Pairs.get? elements n).map fun v => (readEntry n v).result := by
  rw [← (h.ofTree haccepted).2]
  exact elements_ofTree_get? h.keyed h.listed n

theorem flaws_readEntry (h : Accepted text r root fields elements)
    (haccepted : (Profile.read text).profile = some r) :
    ∀ n v, Pairs.get? elements n = some v → (readEntry n v).flaws = [] := by
  have hflaws := (flaws_ofTree h.keyed).1 (h.ofTree haccepted).1 "elements"
  exact (forall_section h.listed fun w hw => flaws_elements hw).1 hflaws

end Accepted

theorem ofValue_eq_of_tree {index : LineIndex} {root fields : Pairs}
    (hprofile : Pairs.get? root "profile" = some (.mapping fields))
    (hflaws : (Restriction.ofTree fields).flaws = []) :
    Reading.ofValue index (.mapping root) =
      ⟨some (Restriction.ofTree fields).result, [], index⟩ := by
  have hpairs : Reading.profilePairs index (.mapping root) = .ok fields := by
    unfold Reading.profilePairs
    dsimp only
    rw [hprofile]
  unfold Reading.ofValue
  rw [hpairs]
  dsimp only
  rw [hflaws]

/-- A text is accepted if nothing is wrong with what stands below its key `profile`. -/
theorem read_eq_of_tree {text : String} {root fields : Pairs}
    (hread : Yaml.read text = .ok (.mapping root))
    (hprofile : Pairs.get? root "profile" = some (.mapping fields))
    (hflaws : (Restriction.ofTree fields).flaws = []) :
    read text = ⟨some (Restriction.ofTree fields).result, [], LineIndex.ofText text⟩ := by
  unfold read
  rw [hread]
  exact ofValue_eq_of_tree hprofile hflaws

/-- A text with the tree of a profile and other entries is accepted if each of these can be read. -/
theorem read_withEntries {root fields elements : Pairs} {again : String} (h : fields.Keyed)
    (hflaws : (Restriction.ofTree fields).flaws = []) (helements : elements.Keyed)
    (hentries : ∀ n w, Pairs.get? elements n = some w → (readEntry n w).flaws = [])
    (hread : Yaml.read again = .ok (withEntries root fields elements)) :
    ∃ grown, (read again).profile = some grown ∧ (read again).errors = [] ∧
      grown.documentTypes = (Restriction.ofTree fields).result.documentTypes ∧
      ∀ n, grown.elements.get? n =
        (Pairs.get? elements n).map fun w => (readEntry n w).result := by
  have hkeyed : (Pairs.set "elements" (.mapping elements) fields).Keyed := h.set _ _
  -- Only the entries differ, so every other field is read as before.
  have hget := Pairs.get?_set "elements" (.mapping elements) fields
  have hsame : ∀ n, n ≠ "elements" →
      Pairs.get? (Pairs.set "elements" (.mapping elements) fields) n = Pairs.get? fields n :=
    fun n hn => (hget n).trans (if_neg hn)
  have hlisted : Pairs.get? (Pairs.set "elements" (.mapping elements) fields) "elements" =
      some (.mapping elements) := (hget _).trans (if_pos rfl)
  have hclean : (Restriction.ofTree (Pairs.set "elements" (.mapping elements) fields)).flaws =
      [] := by
    rw [flaws_ofTree hkeyed]
    intro n w hw
    by_cases hn : n = "elements"
    · subst hn
      cases hlisted.symm.trans hw
      exact (flaws_elements (.mapping helements)).2 hentries
    · exact (flaws_ofTree h).1 hflaws n w ((hsame n hn).symm.trans hw)
  have hagain := read_eq_of_tree hread ((Pairs.get?_set _ _ _ _).trans (if_pos rfl)) hclean
  exact ⟨(Restriction.ofTree (Pairs.set "elements" (.mapping elements) fields)).result,
    by rw [hagain], by rw [hagain], documentTypes_ofTree_congr hkeyed h (hsame _ (by decide)),
    elements_ofTree_get? hkeyed (hlisted ▸ .mapping helements)⟩

end GrammarProfile.Profile

namespace GrammarProfile.Cascade

open GrammarProfile.Profile (Accepted Restriction)
open GrammarProfile.Yaml (Value Pairs)

/-- The tree of a profile that has only entries. -/
def entriesTree (entries : Pairs) : Value :=
  .mapping [(.string "profile", .mapping [(.string "elements", .mapping entries)])]

/-- A text with such a tree is accepted with these entries, if nothing is wrong with them. -/
theorem accepted_entriesTree {text : String} {entries : Pairs}
    (hread : Yaml.read text = .ok (entriesTree entries))
    (hflaws : (Restriction.ofTree [(.string "elements", .mapping entries)]).flaws = []) :
    ∃ r root fields, (Profile.read text).profile = some r ∧ Accepted text r root fields entries ∧
      r = (Restriction.ofTree [(.string "elements", .mapping entries)]).result := by
  have hprofile := congrArg Profile.Reading.profile (Profile.read_eq_of_tree hread rfl hflaws)
  obtain ⟨root, fields, elements, h⟩ := Profile.accepted_of_read hprofile
  obtain rfl : _ = root := Value.mapping.inj (Except.ok.inj (hread.symm.trans h.read))
  obtain rfl : _ = fields := Value.mapping.inj (Option.some.inj h.profile)
  have hlisted : Profile.IsSection (some (.mapping entries)) elements := h.listed
  cases hlisted
  exact ⟨_, _, _, hprofile, h, rfl⟩

end GrammarProfile.Cascade
