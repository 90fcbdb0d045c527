import GrammarProfile.Cascade.Tree
import GrammarProfile.Profile.Reader
import GrammarProfile.Proofs.DistinctKeys
import GrammarProfile.Proofs.OrderedMap

/-!
The trees of the texts that are accepted as profiles.
-/
namespace GrammarProfile.Profile

open GrammarProfile.Yaml (Value Pairs)

/-- The pairs of a section, which may also be missing or null if there are none. -/
inductive IsSection : Option Value → Pairs → Prop
  | missing : IsSection none []
  | null : IsSection (some .null) []
  | mapping {pairs : Pairs} (h : pairs.Keyed) : IsSection (some (.mapping pairs)) pairs

theorem IsSection.keyed {v : Option Value} {pairs : Pairs} (h : IsSection v pairs) :
    pairs.Keyed := by
  cases h with
  | missing => exact Pairs.keyed_nil
  | null => exact Pairs.keyed_nil
  | mapping h => exact h

theorem IsSection.unique {v : Option Value} {a b : Pairs} (ha : IsSection v a)
    (hb : IsSection v b) : a = b := by
  cases ha <;> cases hb <;> rfl

theorem IsSection.of_get? {pairs : Pairs} {name : String}
    (h : ∀ v, Pairs.get? pairs name = some v → ∃ inner, IsSection (some v) inner) :
    ∃ inner, IsSection (Pairs.get? pairs name) inner := by
  cases hv : Pairs.get? pairs name with
  | none => exact ⟨[], .missing⟩
  | some v => exact h v hv

/-- The entry of an element: a section with sections for attributes and for children, and among
these one for the members of the choice. -/
structure IsEntry (v : Value) (fields children : Pairs) : Prop where
  entry : IsSection (some v) fields
  attributes : ∃ attributes, IsSection (Pairs.get? fields "attributes") attributes
  listed : IsSection (Pairs.get? fields "children") children
  members : ∃ members, IsSection (Pairs.get? children choiceKey) members

/-- The entries of a profile, one for each name. -/
structure IsEntries (elements : Pairs) : Prop where
  keyed : elements.Keyed
  entry : ∀ n v, Pairs.get? elements n = some v → ∃ fields children, IsEntry v fields children

namespace Shaped

variable {α β : Type}

theorem flaws_bind (x : Shaped α) (f : α → Shaped β) :
    (x >>= f).flaws = x.flaws ++ (f x.result).flaws := rfl

theorem flaws_bind_eq_nil {x : Shaped α} {f : α → Shaped β} :
    (x >>= f).flaws = [] ↔ x.flaws = [] ∧ (f x.result).flaws = [] := by
  rw [flaws_bind, List.append_eq_nil_iff]

end Shaped

namespace Shape

variable {α β : Type} {parent path : String} {step : α → String → Value → Shaped α} {acc : α}
  {pairs : Pairs} {v : Value}

/-- Without flaws, the keys are texts and no step has a flaw. -/
theorem steps_of_foldPairs (parent : String)
    (h : (foldPairs parent step acc pairs).flaws = []) :
    ∀ p ∈ pairs, ∃ name before, p.1 = .string name ∧ (step before name p.2).flaws = [] := by
  induction pairs generalizing acc with
  | nil => exact fun p hp => absurd hp List.not_mem_nil
  | cons q rest ih =>
      obtain ⟨key, w⟩ := q
      intro p hp
      cases key with
      | string name =>
          obtain ⟨hstep, hrest⟩ := Shaped.flaws_bind_eq_nil.1 h
          rcases List.mem_cons.1 hp with rfl | hp
          · exact ⟨name, acc, rfl, hstep⟩
          · exact ih hrest p hp
      | _ => exact absurd (Shaped.flaws_bind_eq_nil.1 h).1 (List.cons_ne_nil _ _)

theorem section_of_foldMapping (hv : v.Distinct) (h : (foldMapping path step acc v).flaws = []) :
    ∃ inner, IsSection (some v) inner ∧ ∀ n w, Pairs.get? inner n = some w →
      w.Distinct ∧ ∃ before, (step before n w).flaws = [] := by
  obtain ⟨hmapping, hfold⟩ := Shaped.flaws_bind_eq_nil.1 h
  cases hv with
  | null => exact ⟨[], .null, fun n w hw => by simp at hw⟩
  | @mapping pairs hkeys hvalues =>
      have hsteps := steps_of_foldPairs path hfold
      have hkeyed : pairs.Keyed := hkeys.keyed fun p hp => by
        obtain ⟨name, _, hname, _⟩ := hsteps p hp
        exact ⟨name, hname⟩
      refine ⟨pairs, .mapping hkeyed, fun n w hw => ?_⟩
      have hmem := Pairs.mem_of_get? hw
      obtain ⟨name, before, hname, hstep⟩ := hsteps _ hmem
      cases hname
      exact ⟨hvalues _ hmem, before, hstep⟩
  | _ => exact absurd hmapping (List.cons_ne_nil _ _)

theorem members_of_childEntry {rule : ElementRule} (hv : v.Distinct)
    (h : (childEntry path rule choiceKey v).flaws = []) :
    ∃ members, IsSection (some v) members := by
  unfold childEntry at h
  rw [if_pos (by simp)] at h
  obtain ⟨members, hmembers, _⟩ := section_of_foldMapping hv (Shaped.flaws_bind_eq_nil.1 h).1
  exact ⟨members, hmembers⟩

theorem entry_of_elementEntry {rules : OrderedMap ElementRule} {name : String} (hv : v.Distinct)
    (h : (elementEntry path rules name v).flaws = []) :
    ∃ fields children, IsEntry v fields children := by
  obtain ⟨fields, hfields, hsteps⟩ := section_of_foldMapping hv (Shaped.flaws_bind_eq_nil.1 h).1
  have hattributes : ∃ attributes, IsSection (Pairs.get? fields "attributes") attributes := by
    refine IsSection.of_get? fun w hw => ?_
    obtain ⟨hdistinct, before, hstep⟩ := hsteps _ w hw
    obtain ⟨attributes, hattributes, _⟩ :=
      section_of_foldMapping hdistinct (Shaped.flaws_bind_eq_nil.1 hstep).1
    exact ⟨attributes, hattributes⟩
  have hchildren : ∃ children, IsSection (Pairs.get? fields "children") children ∧
      ∃ members, IsSection (Pairs.get? children choiceKey) members := by
    cases hw : Pairs.get? fields "children" with
    | none => exact ⟨[], .missing, [], .missing⟩
    | some w =>
        obtain ⟨hdistinct, before, hstep⟩ := hsteps _ w hw
        obtain ⟨children, hchildren, hinner⟩ := section_of_foldMapping hdistinct hstep
        refine ⟨children, hchildren, IsSection.of_get? fun u hu => ?_⟩
        obtain ⟨hmembers, rule, hmember⟩ := hinner _ u hu
        exact members_of_childEntry hmembers hmember
  obtain ⟨children, hchildren, hmembers⟩ := hchildren
  exact ⟨fields, children, hfields, hattributes, hchildren, hmembers⟩

/-- A part of the result that only one key sets is what is read from the value of that key. -/
theorem foldPairs_part (part : α → β) {name : String} (read : Value → β → β)
    (hset : ∀ w, Pairs.get? pairs name = some w →
      ∀ before, part (step before name w).result = read w (part before))
    (hkeep : ∀ before n w, n ≠ name → part (step before n w).result = part before)
    (h : pairs.Keyed) (acc : α) :
    part (foldPairs parent step acc pairs).result =
      ((Pairs.get? pairs name).map fun w => read w (part acc)).getD (part acc) := by
  induction h using Pairs.Keyed.induction generalizing acc with
  | nil => rfl
  | cons n w rest hn hrest ih =>
      have hstep : part (foldPairs parent step acc ((.string n, w) :: rest)).result =
          part (foldPairs parent step (step acc n w).result rest).result := rfl
      rw [Pairs.get?_cons_string] at hset
      rw [hstep, Pairs.get?_cons_string]
      by_cases hname : name = n
      · subst hname
        rw [if_pos rfl] at hset ⊢
        have hnone := hrest.get?_eq_none_iff.2 hn
        rw [ih (fun u hu => absurd (hnone.symm.trans hu) nofun), hnone]
        exact hset w rfl acc
      · rw [if_neg hname] at hset ⊢
        rw [ih hset, hkeep acc n w (Ne.symm hname)]

theorem foldPairs_field {part : α → β} {name : String} {read : Value → β}
    (hset : ∀ before w, part (step before name w).result = read w)
    (hkeep : ∀ before n w, n ≠ name → part (step before n w).result = part before)
    (h : pairs.Keyed) (acc : α) :
    part (foldPairs parent step acc pairs).result =
      ((Pairs.get? pairs name).map read).getD (part acc) :=
  foldPairs_part part (fun w _ => read w) (fun w _ before => hset before w) hkeep h acc

theorem mem_keys_foldPairs_elementEntry (h : pairs.Keyed) (rules : OrderedMap ElementRule)
    {n : String} :
    n ∈ (foldPairs parent (elementEntry path) rules pairs).result.keys ↔
      n ∈ rules.keys ∨ n ∈ Pairs.names pairs := by
  induction h using Pairs.Keyed.induction generalizing rules with
  | nil => simp [foldPairs, Pairs.names, pure]
  | cons m w rest _ _ ih =>
      have hstep : ∃ rule, (foldPairs parent (elementEntry path) rules
          ((.string m, w) :: rest)).result =
            (foldPairs parent (elementEntry path) (rules.insert m rule) rest).result := ⟨_, rfl⟩
      obtain ⟨rule, hstep⟩ := hstep
      rw [hstep, ih, OrderedMap.keys_insert, Pairs.names_cons, List.mem_cons]
      split
      · next hm =>
          constructor
          · rintro (h | h)
            · exact .inl h
            · exact .inr (.inr h)
          · rintro (h | rfl | h)
            · exact .inl h
            · exact .inl hm
            · exact .inr h
      · rw [List.mem_append, List.mem_singleton, or_assoc]

theorem items_of_names {path : String} {i : ℕ} {vs : List Value}
    (h : (items path name i vs).flaws = []) :
    (items path name i vs).result = vs.filterMap Value.scalarText? := by
  induction vs generalizing i with
  | nil => rfl
  | cons v rest ih =>
      obtain ⟨hfirst, hrest⟩ := Shaped.flaws_bind_eq_nil.1 h
      have hothers := ih (Shaped.flaws_bind_eq_nil.1 hrest).1
      cases v with
      | string s =>
          exact congrArg (s :: ·) hothers
      | _ => exact absurd hfirst (List.cons_ne_nil _ _)

theorem list_of_names (h : (list path name v).flaws = []) :
    (list path name v).result = (v.items?.map (List.filterMap Value.scalarText?)).getD [] := by
  cases v with
  | null => rfl
  | sequence vs => exact items_of_names h
  | _ => exact absurd h (List.cons_ne_nil _ _)

theorem elements_profileField {path : String} {r : Restriction} {n : String} {w : Value}
    (h : n ≠ "elements") : (profileField path r n w).result.elements = r.elements := by
  unfold profileField
  dsimp only
  split <;> first | rfl | exact absurd rfl h

theorem documentTypes_profileField {path : String} {r : Restriction} {n : String} {w : Value}
    (h : n ≠ "documentTypes") :
    (profileField path r n w).result.documentTypes = r.documentTypes := by
  unfold profileField
  dsimp only
  split <;> first | rfl | exact absurd rfl h

end Shape

theorem documentTypes_ofTree_field {fields : Pairs} (h : fields.Keyed) :
    (Restriction.ofTree fields).result.documentTypes =
      ((Pairs.get? fields "documentTypes").map fun w =>
        (Shape.list "profile.documentTypes" Shape.name w).result).getD [] :=
  Shape.foldPairs_field (fun _ _ => rfl) (fun _ _ _ hn => Shape.documentTypes_profileField hn) h _

theorem profilePairs_eq_ok {index : LineIndex} {v : Value} {fields : Pairs}
    (h : Reading.profilePairs index v = .ok fields) :
    ∃ root, v = .mapping root ∧ Pairs.get? root "profile" = some (.mapping fields) := by
  unfold Reading.profilePairs at h
  split at h
  · next root =>
      split at h
      next => cases h
      next => cases h
      next hprofile =>
        cases h
        exact ⟨root, rfl, hprofile⟩
      next => cases h
  · cases h

theorem read_eq_some {text : String} {r : Restriction} (h : (read text).profile = some r) :
    ∃ root fields, Yaml.read text = .ok (.mapping root) ∧
      Pairs.get? root "profile" = some (.mapping fields) ∧
      (Restriction.ofTree fields).flaws = [] ∧ (Restriction.ofTree fields).result = r := by
  cases hread : Yaml.read text with
  | error e =>
      unfold read at h
      rw [hread] at h
      cases h
  | ok v =>
      unfold read Reading.ofValue at h
      rw [hread] at h
      dsimp only at h
      split at h
      · cases h
      · next fields hpairs =>
          obtain ⟨root, rfl, hprofile⟩ := profilePairs_eq_ok hpairs
          split at h
          · next hflaws => exact ⟨root, fields, rfl, hprofile, hflaws, Option.some.inj h⟩
          · cases h

section Fields

variable {fields : Pairs} (hkeyed : fields.Keyed)
  (hfields : ∀ n w, Pairs.get? fields n = some w → w.Distinct ∧
    ∃ before, (Shape.profileField "profile" before n w).flaws = [])
include hkeyed hfields

theorem elements_ofTree : ∃ elements, IsSection (Pairs.get? fields "elements") elements ∧
    IsEntries elements ∧
    ∀ n, n ∈ (Restriction.ofTree fields).result.elements.keys ↔ n ∈ Pairs.names elements := by
  have hresult : (Restriction.ofTree fields).result.elements =
      ((Pairs.get? fields "elements").map fun w =>
        (Shape.foldMapping "profile.elements" (Shape.elementEntry "profile.elements") ∅
          w).result).getD ∅ :=
    Shape.foldPairs_field (fun _ _ => rfl) (fun _ _ _ hn => Shape.elements_profileField hn) hkeyed _
  rw [hresult]
  cases hw : Pairs.get? fields "elements" with
  | none =>
      refine ⟨[], .missing, ⟨Pairs.keyed_nil, fun n v hv => ?_⟩, fun n => Iff.rfl⟩
      exact absurd hv (by simp)
  | some w =>
      obtain ⟨hdistinct, before, hstep⟩ := hfields _ w hw
      have hflaws := (Shaped.flaws_bind_eq_nil.1 hstep).1
      obtain ⟨elements, helements, hentries⟩ := Shape.section_of_foldMapping hdistinct hflaws
      refine ⟨elements, helements, ⟨helements.keyed, fun n v hv => ?_⟩, fun n => ?_⟩
      · obtain ⟨hentry, rules, hrule⟩ := hentries n v hv
        exact Shape.entry_of_elementEntry hentry hrule
      · cases helements with
        | null => exact Iff.rfl
        | mapping hpairs =>
            refine (Shape.mem_keys_foldPairs_elementEntry hpairs ∅).trans ?_
            exact or_iff_right List.not_mem_nil

theorem documentTypes_ofTree : (Restriction.ofTree fields).result.documentTypes =
    (((Pairs.get? fields "documentTypes").bind Value.items?).map
      (List.filterMap Value.scalarText?)).getD [] := by
  rw [documentTypes_ofTree_field hkeyed]
  cases hw : Pairs.get? fields "documentTypes" with
  | none => rfl
  | some w =>
      obtain ⟨_, before, hstep⟩ := hfields _ w hw
      exact Shape.list_of_names (Shaped.flaws_bind_eq_nil.1 hstep).1

end Fields

/-- The parts of a text that is accepted as a profile, and what is read from them. -/
structure Accepted (text : String) (r : Restriction) (root fields elements : Pairs) : Prop where
  read : Yaml.read text = .ok (.mapping root)
  different : Pairs.Different root
  profile : Pairs.get? root "profile" = some (.mapping fields)
  keyed : fields.Keyed
  listed : IsSection (Pairs.get? fields "elements") elements
  entries : IsEntries elements
  keys : ∀ n, n ∈ r.elements.keys ↔ n ∈ Pairs.names elements
  documentTypes : Cascade.Tree.documentTypes (.mapping root) = r.documentTypes

/-- A text that is accepted as a profile has the shape that edits expect. -/
theorem accepted_of_read {text : String} {r : Restriction} (h : (read text).profile = some r) :
    ∃ root fields elements, Accepted text r root fields elements := by
  obtain ⟨root, fields, hread, hprofile, hflaws, rfl⟩ := read_eq_some h
  cases Yaml.distinct_of_read hread with
  | mapping hroot hvalues =>
      cases hvalues _ (Pairs.mem_of_get? hprofile) with
      | mapping hdifferent hinner =>
          have hsteps := Shape.steps_of_foldPairs "profile" hflaws
          have hkeyed : Pairs.Keyed fields := hdifferent.keyed fun p hp => by
            obtain ⟨name, _, hname, _⟩ := hsteps p hp
            exact ⟨name, hname⟩
          have hfields : ∀ n w, Pairs.get? fields n = some w → w.Distinct ∧
              ∃ before, (Shape.profileField "profile" before n w).flaws = [] := by
            intro n w hw
            obtain ⟨name, before, hname, hstep⟩ := hsteps _ (Pairs.mem_of_get? hw)
            cases hname
            exact ⟨hinner _ (Pairs.mem_of_get? hw), before, hstep⟩
          obtain ⟨elements, helements, hentries, hkeys⟩ := elements_ofTree hkeyed hfields
          refine ⟨root, fields, elements, hread, hroot, hprofile, hkeyed, helements, hentries,
            hkeys, ?_⟩
          have hbelow : Cascade.Tree.profile? (.mapping root) = some fields := by
            unfold Cascade.Tree.profile?
            rw [Value.pairs?_mapping, Option.bind_some, hprofile]
          rw [documentTypes_ofTree hkeyed hfields, Cascade.Tree.documentTypes, hbelow,
            Option.bind_some]
          cases (Pairs.get? fields "documentTypes").bind Value.items? <;> rfl

namespace Accepted

open GrammarProfile.Cascade (Tree.profile? Tree.elements? Tree.editElements Tree.editable editText)

variable {text : String} {r : Restriction} {root fields elements : Pairs}

theorem below (h : Accepted text r root fields elements) :
    Tree.profile? (.mapping root) = some fields := by
  unfold Tree.profile?
  rw [Value.pairs?_mapping, Option.bind_some, h.profile]

theorem elements?_eq (h : Accepted text r root fields elements) {n : String}
    (hn : n ∈ Pairs.names elements) : Tree.elements? (.mapping root) = some elements := by
  unfold Tree.elements?
  rw [h.below, Option.bind_some]
  have hlisted := h.listed
  cases hv : Pairs.get? fields "elements" with
  | none =>
      rw [hv] at hlisted
      cases hlisted
      exact absurd hn List.not_mem_nil
  | some v =>
      rw [hv] at hlisted
      cases hlisted with
      | null => exact absurd hn List.not_mem_nil
      | mapping _ => rfl

/-- An edit of the entries shows below the key for entries only. -/
theorem editElements (h : Accepted text r root fields elements) (f : Pairs → Pairs) :
    Tree.editElements f (.mapping root) =
      .mapping (Pairs.set "profile"
        (.mapping (Pairs.set "elements" (.mapping (f elements)) fields)) root) := by
  have heditable : Tree.editable fields = elements := by
    unfold Tree.editable
    cases hv : Pairs.get? fields "elements" with
    | none =>
        have hlisted := h.listed
        rw [hv] at hlisted
        cases hlisted
        rfl
    | some v =>
        have hlisted := h.listed
        rw [hv] at hlisted
        cases hlisted <;> rfl
  have hone := Pairs.Different.not_isKey h.different "profile"
  unfold Tree.editElements
  rw [Value.editPairs, Pairs.update_eq_set h.profile hone, Value.editPairs, heditable]

theorem editText_eq_ok (h : Accepted text r root fields elements) {edit : Value → Option Value}
    {edited : Value} (hedit : edit (.mapping root) = some edited) :
    editText edit text = .ok (Cascade.Tree.render edited) := by
  unfold Cascade.editText
  rw [h.read]
  dsimp only
  rw [h.below, hedit]
  rfl

end Accepted

end GrammarProfile.Profile
