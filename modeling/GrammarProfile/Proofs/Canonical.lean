import GrammarProfile.Proofs.Moved

/-!
The canonical order of a profile that is accepted: it lists each entry once, does not depend on how the
pairs of the profile stand, and is that of the profile that is read.
-/
namespace GrammarProfile

theorem Yaml.Pairs.Keyed.map_fst {pairs : Yaml.Pairs} (h : pairs.Keyed) :
    pairs.map Prod.fst = (names pairs).map Value.string := by
  rw [names, List.map_filterMap, ← List.filterMap_eq_map]
  refine List.filterMap_congr fun p hp => ?_
  obtain ⟨n, hn⟩ := h.textual p hp
  rw [Function.comp_apply, hn]
  rfl

namespace Cascade

open GrammarProfile.Grammar (Model)
open GrammarProfile.Profile (IsSection IsEntry IsEntries Accepted Restriction choiceKey readEntry
  exists_rel_of_some exists_of_rel_some)
open GrammarProfile.Yaml (Value Pairs)
open GrammarProfile.Yaml.Value (Rearranged)

theorem isSome_of_rel {α : Type} {rel : α → α → Prop} {x y : Option α} (h : Option.Rel rel x y) :
    x.isSome = y.isSome := by
  cases h <;> rfl

section Entries

variable {v w : Value} {fields children members elements moved : Pairs} {a b m n : String}

/-- What an entry lists, by its sections. -/
theorem lists_iff_isSome (h : IsEntry v fields children)
    (hmembers : IsSection (Pairs.get? children choiceKey) members) :
    Lists v m ↔
      (m ≠ choiceKey ∧ (Pairs.get? children m).isSome) ∨ (Pairs.get? members m).isSome := by
  have hlisted := h.listed
  cases h.entry with
  | null =>
      cases hlisted
      cases hmembers
      exact iff_of_false not_lists_null (by simp)
  | mapping _ =>
      rw [lists_mapping_iff]
      cases hc : Pairs.get? fields "children" with
      | none =>
          rw [hc] at hlisted
          cases hlisted
          cases hmembers
          simp
      | some u =>
          rw [hc] at hlisted
          cases hlisted with
          | null =>
              cases hmembers
              simp
          | mapping hkeyed =>
              simp only [Option.some.injEq, Value.mapping.injEq, exists_eq_left', ListedIn,
                Pairs.contains_iff, Option.isSome_iff_exists]
              refine or_congr_right ?_
              cases hch : Pairs.get? children choiceKey with
              | none =>
                  rw [hch] at hmembers
                  cases hmembers
                  simp
              | some t =>
                  rw [hch] at hmembers
                  cases hmembers <;> simp

/-- An entry whose pairs have moved is an entry that lists the same. -/
theorem isEntry_moved (h : IsEntry v fields children) (hmoved : Rearranged v w) :
    ∃ fields' children', IsEntry w fields' children' ∧ ∀ m, Lists v m ↔ Lists w m := by
  obtain ⟨attributes, hattributes⟩ := h.attributes
  obtain ⟨members, hmembers⟩ := h.members
  obtain ⟨fields', hfields', hfield⟩ := h.entry.moved (.some hmoved)
  obtain ⟨attributes', hattributes', -⟩ := hattributes.moved (hfield _)
  obtain ⟨children', hchildren', hchild⟩ := h.listed.moved (hfield _)
  obtain ⟨members', hmembers', hmember⟩ := hmembers.moved (hchild _)
  have hentry : IsEntry w fields' children' :=
    ⟨hfields', ⟨attributes', hattributes'⟩, hchildren', members', hmembers'⟩
  refine ⟨fields', children', hentry, fun m => ?_⟩
  rw [lists_iff_isSome h hmembers, lists_iff_isSome hentry hmembers', isSome_of_rel (hchild m),
    isSome_of_rel (hmember m)]

theorem isEntries_moved (h : IsEntries elements)
    (hmoved : Rearranged (.mapping elements) (.mapping moved)) :
    IsEntries moved ∧ ∀ a b, Links elements a b ↔ Links moved a b := by
  have hrel := fun n => hmoved.get?_rel (n := n) (h.keyed.once n)
  refine ⟨⟨hmoved.keyed h.keyed, fun n w hw => ?_⟩, fun a b => ⟨?_, ?_⟩⟩
  · obtain ⟨v, hv, hvw⟩ := exists_of_rel_some (hrel n) hw
    obtain ⟨fields, children, hentry⟩ := h.entry n v hv
    obtain ⟨fields', children', hentry', -⟩ := isEntry_moved hentry hvw
    exact ⟨fields', children', hentry'⟩
  · rintro ⟨v, hv, hlists⟩
    obtain ⟨w, hw, hvw⟩ := exists_rel_of_some (hrel a) hv
    obtain ⟨fields, children, hentry⟩ := h.entry a v hv
    obtain ⟨_, _, -, hsame⟩ := isEntry_moved hentry hvw
    exact ⟨w, hw, (hsame b).1 hlists⟩
  · rintro ⟨w, hw, hlists⟩
    obtain ⟨v, hv, hvw⟩ := exists_of_rel_some (hrel a) hw
    obtain ⟨fields, children, hentry⟩ := h.entry a v hv
    obtain ⟨_, _, -, hsame⟩ := isEntry_moved hentry hvw
    exact ⟨v, hv, (hsame b).2 hlists⟩

/-- The children that a profile names for an element are those that its entry lists. -/
theorem mem_childNames_iff (h : IsEntry v fields children) :
    m ∈ (readEntry n v).result.childNames ↔ Lists v m := by
  obtain ⟨members, hmembers⟩ := h.members
  have hkeyed := h.entry.keyed
  rw [lists_iff_isSome h hmembers, Profile.readEntry_section h.entry, Profile.ElementRule.childNames,
    List.mem_append, ← OrderedMap.get?_isSome, ← OrderedMap.get?_isSome,
    Profile.children_entryRule hkeyed h.listed,
    Profile.alternatives_entryRule hkeyed h.listed hmembers, Option.isSome_map]
  refine or_congr_left ?_
  split
  · next hm => exact iff_of_false Bool.false_ne_true fun h => h.1 hm
  · next hm => rw [Option.isSome_map, and_iff_right hm]

end Entries

section Order

variable {text : String} {r : Restriction} {root fields elements : Pairs}

theorem getD_elements? (h : Accepted text r root fields elements) :
    (Tree.elements? (.mapping root)).getD [] = elements := by
  have hlisted := h.listed
  unfold Tree.elements?
  rw [h.below, Option.bind_some]
  cases hv : Pairs.get? fields "elements" with
  | none =>
      rw [hv] at hlisted
      cases hlisted
      rfl
  | some v =>
      rw [hv] at hlisted
      cases hlisted <;> rfl

/-- The order of a profile is that of the entries it is read from. -/
theorem profileOrder_eq (h : Accepted text r root fields elements)
    (haccepted : (Profile.read text).profile = some r) (grammar : Model) :
    profileOrder grammar r = elementOrder grammar elements := by
  have hget := h.get?_elements haccepted
  refine arrangement_congr grammar.root (fun n => ?_) fun a b => ?_
  · rw [map_fst_references, List.map_map]
    exact h.keys n
  · rw [exists_mem_references_iff h.entries]
    constructor
    · rintro ⟨listed, hmem, hb⟩
      obtain ⟨⟨key, rule⟩, hp, heq⟩ := List.mem_map.1 hmem
      obtain ⟨rfl, rfl⟩ := Prod.mk.inj heq
      have hrule := OrderedMap.get?_eq_some_iff.2 hp
      rw [hget, Option.map_eq_some_iff] at hrule
      obtain ⟨v, hv, rfl⟩ := hrule
      obtain ⟨_, _, hentry⟩ := h.entries.entry key v hv
      exact ⟨v, hv, (mem_childNames_iff hentry).1 hb⟩
    · rintro ⟨v, hv, hlists⟩
      obtain ⟨_, _, hentry⟩ := h.entries.entry a v hv
      have hrule : r.elements.get? a = some (readEntry a v).result := by rw [hget, hv]; rfl
      exact ⟨_, List.mem_map_of_mem (OrderedMap.get?_eq_some_iff.1 hrule),
        (mem_childNames_iff hentry).2 hlists⟩

/-- The canonical order of an accepted profile lists each of its entries once, is the same however the
pairs of the entries stand, and is that of the profile that is read. -/
theorem elementOrder_canonical (h : (Profile.read text).profile = some r) (grammar : Model) :
    ∃ tree elements, Yaml.read text = .ok tree ∧ elements = (Tree.elements? tree).getD [] ∧
      ((elementOrder grammar elements).map Value.string).Perm (elements.map Prod.fst) ∧
      (elementOrder grammar elements).Nodup ∧
      (∀ moved, Rearranged (.mapping elements) (.mapping moved) →
        elementOrder grammar moved = elementOrder grammar elements) ∧
      profileOrder grammar r = elementOrder grammar elements := by
  obtain ⟨root, fields, elements, haccepted⟩ := Profile.accepted_of_read h
  have hentries := haccepted.entries
  refine ⟨.mapping root, elements, haccepted.read, ?_, ?_, ?_, fun moved hmoved => ?_,
    profileOrder_eq haccepted h grammar⟩
  · exact (getD_elements? haccepted).symm
  · rw [hentries.keyed.map_fst]
    exact (elementOrder_perm grammar hentries.keyed).map _
  · exact (elementOrder_perm grammar hentries.keyed).nodup_iff.2 hentries.keyed.distinct
  · obtain ⟨hmovedEntries, hlinks⟩ := isEntries_moved hentries hmoved
    refine arrangement_congr grammar.root (fun n => ?_) fun a b => ?_
    · have hperm := hmoved.keys_perm.filterMap Value.scalarText?
      rw [List.filterMap_map, List.filterMap_map] at hperm
      rw [map_fst_references, map_fst_references]
      exact hperm.mem_iff.symm
    · rw [exists_mem_references_iff hentries, exists_mem_references_iff hmovedEntries, hlinks]

/-- Two entries that declare each other, one of them in its choice, and an entry below them. -/
def knottedProfile : String :=
  "profile:\n  elements:\n    part:\n      children:\n        text:\n        choice:\n          list:\n" ++
    "    list:\n      children:\n        part:\n        text:\n    text:\n"

def textGrammar : Model := ⟨∅, ∅, some "text"⟩

theorem elementOrder_knotted : ∃ r, (Profile.read knottedProfile).profile = some r ∧
    ∃ tree elements, Yaml.read knottedProfile = .ok tree ∧
      elements = (Tree.elements? tree).getD [] ∧
      ((elementOrder textGrammar elements).map Value.string).Perm (elements.map Prod.fst) ∧
      (elementOrder textGrammar elements).Nodup ∧
      (∀ moved, Rearranged (.mapping elements) (.mapping moved) →
        elementOrder textGrammar moved = elementOrder textGrammar elements) ∧
      profileOrder textGrammar r = elementOrder textGrammar elements := by
  obtain ⟨r, hr, -⟩ := Profile.exists_profile (p := fun _ => true)
    (String.ofList_append.symm : knottedProfile = String.ofList _) (by decide +kernel)
  exact ⟨r, hr, elementOrder_canonical hr textGrammar⟩

end Order

end Cascade

end GrammarProfile
