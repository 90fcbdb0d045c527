import GrammarProfile.Proofs.Again
import GrammarProfile.Proofs.Moved
import GrammarProfile.Proofs.Ranked
import GrammarProfile.Proofs.Sessions

/-!
Putting a profile into order a second time. Each of the three orders is a fixed point of itself,
and none of them is disturbed by the other two: the order of the entries depends on what they list
only, and the order inside an entry goes with the entry wherever it is moved.
-/
namespace GrammarProfile.Yaml

/-- Two different fields are changed independently of each other. -/
theorem Pairs.update_update_twice {a b : String} (hne : a ≠ b) {f g : Value → Value}
    (hf : ∀ v, f (f v) = f v) (hg : ∀ v, g (g v) = g v) (pairs : Pairs) :
    Pairs.update a f (Pairs.update b g (Pairs.update a f (Pairs.update b g pairs))) =
      Pairs.update a f (Pairs.update b g pairs) := by
  rw [Pairs.update_update hne, Pairs.update_update hne, List.map_map]
  refine List.map_congr_left fun p _ => ?_
  dsimp only [Function.comp_apply]
  by_cases ha : Pairs.isKey a p.1 = true
  · rw [if_pos ha, if_pos ha, hf]
  · rw [if_neg ha, if_neg ha]
    by_cases hb : Pairs.isKey b p.1 = true
    · rw [if_pos hb, if_pos hb, hg]
    · rw [if_neg hb, if_neg hb]

theorem Value.editPairs_editPairs {f : Pairs → Pairs} (h : ∀ pairs, f (f pairs) = f pairs)
    (v : Value) : (v.editPairs f).editPairs f = v.editPairs f := by
  induction v using Value.editPairs.induct with
  | case1 pairs => exact congrArg Value.mapping (h pairs)
  | case2 tag v ih => exact congrArg (Value.tagged tag) ih
  | case3 v hmapping htagged =>
      cases v with
      | mapping pairs => exact absurd rfl (hmapping pairs)
      | tagged tag v => exact absurd rfl (htagged tag v)
      | _ => rfl

end GrammarProfile.Yaml

namespace GrammarProfile.Cascade

open GrammarProfile.Grammar (Model)
open GrammarProfile.Profile (Accepted Restriction withEntries)
open GrammarProfile.Yaml (Value Pairs)

variable {grammar : Model}

/-! ## Inside the entries -/

theorem reorderEntry_twice (grammar : Model) (key entry : Value) :
    reorderEntry grammar key (reorderEntry grammar key entry) = reorderEntry grammar key entry := by
  unfold reorderEntry
  split
  · rfl
  · next name _ =>
      refine Value.editPairs_editPairs (fun fields => ?_) entry
      exact Pairs.update_update_twice (by decide)
        (editMapping_editMapping (reorderAttributes_twice grammar name))
        (editMapping_editMapping (reorderChildren_twice grammar name)) fields

theorem orderedParts_eq_self_iff {elements : Pairs} :
    orderedParts grammar elements = elements ↔
      ∀ p ∈ elements, reorderEntry grammar p.1 p.2 = p.2 := by
  unfold orderedParts
  conv_lhs => rhs; rw [← List.map_id elements]
  rw [List.map_inj_left]
  exact forall₂_congr fun p _ => by rw [id, Prod.ext_iff]; exact and_iff_right rfl

/-! ## The entries -/

section Entries

variable {elements : Pairs} (h : elements.Keyed)
include h

theorem orderElements_twice (grammar : Model) :
    orderElements grammar (orderElements grammar elements) = orderElements grammar elements := by
  have hkeyed := keyed_orderElements grammar h
  refine orderElements_eq_self grammar hkeyed ?_
  rw [names_orderElements grammar h]
  exact elementOrder_congr grammar h hkeyed fun n => (get?_orderElements grammar h n).symm

/-- Entries that have been put into order, and what is in them, stay as they are. -/
theorem reorder_entries_twice (grammar : Model) :
    orderElements grammar (orderedParts grammar
        (orderElements grammar (orderedParts grammar elements))) =
      orderElements grammar (orderedParts grammar elements) := by
  have hkeyed : (orderedParts grammar elements).Keyed := h.map fun p => reorderEntry grammar p.1 p.2
  have hparts : orderedParts grammar (orderElements grammar (orderedParts grammar elements)) =
      orderElements grammar (orderedParts grammar elements) := by
    refine orderedParts_eq_self_iff.2 fun p hp => ?_
    have hold := (orderElements_perm grammar hkeyed).mem_iff.1 hp
    obtain ⟨q, _, rfl⟩ := List.mem_map.1 hold
    exact reorderEntry_twice grammar q.1 q.2
  rw [hparts, orderElements_twice hkeyed]

end Entries

/-! ## The tree -/

section Trees

variable {text : String} {r : Restriction} {root fields elements : Pairs}

theorem reorderTree_eq_none_iff {tree : Value} :
    reorderTree grammar tree = none ↔ Tree.elements? tree = none := by
  unfold reorderTree
  cases Tree.elements? tree <;> simp

/-- An accepted profile has no entries to edit, or is the tree with its entries. -/
theorem elements?_eq_none_or (h : Accepted text r root fields elements) :
    Tree.elements? (.mapping root) = none ∨ .mapping root = withEntries root fields elements := by
  have hlisted := h.listed
  unfold Tree.elements?
  rw [h.below, Option.bind_some]
  cases hv : Pairs.get? fields "elements" with
  | none => exact .inl rfl
  | some v =>
      rw [hv] at hlisted
      cases hlisted with
      | null => exact .inl rfl
      | mapping _ => exact .inr (h.eq_withEntries hv)

theorem reorderTree_withEntries (h : Accepted text r root fields elements) (grammar : Model)
    (entries : Pairs) : reorderTree grammar (withEntries root fields entries) =
      some (withEntries root fields (orderElements grammar (orderedParts grammar entries))) := by
  unfold reorderTree
  rw [Accepted.elements?_withEntries, if_neg (by simp), h.editElements_withEntries]
  rfl

end Trees

/-- Putting the tree of an accepted profile into order a second time gives the same tree, whatever
its entries refer to, for every grammar. A profile without entries is left alone. -/
theorem reorder_twice {text : String} {r : Restriction}
    (h : (Profile.read text).profile = some r) : ∃ tree, Yaml.read text = .ok tree ∧
      ∀ grammar : Model,
        reorder grammar text = .ok ((reorderTree grammar tree).elim text Tree.render) ∧
        (reorderTree grammar tree = none ↔ Tree.elements? tree = none) ∧
        ∀ after, reorderTree grammar tree = some after → reorderTree grammar after = some after := by
  obtain ⟨root, fields, elements, haccepted⟩ := Profile.accepted_of_read h
  refine ⟨.mapping root, haccepted.read, fun grammar => ⟨reorder_eq_ok haccepted grammar,
    reorderTree_eq_none_iff, fun after hafter => ?_⟩⟩
  obtain hnone | hroot := elements?_eq_none_or haccepted
  · rw [reorderTree_eq_none_iff.2 hnone] at hafter
    cases hafter
  · rw [hroot, reorderTree_withEntries haccepted] at hafter
    cases hafter
    rw [reorderTree_withEntries haccepted,
      reorder_entries_twice haccepted.entries.keyed grammar]

/-- Two entries that list each other. -/
def twinProfile : String :=
  "profile: \x7belements: \x7bb: \x7bchildren: \x7ba: \x7d\x7d, a: \x7bchildren: \x7bb: \x7d\x7d\x7d\x7d"

theorem reorder_twins_twice : ∃ r, (Profile.read twinProfile).profile = some r ∧
    ∃ tree, Yaml.read twinProfile = .ok tree ∧
      ∀ grammar : Model,
        reorder grammar twinProfile =
          .ok ((reorderTree grammar tree).elim twinProfile Tree.render) ∧
        (reorderTree grammar tree = none ↔ Tree.elements? tree = none) ∧
        ∀ after, reorderTree grammar tree = some after → reorderTree grammar after = some after := by
  obtain ⟨r, hr, -⟩ := Profile.exists_profile (p := fun _ => true)
    (rfl : twinProfile = String.ofList _) (by decide +kernel)
  exact ⟨r, hr, reorder_twice hr⟩

end GrammarProfile.Cascade
