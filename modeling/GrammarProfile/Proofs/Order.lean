import GrammarProfile.Cascade.Reorder
import GrammarProfile.Proofs.Arrangement
import GrammarProfile.Proofs.References

/-!
Ordering the entries of a profile moves them and does nothing else.
-/
namespace GrammarProfile.Cascade

open GrammarProfile.Grammar (Model)
open GrammarProfile.Yaml (Value Pairs)

variable {grammar : Model} {elements : Pairs} {n : String}

theorem elementOrder_perm (grammar : Model) (h : elements.Keyed) :
    (elementOrder grammar elements).Perm (Pairs.names elements) := by
  refine (arrangement_perm _ _).trans ?_
  rw [map_fst_references, Text.nameSet, Text.eraseDups_of_nodup h.distinct]
  exact List.mergeSort_perm _ _

/-- All keys of the entries are names, so nothing comes after the entries in order. -/
theorem orderElements_eq (grammar : Model) (h : elements.Keyed) :
    orderElements grammar elements = (elementOrder grammar elements).filterMap
      fun name => (Pairs.get? elements name).map fun v => (.string name, v) := by
  have hnone : elements.filter (fun p => p.1.scalarText?.isNone) = [] := by
    refine List.filter_eq_nil_iff.2 fun p hp => ?_
    obtain ⟨m, hm⟩ := h.textual p hp
    rw [hm]
    exact Bool.false_ne_true
  unfold orderElements
  rw [hnone, List.append_nil]

theorem names_orderElements (grammar : Model) (h : elements.Keyed) :
    Pairs.names (orderElements grammar elements) = elementOrder grammar elements := by
  rw [orderElements_eq grammar h, Pairs.names, List.filterMap_filterMap]
  have hall : ∀ m ∈ elementOrder grammar elements,
      ((Pairs.get? elements m).map fun v => (Value.string m, v)).bind
        (fun p => p.1.scalarText?) = some m := by
    intro m hm
    obtain ⟨v, hv⟩ := h.mem_names_iff.1 ((elementOrder_perm grammar h).mem_iff.1 hm)
    rw [hv]
    rfl
  rw [List.filterMap_congr hall, List.filterMap_some]

theorem keyed_orderElements (grammar : Model) (h : elements.Keyed) :
    (orderElements grammar elements).Keyed := by
  refine ⟨fun p hp => ?_, ?_⟩
  · rw [orderElements_eq grammar h] at hp
    obtain ⟨m, _, hm⟩ := List.mem_filterMap.1 hp
    obtain ⟨v, _, rfl⟩ := Option.map_eq_some_iff.1 hm
    exact ⟨m, rfl⟩
  · rw [names_orderElements grammar h]
    exact (elementOrder_perm grammar h).nodup_iff.2 h.distinct

theorem get?_orderElements (grammar : Model) (h : elements.Keyed) (n : String) :
    Pairs.get? (orderElements grammar elements) n = Pairs.get? elements n := by
  apply Option.ext
  intro v
  rw [(keyed_orderElements grammar h).get?_eq_some_iff, orderElements_eq grammar h,
    List.mem_filterMap]
  constructor
  · rintro ⟨m, _, hm⟩
    obtain ⟨w, hw, heq⟩ := Option.map_eq_some_iff.1 hm
    obtain ⟨rfl, rfl⟩ : m = n ∧ w = v := by simpa using heq
    exact hw
  · intro hv
    exact ⟨n, (elementOrder_perm grammar h).mem_iff.2 (Pairs.mem_names_of_get? hv), by rw [hv]; rfl⟩

/-- Ordering keeps every entry as it is. -/
theorem orderElements_perm (grammar : Model) (h : elements.Keyed) :
    (orderElements grammar elements).Perm elements :=
  (keyed_orderElements grammar h).perm_of_get? h (get?_orderElements grammar h)

/-- The canonical order does not depend on how the entries stand. -/
theorem elementOrder_congr (grammar : Model) {a b : Pairs} (ha : a.Keyed) (hb : b.Keyed)
    (h : ∀ n, Pairs.get? a n = Pairs.get? b n) :
    elementOrder grammar a = elementOrder grammar b := by
  refine arrangement_congr grammar.root (fun n => ?_) fun m n => ?_
  · rw [map_fst_references, map_fst_references, ha.mem_names_iff, hb.mem_names_iff, h]
  · simp only [mem_references_iff ha, mem_references_iff hb, h]

end GrammarProfile.Cascade
