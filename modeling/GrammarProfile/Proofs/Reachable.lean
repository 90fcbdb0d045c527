import GrammarProfile.Cascade.Collapse
import GrammarProfile.Proofs.References
import GrammarProfile.Proofs.OrderedMap
import GrammarProfile.Proofs.Walk
import Mathlib.Algebra.Order.BigOperators.Group.List
import Mathlib.Algebra.Order.Group.Nat

/-!
A sweep keeps the entries that can be reached in the graph of the entries, and once is enough.
-/
namespace GrammarProfile.Cascade

open GrammarProfile.Profile (IsEntries)
open GrammarProfile.Yaml (Value Pairs)
open Relation (ReflTransGen)

section Declared

variable {edges : List (String × List String)} (h : (edges.map Prod.fst).Nodup)
include h

theorem declaredBy_of_mem {e : String × List String} (he : e ∈ edges) :
    declaredBy edges e.1 = e.2 := by
  have hreverse : (edges.reverse.map Prod.fst).Nodup := by
    rw [List.map_reverse]
    exact List.nodup_reverse.2 h
  have hlookup : edges.reverse.lookup e.1 = some e.2 :=
    (lookup_eq_some_iff hreverse).2 (List.mem_reverse.2 he)
  rw [declaredBy, hlookup, Option.getD_some]

theorem mem_declaredBy_iff {a b : String} :
    b ∈ declaredBy edges a ↔ ∃ listed, (a, listed) ∈ edges ∧ b ∈ listed := by
  constructor
  · intro hb
    by_cases ha : a ∈ edges.map Prod.fst
    · obtain ⟨⟨_, listed⟩, he, rfl⟩ := List.mem_map.1 ha
      rw [declaredBy_of_mem h he] at hb
      exact ⟨listed, he, hb⟩
    · have hnone : edges.reverse.lookup a = none := by
        rw [lookup_eq_none_iff, List.map_reverse, List.mem_reverse]
        exact ha
      rw [declaredBy, hnone] at hb
      exact absurd hb List.not_mem_nil
  · rintro ⟨listed, he, hb⟩
    rw [declaredBy_of_mem h he]
    exact hb

/-- What the names declare are no more edges than there are. -/
theorem sum_declaredBy_le (keep : String → Bool) :
    ∑ n ∈ (edges.map Prod.fst).toFinset, ((declaredBy edges n).filter keep).length ≤
      (edges.flatMap fun e => e.2).length := by
  rw [List.sum_toFinset _ h, List.length_flatMap, List.map_map]
  apply List.sum_le_sum
  intro e he
  rw [Function.comp_apply, declaredBy_of_mem h he]
  exact List.length_filter_le _ _

end Declared

variable {elements : Pairs} {starts : List String} {n : String}

/-- A path to an entry leads over entries only. -/
theorem path_within (hn : n ∈ Pairs.names elements) {s : String}
    (path : ReflTransGen (Links elements) s n) :
    s ∈ Pairs.names elements ∧
      ReflTransGen (fun a b => b ∈ Pairs.names elements ∧ Links elements a b) s n := by
  induction path using ReflTransGen.head_induction_on with
  | refl => exact ⟨hn, .refl⟩
  | head step _ ih => exact ⟨step.mem_names, .head ⟨ih.1, step⟩ ih.2⟩

theorem mem_reachable_iff (h : IsEntries elements) :
    n ∈ reachable (Tree.references elements) starts ↔
      n ∈ Pairs.names elements ∧ ∃ s ∈ starts, ReflTransGen (Links elements) s n := by
  have hnodup : ((Tree.references elements).map Prod.fst).Nodup := by
    rw [map_fst_references]
    exact h.keyed.distinct
  have hknown : ∀ m, ((Tree.references elements).any fun e => e.1 == m) = true ↔
      m ∈ Pairs.names elements := by
    intro m
    rw [← map_fst_references]
    simp
  have hout : ∀ m, m ∉ ((Tree.references elements).map Prod.fst).toFinset →
      ((declaredBy (Tree.references elements) m).filter fun b =>
        (Tree.references elements).any fun e => e.1 == b) = [] := by
    intro m hm
    refine List.filter_eq_nil_iff.2 fun b hb => ?_
    obtain ⟨listed, he, _⟩ := (mem_declaredBy_iff hnodup).1 hb
    exact absurd (List.mem_toFinset.2 (List.mem_map_of_mem (f := Prod.fst) he)) hm
  have hedge : Edge (fun m => (declaredBy (Tree.references elements) m).filter fun b =>
      (Tree.references elements).any fun e => e.1 == b) =
        fun a b => b ∈ Pairs.names elements ∧ Links elements a b := by
    funext a b
    rw [Edge, List.mem_filter, hknown, mem_declaredBy_iff hnodup, exists_mem_references_iff h,
      and_comm]
  unfold reachable
  rw [mem_walk_iff _ hout (sum_declaredBy_le hnodup _), hedge]
  constructor
  · rintro ⟨s, hs, path⟩
    obtain ⟨hstart, hin⟩ := List.mem_filter.1 hs
    refine ⟨?_, s, hstart, ReflTransGen.mono (fun _ _ step => step.2) _ _ path⟩
    cases path with
    | refl => exact (hknown _).1 hin
    | tail _ step => exact step.1
  · rintro ⟨hn, s, hs, path⟩
    obtain ⟨hin, path⟩ := path_within hn path
    exact ⟨s, List.mem_filter.2 ⟨hs, (hknown s).2 hin⟩, path⟩

section Sweep

theorem sweep_sublist (starts : List String) (elements : Pairs) :
    (sweep starts elements).Sublist elements := List.filter_sublist

theorem get?_sweep_iff (h : IsEntries elements) {v : Value} :
    Pairs.get? (sweep starts elements) n = some v ↔
      Pairs.get? elements n = some v ∧ ∃ s ∈ starts, ReflTransGen (Links elements) s n := by
  have hkeyed := h.keyed.sublist (sweep_sublist starts elements)
  have hmem : (Value.string n, v) ∈ sweep starts elements ↔
      (Value.string n, v) ∈ elements ∧ n ∈ reachable (Tree.references elements) starts := by
    unfold sweep
    rw [List.mem_filter, List.contains_iff_mem]
  rw [hkeyed.get?_eq_some_iff, hmem, h.keyed.get?_eq_some_iff, mem_reachable_iff h]
  refine and_congr_right fun hv => and_iff_right ?_
  exact List.mem_filterMap.2 ⟨_, hv, rfl⟩

theorem isEntries_sweep (h : IsEntries elements) (starts : List String) :
    IsEntries (sweep starts elements) where
  keyed := h.keyed.sublist (sweep_sublist starts elements)
  entry n v hv := h.entry n v ((get?_sweep_iff h).1 hv).1

theorem links_sweep_iff (h : IsEntries elements) {a b : String} :
    Links (sweep starts elements) a b ↔
      a ∈ Pairs.names (sweep starts elements) ∧ Links elements a b := by
  constructor
  · rintro ⟨v, hv, hlists⟩
    exact ⟨Pairs.mem_names_of_get? hv, v, ((get?_sweep_iff h).1 hv).1, hlists⟩
  · rintro ⟨ha, v, hv, hlists⟩
    obtain ⟨w, hw⟩ := (isEntries_sweep h starts).keyed.mem_names_iff.1 ha
    obtain rfl : w = v := Option.some.inj (((get?_sweep_iff h).1 hw).1.symm.trans hv)
    exact ⟨w, hw, hlists⟩

/-- A sweep takes no edge from the paths that begin at its starts. -/
theorem path_sweep (h : IsEntries elements) {s : String} (hs : s ∈ starts)
    (path : ReflTransGen (Links elements) s n) :
    ReflTransGen (Links (sweep starts elements)) s n := by
  induction path with
  | refl => exact .refl
  | tail before step ih =>
      obtain ⟨v, hv, hlists⟩ := step
      exact .tail ih ⟨v, (get?_sweep_iff h).2 ⟨hv, s, hs, before⟩, hlists⟩

/-- What a sweep leaves listed is no entry that it removes. -/
theorem mem_names_sweep_of_links (h : IsEntries elements) {a b : String}
    (hlinks : Links (sweep starts elements) a b) (hb : b ∈ Pairs.names elements) :
    b ∈ Pairs.names (sweep starts elements) := by
  obtain ⟨v, hv, hlists⟩ := hlinks
  obtain ⟨ha, s, hs, path⟩ := (get?_sweep_iff h).1 hv
  obtain ⟨w, hw⟩ := h.keyed.mem_names_iff.1 hb
  exact Pairs.mem_names_of_get? ((get?_sweep_iff h).2 ⟨hw, s, hs, path.tail ⟨v, ha, hlists⟩⟩)

/-- A second sweep from at least the starts that have an entry finds nothing to remove. -/
theorem sweep_sweep (h : IsEntries elements) {again : List String}
    (hstarts : ∀ s ∈ starts, s ∈ Pairs.names elements → s ∈ again) :
    sweep again (sweep starts elements) = sweep starts elements := by
  have hswept := isEntries_sweep h starts
  refine List.filter_eq_self.2 fun p hp => ?_
  obtain ⟨key, v⟩ := p
  obtain ⟨n, rfl⟩ := hswept.keyed.textual _ hp
  have hv := hswept.keyed.get?_eq_some_iff.2 hp
  obtain ⟨hin, s, hs, path⟩ := (get?_sweep_iff h).1 hv
  have hknown := (path_within (Pairs.mem_names_of_get? hin) path).1
  rw [List.contains_iff_mem, mem_reachable_iff hswept]
  exact ⟨Pairs.mem_names_of_get? hv, s, hstarts s hs hknown, path_sweep h hs path⟩

end Sweep

end GrammarProfile.Cascade
