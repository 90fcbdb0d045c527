import GrammarProfile.Proofs.Again
import GrammarProfile.Proofs.Strip

/-!
Stripping as pruning: a mapping loses pairs, and where it loses all of them it goes as well. Of two
names it makes no difference which one is stripped first.
-/
namespace GrammarProfile.Cascade

open GrammarProfile.Profile (IsEntry choiceKey)
open GrammarProfile.Yaml (Value Pairs)

/-- A mapping with fewer pairs, unless there are none left. -/
def pruned (f : Pairs → Pairs) : Value → Option Value
  | .mapping pairs => if (f pairs).isEmpty then none else some (.mapping (f pairs))
  | v => some v

/-- Prunes what stands under a name. -/
def pruneAt (name : String) (f : Pairs → Pairs) (pairs : Pairs) : Pairs :=
  pairs.filterMap fun p =>
    if Pairs.isKey name p.1 then (pruned f p.2).map fun v => (p.1, v) else some p

section Prune

variable {f g : Pairs → Pairs} {name a : String} {pairs inner : Pairs}

theorem pruned_pruned (hf : f [] = []) (v : Value) :
    (pruned g v).bind (pruned f) = pruned (fun pairs => f (g pairs)) v := by
  cases v with
  | mapping pairs =>
      by_cases hg : g pairs = []
      · simp [pruned, hg, hf]
      · simp [pruned, hg]
  | _ => rfl

theorem pruneAt_cons (p : Value × Value) (rest : Pairs) :
    pruneAt name f (p :: rest) =
      (if Pairs.isKey name p.1 then (pruned f p.2).map fun v => (p.1, v) else some p).toList ++
        pruneAt name f rest := by
  unfold pruneAt
  rw [List.filterMap_cons]
  split <;> next h => rw [h]; rfl

/-- Pruning twice is pruning once by both. -/
theorem pruneAt_pruneAt (hf : f [] = []) (name : String) (pairs : Pairs) :
    pruneAt name f (pruneAt name g pairs) = pruneAt name (fun inner => f (g inner)) pairs := by
  unfold pruneAt
  rw [List.filterMap_filterMap]
  refine List.filterMap_congr fun p _ => ?_
  by_cases hkey : Pairs.isKey name p.1 = true
  · rw [if_pos hkey, if_pos hkey, ← pruned_pruned hf]
    cases pruned g p.2 with
    | none => rfl
    | some v => exact if_pos hkey
  · rw [if_neg hkey, if_neg hkey, Option.bind_some, if_neg hkey]

theorem pruneAt_congr
    (h : ∀ inner, (Value.string name, Value.mapping inner) ∈ pairs → f inner = g inner) :
    pruneAt name f pairs = pruneAt name g pairs := by
  unfold pruneAt
  refine List.filterMap_congr fun p hp => ?_
  obtain ⟨key, v⟩ := p
  by_cases hkey : Pairs.isKey name key = true
  · obtain rfl := Pairs.isKey_iff.1 hkey
    cases v with
    | mapping inner => rw [pruned, pruned, h inner hp]
    | _ => rfl
  · rw [if_neg hkey, if_neg hkey]

theorem pruneAt_of_get?_ne (h : pairs.Keyed)
    (hother : ∀ inner, Pairs.get? pairs name ≠ some (.mapping inner)) :
    pruneAt name f pairs = pairs := by
  have hsome : pruneAt name f pairs = pairs.filterMap some := by
    refine List.filterMap_congr fun p hp => ?_
    obtain ⟨key, v⟩ := p
    by_cases hkey : Pairs.isKey name key = true
    · obtain rfl := Pairs.isKey_iff.1 hkey
      have hv := h.get?_eq_some_iff.2 hp
      cases v with
      | mapping inner => exact absurd hv (hother inner)
      | _ => exact if_pos hkey
    · exact if_neg hkey
  rw [hsome, List.filterMap_some]

theorem pruneAt_of_get?_eq (h : pairs.Keyed) (hinner : Pairs.get? pairs name = some (.mapping inner)) :
    pruneAt name f pairs =
      if (f inner).isEmpty then Pairs.erase pairs name
      else Pairs.set name (.mapping (f inner)) pairs := by
  induction h using Pairs.Keyed.induction with
  | nil => exact absurd hinner (by simp)
  | cons n v rest hn hrest ih =>
      rw [Pairs.get?_cons_string] at hinner
      by_cases hname : name = n
      · subst hname
        have hself : Pairs.isKey name (.string name) = true := Pairs.isKey_iff.2 rfl
        rw [if_pos rfl] at hinner
        obtain rfl := Option.some.inj hinner
        have hnone := hrest.get?_eq_none_iff.2 hn
        have hothers : pruneAt name f rest = rest :=
          pruneAt_of_get?_ne hrest fun inner e => absurd (hnone.symm.trans e) nofun
        have herased : Pairs.erase rest name = rest := by
          refine List.filter_eq_self.2 fun p hp => ?_
          rw [Bool.not_eq_true', ← Bool.not_eq_true]
          exact List.any_eq_false.1 (Pairs.contains_eq_false_iff.2 hnone) p hp
        rw [pruneAt_cons, if_pos hself, hothers, pruned, Pairs.erase,
          List.filter_cons_of_neg (by simp [hself]), ← Pairs.erase, herased, Pairs.set, if_pos hself]
        split <;> rfl
      · have hkey : ¬Pairs.isKey name (.string n) = true := fun e =>
          hname (Value.string.inj (Pairs.isKey_iff.1 e)).symm
        rw [if_neg hname] at hinner
        have herased : Pairs.erase ((.string n, v) :: rest) name =
            (.string n, v) :: Pairs.erase rest name := List.filter_cons_of_pos (by simp [hkey])
        rw [pruneAt_cons, if_neg hkey, ih hinner, herased, Pairs.set, if_neg hkey]
        split <;> rfl

theorem erase_pruneAt (hne : a ≠ name) (f : Pairs → Pairs) (pairs : Pairs) :
    Pairs.erase (pruneAt name f pairs) a = pruneAt name f (Pairs.erase pairs a) := by
  induction pairs with
  | nil => rfl
  | cons p rest ih =>
      obtain ⟨key, v⟩ := p
      unfold Pairs.erase at ih ⊢
      by_cases hkey : Pairs.isKey name key = true
      · obtain rfl := Pairs.isKey_iff.1 hkey
        have hother : ¬Pairs.isKey a (.string name) = true := fun e =>
          hne (Value.string.inj (Pairs.isKey_iff.1 e)).symm
        rw [pruneAt_cons, if_pos hkey, List.filter_append, ih,
          List.filter_cons_of_pos (by simp [hother]), pruneAt_cons, if_pos hkey]
        congr 1
        cases pruned f v with
        | none => rfl
        | some w => exact List.filter_cons_of_pos (by simp [hother])
      · rw [pruneAt_cons, if_neg hkey, List.filter_append, ih]
        by_cases ha : Pairs.isKey a key = true
        · rw [List.filter_cons_of_neg (by simp [ha])]
          simp [ha]
        · rw [List.filter_cons_of_pos (by simp [ha]), pruneAt_cons, if_neg hkey]
          simp [ha]

theorem keyed_pruneAt (h : pairs.Keyed) : (pruneAt name f pairs).Keyed := by
  by_cases hinner : ∃ inner, Pairs.get? pairs name = some (.mapping inner)
  · obtain ⟨inner, hinner⟩ := hinner
    rw [pruneAt_of_get?_eq h hinner]
    split
    · exact h.erase name
    · exact h.set name _
  · rw [pruneAt_of_get?_ne h fun inner e => hinner ⟨inner, e⟩]
    exact h

end Prune

theorem erase_erase_comm (pairs : Pairs) (a b : String) :
    Pairs.erase (Pairs.erase pairs a) b = Pairs.erase (Pairs.erase pairs b) a := by
  unfold Pairs.erase
  rw [List.filter_filter, List.filter_filter]
  exact List.filter_congr fun p _ => Bool.and_comm _ _

theorem erase_of_not_contains {pairs : Pairs} {a : String} (h : ¬Pairs.contains pairs a = true) :
    Pairs.erase pairs a = pairs := by
  refine List.filter_eq_self.2 fun p hp => ?_
  rw [Bool.not_eq_true', ← Bool.not_eq_true]
  exact List.any_eq_false.1 (Bool.eq_false_iff.2 h) p hp

section Strip

variable {a b : String} {v : Value} {fields children : Pairs}

/-- Stripping takes a name from the children and prunes their choice. -/
theorem stripChildren_eq (h : children.Keyed) (a : String) :
    stripChildren a children =
      pruneAt choiceKey (fun members => Pairs.erase members a) (Pairs.erase children a) := by
  have hkeyed := h.erase a
  unfold stripChildren
  dsimp only
  split
  · next members hmembers => exact (pruneAt_of_get?_eq hkeyed hmembers).symm
  · next hother => exact (pruneAt_of_get?_ne hkeyed fun inner e => hother inner e).symm

theorem stripChildren_twice (hb : b ≠ choiceKey) (h : children.Keyed) (a : String) :
    stripChildren b (stripChildren a children) =
      pruneAt choiceKey (fun members => Pairs.erase (Pairs.erase members a) b)
        (Pairs.erase (Pairs.erase children a) b) := by
  rw [stripChildren_eq (keyed_stripChildren h), stripChildren_eq h, erase_pruneAt hb,
    pruneAt_pruneAt rfl]

theorem stripChildren_comm (ha : a ≠ choiceKey) (hb : b ≠ choiceKey) (h : children.Keyed) :
    stripChildren b (stripChildren a children) = stripChildren a (stripChildren b children) := by
  rw [stripChildren_twice hb h, stripChildren_twice ha h, erase_erase_comm]
  exact pruneAt_congr fun members _ => erase_erase_comm members a b

/-- Where a name is not listed, another one is all that is stripped. -/
theorem stripChildren_of_not_listed (hb : b ≠ choiceKey) (h : children.Keyed)
    (hlisted : ¬ListedIn children b) (ha : a ≠ choiceKey) :
    stripChildren b (stripChildren a children) = stripChildren a children := by
  obtain ⟨hchild, hmember⟩ := not_or.1 hlisted
  have hchildren := erase_of_not_contains fun e => hchild ⟨hb, e⟩
  rw [stripChildren_twice hb h, erase_erase_comm, hchildren, stripChildren_eq h]
  refine pruneAt_congr fun members hmembers => ?_
  have hget := (h.erase a).get?_eq_some_iff.2 hmembers
  rw [Pairs.get?_erase, if_neg ha.symm] at hget
  rw [erase_erase_comm, erase_of_not_contains fun e => hmember ⟨members, hget, e⟩]

theorem stripReference_entryValue (h : fields.Keyed) (a : String) :
    stripReference a (entryValue fields) =
      entryValue (pruneAt "children" (stripChildren a) fields) := by
  by_cases hchildren : ∃ children, Pairs.get? fields "children" = some (.mapping children)
  · obtain ⟨children, hchildren⟩ := hchildren
    have hmapping : entryValue fields = .mapping fields := by
      cases fields with
      | nil => exact absurd hchildren (by simp)
      | cons p rest => rfl
    rw [hmapping, stripReference_mapping hchildren, pruneAt_of_get?_eq h hchildren]
    rfl
  · have hother : ∀ children, Pairs.get? fields "children" ≠ some (.mapping children) :=
      fun children e => hchildren ⟨children, e⟩
    rw [pruneAt_of_get?_ne h hother]
    cases fields with
    | nil => rfl
    | cons p rest => exact stripReference_other hother

theorem stripReference_twice (hfields : fields.Keyed) (a b : String) :
    stripReference b (stripReference a (entryValue fields)) = entryValue
      (pruneAt "children" (fun inner => stripChildren b (stripChildren a inner)) fields) := by
  rw [stripReference_entryValue hfields, stripReference_entryValue (keyed_pruneAt hfields),
    pruneAt_pruneAt rfl]

theorem eq_entryValue (h : IsEntry v fields children) :
    v = .mapping [] ∨ v = entryValue fields := by
  cases h.entry with
  | null => exact .inr rfl
  | mapping _ =>
      cases fields with
      | nil => exact .inl rfl
      | cons p rest => exact .inr rfl

/-- What stands under the key for children is what an entry has for children. -/
theorem children_of_mem (h : IsEntry v fields children) {inner : Pairs}
    (hinner : (Value.string "children", Value.mapping inner) ∈ fields) :
    inner = children ∧ children.Keyed := by
  have hlisted := h.listed
  rw [h.entry.keyed.get?_eq_some_iff.2 hinner] at hlisted
  cases hlisted with
  | mapping hkeyed => exact ⟨rfl, hkeyed⟩

/-- Two names can be stripped in either order. -/
theorem stripReference_comm (ha : a ≠ choiceKey) (hb : b ≠ choiceKey)
    (h : IsEntry v fields children) :
    stripReference b (stripReference a v) = stripReference a (stripReference b v) := by
  rcases eq_entryValue h with rfl | rfl
  · rfl
  · rw [stripReference_twice h.entry.keyed, stripReference_twice h.entry.keyed]
    refine congrArg entryValue (pruneAt_congr fun inner hinner => ?_)
    obtain ⟨rfl, hkeyed⟩ := children_of_mem h hinner
    exact stripChildren_comm ha hb hkeyed

/-- Stripping a name that an entry does not list leaves it as it is, once another one is
stripped. -/
theorem stripReference_of_not_lists (ha : a ≠ choiceKey) (hb : b ≠ choiceKey)
    (h : IsEntry v fields children) (hlists : ¬Lists v b) :
    stripReference b (stripReference a v) = stripReference a v := by
  rcases eq_entryValue h with rfl | rfl
  · rfl
  · rw [stripReference_twice h.entry.keyed, stripReference_entryValue h.entry.keyed]
    refine congrArg entryValue (pruneAt_congr fun inner hinner => ?_)
    obtain ⟨rfl, hkeyed⟩ := children_of_mem h hinner
    refine stripChildren_of_not_listed hb hkeyed (fun hlisted => hlists ?_) ha
    have hsome : entryValue fields = .mapping fields := by
      cases fields with
      | nil => exact absurd hinner List.not_mem_nil
      | cons p rest => rfl
    rw [hsome, lists_mapping_iff]
    exact ⟨inner, h.entry.keyed.get?_eq_some_iff.2 hinner, hlisted⟩

end Strip

end GrammarProfile.Cascade
