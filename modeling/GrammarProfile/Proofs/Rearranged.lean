import GrammarProfile.Proofs.DistinctKeys

/-!
Values that differ in nothing but the order in which the pairs of their mappings stand. Where the
names of a mapping are different, its parts can be compared one by one.
-/
namespace GrammarProfile.Yaml

/-- The keys and values are the same at every level, but the pairs of a mapping may have moved. -/
inductive Value.Rearranged : Value → Value → Prop
  | same (v : Value) : Rearranged v v
  | mapping {before after : Pairs} (f : Value × Value → Value)
      (hvalues : ∀ p ∈ before, Rearranged p.2 (f p))
      (hperm : (before.map fun p => (p.1, f p)).Perm after) :
      Rearranged (.mapping before) (.mapping after)
  | tagged (tag : String) {v w : Value} (h : Rearranged v w) :
      Rearranged (.tagged tag v) (.tagged tag w)

theorem Value.Distinct.pairs? {v : Value} (h : v.Distinct) {pairs : Pairs}
    (hpairs : v.pairs? = some pairs) : pairs.Different ∧ ∀ p ∈ pairs, p.2.Distinct := by
  induction h with
  | mapping hkeys hvalues =>
      obtain rfl := Option.some.inj hpairs
      exact ⟨hkeys, hvalues⟩
  | tagged _ _ ih => exact ih hpairs
  | _ => cases hpairs

/-- Where a name stands once, what stands there is found under it. -/
theorem Pairs.get?_of_mem_once {pairs : Pairs} {n : String} {v : Value}
    (hone : pairs.Pairwise fun p q => isKey n p.1 = true → ¬isKey n q.1 = true)
    (hv : (Value.string n, v) ∈ pairs) : Pairs.get? pairs n = some v := by
  induction pairs with
  | nil => exact absurd hv List.not_mem_nil
  | cons p rest ih =>
      obtain ⟨key, w⟩ := p
      obtain ⟨hfirst, hrest⟩ := List.pairwise_cons.1 hone
      rw [get?_cons]
      rcases List.mem_cons.1 hv with heq | hv
      · obtain ⟨rfl, rfl⟩ : Value.string n = key ∧ v = w := by simpa using heq
        rw [if_pos (isKey_iff.2 rfl)]
      · have hkey : ¬isKey n key = true := fun hkey => hfirst _ hv hkey (isKey_iff.2 rfl)
        rw [if_neg hkey, ih hrest hv]

theorem Pairs.Different.get?_of_mem {pairs : Pairs} (h : pairs.Different) {n : String} {v : Value}
    (hv : (Value.string n, v) ∈ pairs) : Pairs.get? pairs n = some v :=
  get?_of_mem_once (h.not_isKey n) hv

/-- What is found under a name that stands once does not depend on where it stands. -/
theorem Pairs.get?_of_perm {a b : Pairs} {n : String} (h : a.Perm b)
    (hone : a.Pairwise fun p q => isKey n p.1 = true → ¬isKey n q.1 = true) :
    Pairs.get? a n = Pairs.get? b n := by
  have hone' : b.Pairwise fun p q => isKey n p.1 = true → ¬isKey n q.1 = true :=
    h.pairwise hone fun hpq hq hp => hpq hp hq
  refine Option.ext fun v => ⟨fun hv => ?_, fun hv => ?_⟩
  · exact get?_of_mem_once hone' (h.mem_iff.1 (mem_of_get? hv))
  · exact get?_of_mem_once hone (h.mem_iff.2 (mem_of_get? hv))

/-- The pairs of an edited mapping. -/
theorem Value.pairs?_editPairs (f : Pairs → Pairs) (v : Value) :
    (v.editPairs f).pairs? = v.pairs?.map f := by
  fun_induction Value.editPairs f v with
  | case1 pairs => rfl
  | case2 tag v ih => exact ih
  | case3 v hmapping htagged =>
      cases v with
      | mapping pairs => exact absurd rfl (hmapping pairs)
      | tagged tag v => exact absurd rfl (htagged tag v)
      | _ => rfl

namespace Pairs

variable {pairs : Pairs} {n : String} {v : Value}

theorem update_update {a b : String} (h : a ≠ b) (f g : Value → Value) (pairs : Pairs) :
    update a f (update b g pairs) = pairs.map fun p =>
      (p.1, if isKey a p.1 then f p.2 else if isKey b p.1 then g p.2 else p.2) := by
  rw [update_eq_map, update_eq_map, List.map_map]
  refine List.map_congr_left fun p _ => ?_
  dsimp only [Function.comp_apply]
  by_cases ha : isKey a p.1 = true
  · have hb : ¬isKey b p.1 = true := by
      rw [isKey_iff.1 ha, isKey_iff, Value.string.injEq]
      exact h
    rw [if_pos ha, if_pos ha, if_neg hb]
  · rw [if_neg ha, if_neg ha]

theorem Different.map (h : pairs.Different) (f : Value × Value → Value) :
    Different (pairs.map fun p => (p.1, f p)) := List.pairwise_map.2 h

end Pairs

namespace Value.Rearranged

variable {v w : Value} {a b : Pairs} {n : String}

theorem tagged_iff {tag : String} :
    Rearranged (.tagged tag v) (.tagged tag w) ↔ Rearranged v w := by
  constructor
  · intro h
    cases h with
    | same _ => exact .same v
    | tagged _ h => exact h
  · exact .tagged tag

theorem exists_mapping (h : Rearranged (.mapping a) w) : ∃ b, w = .mapping b := by
  cases h <;> exact ⟨_, rfl⟩

theorem of_mapping (h : Rearranged (.mapping a) (.mapping b)) :
    ∃ f : Value × Value → Value, (∀ p ∈ a, Rearranged p.2 (f p)) ∧
      (a.map fun p => (p.1, f p)).Perm b := by
  cases h with
  | same _ => exact ⟨Prod.snd, fun p _ => .same p.2, by rw [List.map_id']⟩
  | mapping f hvalues hperm => exact ⟨f, hvalues, hperm⟩

theorem keys_perm (h : Rearranged (.mapping a) (.mapping b)) :
    (a.map Prod.fst).Perm (b.map Prod.fst) := by
  obtain ⟨f, _, hperm⟩ := h.of_mapping
  have hkeys := hperm.map Prod.fst
  rw [List.map_map] at hkeys
  exact hkeys

theorem get? (h : Rearranged (.mapping a) (.mapping b)) (hdifferent : a.Different)
    (hv : Pairs.get? a n = some v) (hw : Pairs.get? b n = some w) : Rearranged v w := by
  obtain ⟨f, hvalues, hperm⟩ := h.of_mapping
  obtain ⟨p, hp, heq⟩ := List.mem_map.1 (hperm.mem_iff.2 (Pairs.mem_of_get? hw))
  obtain ⟨key, u⟩ := p
  obtain ⟨rfl, rfl⟩ : key = .string n ∧ f (key, u) = w := by simpa using heq
  obtain rfl : u = v := Option.some.inj ((hdifferent.get?_of_mem hp).symm.trans hv)
  exact hvalues _ hp

/-- Under a name that stands once are values of which one is the other, rearranged. -/
theorem get?_rel (h : Rearranged (.mapping a) (.mapping b))
    (hone : a.Pairwise fun p q => Pairs.isKey n p.1 = true → ¬Pairs.isKey n q.1 = true) :
    Option.Rel Rearranged (Pairs.get? a n) (Pairs.get? b n) := by
  obtain ⟨f, hvalues, hperm⟩ := h.of_mapping
  rw [← Pairs.get?_of_perm hperm (List.pairwise_map.2 hone), Pairs.get?_map]
  cases hv : Pairs.get? a n with
  | none => exact .none
  | some v => exact .some (hvalues _ (Pairs.mem_of_get? hv))

theorem keyed (h : Rearranged (.mapping a) (.mapping b)) (ha : a.Keyed) : b.Keyed := by
  obtain ⟨f, _, hperm⟩ := h.of_mapping
  have hmapped := ha.map f
  exact ⟨fun p hp => hmapped.textual p (hperm.mem_iff.2 hp),
    (hperm.filterMap _).nodup_iff.1 hmapped.distinct⟩

theorem map (f : Value × Value → Value) (h : ∀ p ∈ a, Rearranged p.2 (f p)) :
    Rearranged (.mapping a) (.mapping (a.map fun p => (p.1, f p))) := .mapping f h (.refl _)

theorem of_perm (h : a.Perm b) : Rearranged (.mapping a) (.mapping b) :=
  .mapping Prod.snd (fun p _ => .same p.2) (by rwa [List.map_id'])

/-- Below tags, an edit of a mapping is one of its pairs. -/
theorem editPairs_iff (f : Pairs → Pairs) (hpairs : v.pairs? = some a) :
    Rearranged v (v.editPairs f) ↔ Rearranged (.mapping a) (.mapping (f a)) := by
  fun_induction Value.editPairs f v with
  | case1 pairs =>
      obtain rfl := Option.some.inj hpairs
      rfl
  | case2 tag v ih => exact tagged_iff.trans (ih hpairs)
  | case3 v hmapping htagged =>
      cases v with
      | mapping pairs => exact absurd rfl (hmapping pairs)
      | tagged tag v => exact absurd rfl (htagged tag v)
      | _ => cases hpairs

/-- What is no mapping has no pairs to edit. -/
theorem editPairs_of_none (f : Pairs → Pairs) (hpairs : v.pairs? = none) :
    v.editPairs f = v := by
  fun_induction Value.editPairs f v with
  | case1 pairs => cases hpairs
  | case2 tag v ih => rw [ih hpairs]
  | case3 v _ _ => rfl

theorem update_iff (h : a.Different) (hv : Pairs.get? a n = some v) (f : Value → Value) :
    Rearranged (.mapping a) (.mapping (Pairs.update n f a)) ↔ Rearranged v (f v) := by
  constructor
  · intro hafter
    have hw : Pairs.get? (Pairs.update n f a) n = some (f v) := by
      rw [Pairs.get?_update, if_pos rfl, hv, Option.map_some]
    exact hafter.get? h hv hw
  · intro hvalue
    rw [Pairs.update_eq_map]
    refine map _ fun p hp => ?_
    obtain ⟨key, u⟩ := p
    dsimp only
    split
    · next hkey =>
        obtain rfl := Pairs.isKey_iff.1 hkey
        obtain rfl : u = v := Option.some.inj ((h.get?_of_mem hp).symm.trans hv)
        exact hvalue
    · exact .same u

end Value.Rearranged

end GrammarProfile.Yaml
