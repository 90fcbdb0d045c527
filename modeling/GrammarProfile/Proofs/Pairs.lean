import GrammarProfile.Yaml.Value
import Mathlib.Data.List.Perm.Basic
import Mathlib.Data.List.Nodup

/-!
Pairs by their names and lookups. What is changed in a mapping shows at one name only, and
mappings whose keys are different texts are determined by their lookups.
-/
namespace GrammarProfile.Yaml

@[simp] theorem Value.pairs?_mapping (pairs : Pairs) : (Value.mapping pairs).pairs? = some pairs :=
  rfl

@[simp] theorem Value.pairs?_null : Value.null.pairs? = none := rfl

namespace Pairs

variable {pairs : Pairs} {name n : String} {v : Value}

theorem isKey_iff {key : Value} : isKey name key = true ↔ key = .string name := by
  cases key <;> simp [isKey]

theorem get?_cons (key : Value) (v : Value) (rest : Pairs) (name : String) :
    get? ((key, v) :: rest) name = if isKey name key then some v else get? rest name := by
  unfold get?
  by_cases h : isKey name key = true <;> simp [h]

theorem get?_cons_string (m : String) (v : Value) (rest : Pairs) (n : String) :
    get? ((.string m, v) :: rest) n = if n = m then some v else get? rest n := by
  rw [get?_cons]
  by_cases h : n = m
  · rw [if_pos (isKey_iff.2 (congrArg _ h.symm)), if_pos h]
  · rw [if_neg (fun hk => h (Value.string.inj (isKey_iff.1 hk)).symm), if_neg h]

@[simp] theorem get?_nil (name : String) : get? [] name = none := rfl

theorem contains_iff : contains pairs name = true ↔ ∃ v, get? pairs name = some v := by
  rw [← Option.isSome_iff_exists, get?, Option.isSome_map, List.find?_isSome, contains,
    List.any_eq_true]

theorem contains_eq_false_iff : contains pairs name = false ↔ get? pairs name = none := by
  rw [← Bool.not_eq_true, contains_iff, Option.eq_none_iff_forall_ne_some, not_exists]

theorem mem_of_get? (h : get? pairs name = some v) : (Value.string name, v) ∈ pairs := by
  obtain ⟨⟨key, w⟩, hfind, rfl⟩ := Option.map_eq_some_iff.1 h
  have hkey : isKey name key = true := by simpa using List.find?_some hfind
  rw [← isKey_iff.1 hkey]
  exact List.mem_of_find?_eq_some hfind

theorem mem_names_of_get? (h : get? pairs name = some v) : name ∈ names pairs :=
  List.mem_filterMap.2 ⟨_, mem_of_get? h, rfl⟩

theorem get?_append (a b : Pairs) (name : String) :
    get? (a ++ b) name = (get? a name).or (get? b name) := by
  induction a with
  | nil => rfl
  | cons p rest ih =>
      rw [List.cons_append, get?_cons, get?_cons, ih]
      split <;> rfl

theorem get?_set (name : String) (v : Value) (pairs : Pairs) (n : String) :
    get? (set name v pairs) n = if n = name then some v else get? pairs n := by
  induction pairs with
  | nil => rw [set, get?_cons_string]
  | cons p rest ih =>
      obtain ⟨key, w⟩ := p
      by_cases hkey : isKey name key = true
      · rw [set, if_pos hkey, isKey_iff.1 hkey, get?_cons_string, get?_cons_string]
        by_cases h : n = name
        · rw [if_pos h, if_pos h]
        · rw [if_neg h, if_neg h, if_neg h]
      · rw [set, if_neg hkey, get?_cons, get?_cons, ih]
        by_cases h : n = name
        · rw [if_pos h, if_pos h, h, if_neg hkey]
        · rw [if_neg h, if_neg h]

theorem get?_erase (pairs : Pairs) (name n : String) :
    get? (erase pairs name) n = if n = name then none else get? pairs n := by
  unfold erase
  induction pairs with
  | nil => simp
  | cons p rest ih =>
      obtain ⟨key, w⟩ := p
      by_cases hkey : isKey name key = true
      · rw [List.filter_cons_of_neg (by simp [hkey]), ih, isKey_iff.1 hkey, get?_cons_string]
        by_cases h : n = name
        · rw [if_pos h, if_pos h]
        · rw [if_neg h, if_neg h, if_neg h]
      · rw [List.filter_cons_of_pos (by simp [hkey]), get?_cons, get?_cons, ih]
        by_cases h : n = name
        · rw [if_pos h, if_pos h, h, if_neg hkey]
        · rw [if_neg h, if_neg h]

theorem get?_map (f : Value × Value → Value) (pairs : Pairs) (n : String) :
    get? (pairs.map fun p => (p.1, f p)) n = (get? pairs n).map fun v => f (.string n, v) := by
  induction pairs with
  | nil => rfl
  | cons p rest ih =>
      obtain ⟨key, w⟩ := p
      rw [List.map_cons, get?_cons, get?_cons, ih]
      by_cases hkey : isKey n key = true
      · rw [if_pos hkey, if_pos hkey, Option.map_some, isKey_iff.1 hkey]
      · rw [if_neg hkey, if_neg hkey]

theorem update_eq_map (name : String) (f : Value → Value) (pairs : Pairs) :
    update name f pairs = pairs.map fun p => (p.1, if isKey name p.1 then f p.2 else p.2) := by
  refine List.map_congr_left fun p _ => ?_
  split <;> rfl

theorem get?_update (name : String) (f : Value → Value) (pairs : Pairs) (n : String) :
    get? (update name f pairs) n =
      if n = name then (get? pairs n).map f else get? pairs n := by
  rw [update_eq_map, get?_map]
  by_cases h : n = name
  · simp [isKey, h]
  · simp [isKey, h]

/-- Keys that are different texts. -/
structure Keyed (pairs : Pairs) : Prop where
  textual : ∀ p ∈ pairs, ∃ n, p.1 = .string n
  distinct : (names pairs).Nodup

theorem names_cons (n : String) (v : Value) (rest : Pairs) :
    names ((.string n, v) :: rest) = n :: names rest := rfl

theorem names_append (a b : Pairs) : names (a ++ b) = names a ++ names b := List.filterMap_append

theorem keyed_nil : Keyed [] := ⟨fun _ h => absurd h List.not_mem_nil, List.nodup_nil⟩

theorem keyed_cons {rest : Pairs} :
    Keyed ((.string n, v) :: rest) ↔ n ∉ names rest ∧ Keyed rest := by
  constructor
  · intro h
    obtain ⟨hn, hrest⟩ := List.nodup_cons.1 (names_cons n v rest ▸ h.distinct)
    exact ⟨hn, fun p hp => h.textual p (List.mem_cons_of_mem _ hp), hrest⟩
  · rintro ⟨hn, hrest⟩
    refine ⟨fun p hp => ?_, names_cons n v rest ▸ List.nodup_cons.2 ⟨hn, hrest.distinct⟩⟩
    rcases List.mem_cons.1 hp with rfl | hp
    · exact ⟨n, rfl⟩
    · exact hrest.textual p hp

namespace Keyed

/-- Pairs with keys that are texts, one after the other. -/
theorem induction {motive : ∀ pairs : Pairs, pairs.Keyed → Prop} (nil : motive [] keyed_nil)
    (cons : ∀ n v rest (hn : n ∉ names rest) (hrest : Keyed rest), motive rest hrest →
      motive ((.string n, v) :: rest) (keyed_cons.2 ⟨hn, hrest⟩)) (h : pairs.Keyed) :
    motive pairs h := by
  induction pairs with
  | nil => exact nil
  | cons p rest ih =>
      obtain ⟨key, v⟩ := p
      obtain ⟨n, rfl⟩ := h.textual _ List.mem_cons_self
      obtain ⟨hn, hrest⟩ := keyed_cons.1 h
      exact cons n v rest hn hrest (ih hrest)

theorem get?_eq_some_iff (h : pairs.Keyed) :
    get? pairs n = some v ↔ (Value.string n, v) ∈ pairs := by
  refine ⟨mem_of_get?, ?_⟩
  induction h using Keyed.induction with
  | nil => exact fun hv => absurd hv List.not_mem_nil
  | cons m w rest hm _ ih =>
      intro hv
      rw [get?_cons_string]
      rcases List.mem_cons.1 hv with heq | hv
      · obtain ⟨rfl, rfl⟩ : n = m ∧ v = w := by simpa using heq
        rw [if_pos rfl]
      · have hne : n ≠ m := fun e => hm (List.mem_filterMap.2 ⟨_, hv, by rw [← e]; rfl⟩)
        rw [if_neg hne, ih hv]

theorem mem_names_iff (h : pairs.Keyed) : n ∈ names pairs ↔ ∃ v, get? pairs n = some v := by
  refine ⟨fun hn => ?_, fun ⟨_, hv⟩ => mem_names_of_get? hv⟩
  obtain ⟨⟨key, v⟩, hp, hkey⟩ := List.mem_filterMap.1 hn
  obtain ⟨m, rfl⟩ := h.textual _ hp
  obtain rfl : m = n := by simpa [Value.scalarText?] using hkey
  exact ⟨v, h.get?_eq_some_iff.2 hp⟩

theorem contains_iff (h : pairs.Keyed) : contains pairs n = true ↔ n ∈ names pairs := by
  rw [Pairs.contains_iff, h.mem_names_iff]

theorem get?_eq_none_iff (h : pairs.Keyed) : get? pairs n = none ↔ n ∉ names pairs := by
  rw [h.mem_names_iff, Option.eq_none_iff_forall_ne_some, not_exists]

theorem sublist {a b : Pairs} (hb : b.Keyed) (h : a.Sublist b) : a.Keyed :=
  ⟨fun p hp => hb.textual p (h.subset hp), hb.distinct.sublist (h.filterMap _)⟩

theorem nodup (h : pairs.Keyed) : pairs.Nodup := by
  induction h using Keyed.induction with
  | nil => exact List.nodup_nil
  | cons n v rest hn _ ih =>
      exact List.nodup_cons.2 ⟨fun hin => hn (List.mem_filterMap.2 ⟨_, hin, rfl⟩), ih⟩

/-- Lookups determine the pairs up to their order. -/
theorem perm_of_get? {a b : Pairs} (ha : a.Keyed) (hb : b.Keyed)
    (h : ∀ n, get? a n = get? b n) : a.Perm b := by
  rw [List.perm_ext_iff_of_nodup ha.nodup hb.nodup]
  intro p
  constructor
  · intro hp
    obtain ⟨n, hn⟩ := ha.textual p hp
    obtain ⟨key, v⟩ := p
    obtain rfl : key = .string n := hn
    exact hb.get?_eq_some_iff.1 ((h n).symm.trans (ha.get?_eq_some_iff.2 hp))
  · intro hp
    obtain ⟨n, hn⟩ := hb.textual p hp
    obtain ⟨key, v⟩ := p
    obtain rfl : key = .string n := hn
    exact ha.get?_eq_some_iff.1 ((h n).trans (hb.get?_eq_some_iff.2 hp))

theorem once (h : pairs.Keyed) (name : String) :
    pairs.Pairwise fun p q => isKey name p.1 = true → ¬isKey name q.1 = true := by
  induction h using Keyed.induction with
  | nil => exact .nil
  | cons m w rest hm _ ih =>
      refine List.pairwise_cons.2 ⟨fun q hq hfirst hkey => hm ?_, ih⟩
      obtain rfl : m = name := Value.string.inj (isKey_iff.1 hfirst)
      exact List.mem_filterMap.2 ⟨q, hq, by rw [isKey_iff.1 hkey]; rfl⟩

theorem erase (h : pairs.Keyed) (name : String) : (pairs.erase name).Keyed :=
  h.sublist List.filter_sublist

theorem append_single (h : pairs.Keyed) (hn : n ∉ names pairs) (v : Value) :
    Keyed (pairs ++ [(.string n, v)]) := by
  refine ⟨fun p hp => ?_, ?_⟩
  · rcases List.mem_append.1 hp with hp | hp
    · exact h.textual p hp
    · obtain rfl := List.mem_singleton.1 hp
      exact ⟨n, rfl⟩
  · rw [names_append]
    exact h.distinct.append (List.nodup_singleton n) (by simpa [names, Value.scalarText?] using hn)

end Keyed

/-- Changing values leaves the names as they are. -/
theorem names_map (f : Value × Value → Value) (pairs : Pairs) :
    names (pairs.map fun p => (p.1, f p)) = names pairs := by
  unfold names
  rw [List.filterMap_map]
  rfl

theorem Keyed.map (h : pairs.Keyed) (f : Value × Value → Value) :
    Keyed (pairs.map fun p => (p.1, f p)) := by
  refine ⟨fun p hp => ?_, names_map f pairs ▸ h.distinct⟩
  obtain ⟨q, hq, rfl⟩ := List.mem_map.1 hp
  exact h.textual q hq

theorem Keyed.update (h : pairs.Keyed) (name : String) (f : Value → Value) :
    (pairs.update name f).Keyed := by
  rw [update_eq_map]
  exact h.map _

theorem mem_names_set (h : pairs.Keyed) (name : String) (v : Value) :
    n ∈ names (set name v pairs) ↔ n = name ∨ n ∈ names pairs := by
  induction h using Keyed.induction with
  | nil => simp [set, names, Value.scalarText?]
  | cons m w rest _ _ ih =>
      rw [names_cons, List.mem_cons]
      by_cases hkey : isKey name (.string m) = true
      · obtain rfl := Value.string.inj (isKey_iff.1 hkey)
        rw [set, if_pos hkey, names_cons, List.mem_cons, ← or_assoc, or_self]
      · rw [set, if_neg hkey, names_cons, List.mem_cons, ih, or_left_comm]

theorem Keyed.set (h : pairs.Keyed) (name : String) (v : Value) : (set name v pairs).Keyed := by
  induction h using Keyed.induction with
  | nil => exact keyed_cons.2 ⟨List.not_mem_nil, keyed_nil⟩
  | cons m w rest hm hrest ih =>
      by_cases hkey : isKey name (.string m) = true
      · rw [Pairs.set, if_pos hkey]
        exact keyed_cons.2 ⟨hm, hrest⟩
      · have hne : m ≠ name := fun e => hkey (isKey_iff.2 (congrArg _ e))
        rw [Pairs.set, if_neg hkey]
        refine keyed_cons.2 ⟨fun hin => ?_, ih⟩
        rcases (mem_names_set hrest name v).1 hin with e | hin
        · exact hne e
        · exact hm hin

theorem update_of_get?_eq_none (h : get? pairs name = none) (f : Value → Value) :
    update name f pairs = pairs := by
  rw [← contains_eq_false_iff, contains, List.any_eq_false] at h
  unfold update
  nth_rewrite 2 [← List.map_id pairs]
  exact List.map_congr_left fun p hp => if_neg (h p hp)

/-- Changing the value of a name that is there once is setting it. -/
theorem update_eq_set (h : get? pairs name = some v)
    (hone : pairs.Pairwise fun p q => isKey name p.1 = true → ¬isKey name q.1 = true)
    (f : Value → Value) : update name f pairs = set name (f v) pairs := by
  induction pairs with
  | nil => exact absurd h (by simp)
  | cons p rest ih =>
      obtain ⟨key, u⟩ := p
      obtain ⟨hfirst, hrest⟩ := List.pairwise_cons.1 hone
      rw [get?_cons] at h
      by_cases hkey : isKey name key = true
      · have hnone : get? rest name = none := by
          rw [← contains_eq_false_iff, contains, List.any_eq_false]
          exact fun q hq => hfirst q hq hkey
        have hsame := update_of_get?_eq_none hnone f
        rw [if_pos hkey] at h
        obtain rfl := Option.some.inj h
        unfold update at hsame ⊢
        rw [set, if_pos hkey, List.map_cons, if_pos hkey, hsame]
      · rw [if_neg hkey] at h
        have hrec := ih h hrest
        unfold update at hrec ⊢
        rw [set, if_neg hkey, List.map_cons, if_neg hkey, hrec]

end Pairs

end GrammarProfile.Yaml
