import GrammarProfile.OrderedMap

/-!
Ordered maps by their names and lookups: two views that determine a map up to the order of its
pairs.
-/
namespace GrammarProfile

variable {α β : Type}

theorem lookup_cons_ite (n m : String) (v : α) (rest : List (String × α)) :
    ((m, v) :: rest).lookup n = if n = m then some v else rest.lookup n := by
  by_cases e : n = m
  · simp [e]
  · have hne : (n == m) = false := by simpa using e
    rw [List.lookup_cons, hne, if_neg e]

theorem lookup_eq_some_iff {pairs : List (String × α)} (h : (pairs.map Prod.fst).Nodup)
    {name : String} {value : α} : pairs.lookup name = some value ↔ (name, value) ∈ pairs := by
  induction pairs with
  | nil => simp
  | cons p rest ih =>
      obtain ⟨m, v⟩ := p
      have hd := List.nodup_cons.1 h
      rw [lookup_cons_ite]
      by_cases e : name = m
      · subst e
        have hrest : (name, value) ∉ rest := fun hm => hd.1 (List.mem_map.2 ⟨_, hm, rfl⟩)
        simp [hrest, eq_comm]
      · simp [ih hd.2, e]

theorem lookup_eq_none_iff {pairs : List (String × α)} {name : String} :
    pairs.lookup name = none ↔ name ∉ pairs.map Prod.fst := by
  induction pairs with
  | nil => simp
  | cons p rest ih =>
      rw [lookup_cons_ite]
      by_cases e : name = p.1 <;> simp [e, ih]

theorem lookup_setPair (name : String) (value : α) (pairs : List (String × α)) (n : String) :
    (setPair name value pairs).lookup n = if n = name then some value else pairs.lookup n := by
  induction pairs with
  | nil => rw [setPair, lookup_cons_ite]
  | cons p rest ih =>
      obtain ⟨m, v⟩ := p
      by_cases em : m = name
      · subst em
        simp only [setPair, if_true, lookup_cons_ite]
        by_cases e : n = m <;> simp [e]
      · simp only [setPair, em, if_false, lookup_cons_ite, ih]
        by_cases e : n = m
        · subst e; simp [em]
        · simp [e]

theorem names_setPair (name : String) (value : α) (pairs : List (String × α)) :
    (setPair name value pairs).map Prod.fst =
      if name ∈ pairs.map Prod.fst then pairs.map Prod.fst else pairs.map Prod.fst ++ [name] := by
  induction pairs with
  | nil => rfl
  | cons p rest ih =>
      obtain ⟨m, v⟩ := p
      by_cases em : m = name
      · subst em; simp [setPair]
      · have em' : name ≠ m := fun h => em h.symm
        simp only [setPair, em, if_false, List.map_cons, ih, List.mem_cons, em', false_or]
        split <;> rfl

theorem setPair_of_notMem {name : String} {value : α} {pairs : List (String × α)}
    (h : name ∉ pairs.map Prod.fst) : setPair name value pairs = pairs ++ [(name, value)] := by
  induction pairs with
  | nil => rfl
  | cons p rest ih =>
      rw [List.map_cons, List.mem_cons, not_or] at h
      obtain ⟨hne, hrest⟩ := h
      rw [setPair, if_neg (Ne.symm hne), ih hrest, List.cons_append]

theorem mem_setPair {name : String} {value : α} {pairs : List (String × α)} {p : String × α}
    (h : p ∈ setPair name value pairs) : p = (name, value) ∨ p ∈ pairs := by
  induction pairs with
  | nil => exact .inl (List.mem_singleton.1 h)
  | cons q rest ih =>
      rw [setPair] at h
      split at h
      next hname =>
        rcases List.mem_cons.1 h with h | h
        · exact .inl (hname ▸ h)
        · exact .inr (List.mem_cons_of_mem _ h)
      · rcases List.mem_cons.1 h with h | h
        · exact .inr (h ▸ List.mem_cons_self)
        · exact (ih h).imp_right (List.mem_cons_of_mem _)

/-- An item is found by its key where no two items share one. -/
theorem find?_of_nodup {α : Type} {key : α → String} {l : List α} {a : α}
    (h : (l.map key).Nodup) (ha : a ∈ l) : l.find? (fun b => key b == key a) = some a := by
  induction l with
  | nil => exact absurd ha List.not_mem_nil
  | cons b rest ih =>
      obtain ⟨hb, hrest⟩ := List.nodup_cons.1 h
      rcases List.mem_cons.1 ha with rfl | ha
      · rw [List.find?_cons_of_pos (by simp)]
      · have hne : key b ≠ key a := fun e => hb (e ▸ List.mem_map_of_mem ha)
        rw [List.find?_cons_of_neg (by simpa using hne), ih hrest ha]

namespace OrderedMap

theorem keys_nodup (m : OrderedMap α) : m.keys.Nodup := m.distinct

theorem get?_eq_some_iff {m : OrderedMap α} {name : String} {value : α} :
    m.get? name = some value ↔ (name, value) ∈ m.pairs := lookup_eq_some_iff m.distinct

theorem get?_eq_none_iff {m : OrderedMap α} {name : String} :
    m.get? name = none ↔ name ∉ m.keys := lookup_eq_none_iff

theorem get?_isSome {m : OrderedMap α} {name : String} :
    (m.get? name).isSome = true ↔ name ∈ m.keys := by
  rw [← Option.ne_none_iff_isSome, Ne, get?_eq_none_iff, Decidable.not_not]

theorem contains_iff {m : OrderedMap α} {name : String} :
    m.contains name = true ↔ name ∈ m.keys := by
  simp [contains, keys]

theorem contains_iff_get? {m : OrderedMap α} {name : String} :
    m.contains name = true ↔ ∃ v, m.get? name = some v := by
  rw [contains_iff, ← get?_isSome, Option.isSome_iff_exists]

theorem get?_insert (m : OrderedMap α) (name : String) (value : α) (n : String) :
    (m.insert name value).get? n = if n = name then some value else m.get? n :=
  lookup_setPair name value m.pairs n

theorem keys_insert (m : OrderedMap α) (name : String) (value : α) :
    (m.insert name value).keys = if name ∈ m.keys then m.keys else m.keys ++ [name] :=
  names_setPair name value m.pairs

theorem keys_map (f : String → α → β) (m : OrderedMap α) : (m.map f).keys = m.keys := by
  simp [map, keys]

theorem get?_map (f : String → α → β) (m : OrderedMap α) (name : String) :
    (m.map f).get? name = (m.get? name).map (f name) := by
  cases h : m.get? name with
  | none =>
      rw [Option.map_none, get?_eq_none_iff, keys_map]
      exact get?_eq_none_iff.1 h
  | some v =>
      rw [Option.map_some, get?_eq_some_iff]
      exact List.mem_map.2 ⟨(name, v), get?_eq_some_iff.1 h, rfl⟩

/-- Pairs with different names are taken in as they stand. -/
theorem pairs_ofList {pairs : List (String × α)} (h : (pairs.map Prod.fst).Nodup) :
    (ofList pairs).pairs = pairs := by
  have hfold : ∀ (rest : List (String × α)) (m : OrderedMap α),
      ((m.pairs ++ rest).map Prod.fst).Nodup →
      (rest.foldl (fun m p => m.insert p.1 p.2) m).pairs = m.pairs ++ rest := by
    intro rest
    induction rest with
    | nil => intro m _; simp
    | cons p rest ih =>
        intro m hm
        have hnew : p.1 ∉ m.pairs.map Prod.fst := by
          rw [List.map_append, List.nodup_append] at hm
          exact fun hin => hm.2.2 _ hin _ List.mem_cons_self rfl
        have hinsert : (m.insert p.1 p.2).pairs = m.pairs ++ [p] := setPair_of_notMem hnew
        rw [List.foldl_cons, ih _ (by rw [hinsert, List.append_assoc]; exact hm), hinsert,
          List.append_assoc, List.singleton_append]
  simpa [ofList, empty] using hfold pairs empty (by simpa [empty] using h)

/-- Only pairs that were taken in are found. -/
theorem mem_of_mem_ofList {pairs : List (String × α)} {p : String × α}
    (h : p ∈ (ofList pairs).pairs) : p ∈ pairs := by
  have hfold : ∀ m : OrderedMap α,
      p ∈ (pairs.foldl (fun m p => m.insert p.1 p.2) m).pairs → p ∈ m.pairs ∨ p ∈ pairs := by
    clear h
    induction pairs with
    | nil => exact fun _ => .inl
    | cons q rest ih =>
        intro m h
        rcases ih _ h with h | h
        · exact (mem_setPair h).elim (fun he => .inr (he ▸ List.mem_cons_self)) .inl
        · exact .inr (List.mem_cons_of_mem _ h)
  exact (hfold ∅ h).resolve_left List.not_mem_nil

theorem exists_of_mem_keys {m : OrderedMap α} {name : String} (h : name ∈ m.keys) :
    ∃ value, (name, value) ∈ m.pairs := by
  obtain ⟨p, hp, rfl⟩ := List.mem_map.1 h
  exact ⟨p.2, hp⟩

theorem mem_keys_of_mem {m : OrderedMap α} {name : String} {value : α}
    (h : (name, value) ∈ m.pairs) : name ∈ m.keys := List.mem_map_of_mem (f := Prod.fst) h

theorem mem_values_of_get? {m : OrderedMap α} {name : String} {value : α}
    (h : m.get? name = some value) : value ∈ m.values :=
  List.mem_map_of_mem (f := Prod.snd) (get?_eq_some_iff.1 h)

/-- The same values under the same names, in whatever order. -/
def Agrees (a b : OrderedMap α) : Prop := ∀ n, a.get? n = b.get? n

namespace Agrees

variable {a b : OrderedMap α} {name : String}

theorem symm (h : Agrees a b) : Agrees b a := fun n => (h n).symm

theorem mem_pairs_iff (h : Agrees a b) {p : String × α} : p ∈ a.pairs ↔ p ∈ b.pairs := by
  rw [← get?_eq_some_iff (m := a), ← get?_eq_some_iff (m := b), h]

theorem mem_keys_iff (h : Agrees a b) : name ∈ a.keys ↔ name ∈ b.keys := by
  rw [← get?_isSome, ← get?_isSome, h]

theorem contains_eq (h : Agrees a b) (name : String) : a.contains name = b.contains name := by
  rw [Bool.eq_iff_iff, contains_iff, contains_iff, h.mem_keys_iff]

theorem perm (h : Agrees a b) : a.pairs.Perm b.pairs := by
  have hnodup : ∀ m : OrderedMap α, m.pairs.Nodup := fun m =>
    List.Pairwise.of_map Prod.fst (fun _ _ hne heq => hne (congrArg Prod.fst heq)) m.distinct
  rw [List.perm_ext_iff_of_nodup (hnodup a) (hnodup b)]
  exact fun _ => h.mem_pairs_iff

theorem size_eq (h : Agrees a b) : a.size = b.size := h.perm.length_eq

theorem isEmpty_eq (h : Agrees a b) : a.isEmpty = b.isEmpty := by
  rw [Bool.eq_iff_iff, isEmpty, isEmpty, List.isEmpty_iff, List.isEmpty_iff]
  exact ⟨fun ha => (ha ▸ h.perm).nil_eq.symm, fun hb => (hb ▸ h.perm).eq_nil⟩

end Agrees

end OrderedMap

end GrammarProfile
