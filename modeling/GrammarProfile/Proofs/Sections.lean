import GrammarProfile.Cascade.Expand
import GrammarProfile.Proofs.Accepted

/-!
Sections of an entry that take in what they lack.
-/
namespace GrammarProfile.Cascade

open GrammarProfile.Profile (IsSection)
open GrammarProfile.Yaml (Value Pairs)

/-- Pairs that stay as they are, followed by those of the wanted ones that they lack. -/
structure Gains (wanted : String → Option Value) (before after : Pairs) : Prop where
  keyed : after.Keyed
  kept : before <+: after
  get? : ∀ n, Pairs.get? after n = (Pairs.get? before n).or (wanted n)

/-- A section before and after it takes in what is wanted. It stays as it is, even if it is
missing or null, when nothing is wanted. -/
inductive Fills (wanted : String → Option Value) : Option Value → Option Value → Prop
  | same {v : Option Value} (h : ∀ n, wanted n = none) : Fills wanted v v
  | gains {v : Option Value} {before after : Pairs} (hwanted : ∃ n, wanted n ≠ none)
      (hbefore : IsSection v before) (h : Gains wanted before after) :
      Fills wanted v (some (.mapping after))

theorem Fills.isSection {wanted : String → Option Value} {v w : Option Value} {before : Pairs}
    (h : Fills wanted v w) (hv : IsSection v before) : ∃ after, IsSection w after := by
  cases h with
  | same _ => exact ⟨before, hv⟩
  | gains _ _ h => exact ⟨_, .mapping h.keyed⟩

/-- Mappings that differ at most in one section, which takes in what is wanted. -/
structure FillsSection (name : String) (wanted : String → Option Value) (before after : Pairs) :
    Prop where
  keyed : after.Keyed
  filled : Fills wanted (Pairs.get? before name) (Pairs.get? after name)
  others : ∀ n, n ≠ name → Pairs.get? after n = Pairs.get? before n

section Additions

variable {additions : List (String × Value)} {pairs : Pairs} {name n : String}

theorem addMissing_cons (name : String) (v : Value) (rest : List (String × Value)) (pairs : Pairs) :
    addMissing ((name, v) :: rest) pairs =
      addMissing rest (if Pairs.contains pairs name then pairs else pairs ++ [(.string name, v)]) :=
  rfl

/-- Of several additions of one name the first one counts. -/
theorem gains_addMissing (additions : List (String × Value)) (h : pairs.Keyed) :
    Gains (fun n => additions.lookup n) pairs (addMissing additions pairs) := by
  induction additions generalizing pairs with
  | nil => exact ⟨h, List.prefix_refl _, fun n => (Option.or_none ..).symm⟩
  | cons p rest ih =>
      obtain ⟨name, v⟩ := p
      rw [addMissing_cons]
      by_cases hin : Pairs.contains pairs name = true
      · have hrest := ih h
        rw [if_pos hin]
        refine ⟨hrest.keyed, hrest.kept, fun n => ?_⟩
        rw [hrest.get?, lookup_cons_ite]
        by_cases hn : n = name
        · obtain ⟨w, hw⟩ := Pairs.contains_iff.1 hin
          rw [hn, hw, Option.some_or, Option.some_or]
        · rw [if_neg hn]
      · have hnew : name ∉ Pairs.names pairs := fun hmem => hin (h.contains_iff.2 hmem)
        have hrest := ih (h.append_single hnew v)
        rw [if_neg hin]
        refine ⟨hrest.keyed, (List.prefix_append _ _).trans hrest.kept, fun n => ?_⟩
        rw [hrest.get?, Pairs.get?_append, Pairs.get?_cons_string, Pairs.get?_nil, Option.or_assoc,
          lookup_cons_ite]
        by_cases hn : n = name
        · rw [if_pos hn, if_pos hn, Option.some_or]
        · rw [if_neg hn, if_neg hn, Option.none_or]

theorem exists_lookup_ne_none (h : additions ≠ []) : ∃ n, additions.lookup n ≠ none := by
  obtain ⟨⟨name, v⟩, rest, rfl⟩ := List.exists_cons_of_ne_nil h
  refine ⟨name, ?_⟩
  rw [lookup_cons_ite, if_pos rfl]
  exact Option.some_ne_none v

/-- A mapping with a section that is a mapping, empty if it was missing or null. -/
def opened (name : String) (fields : Pairs) : Pairs :=
  match Pairs.get? fields name with
  | none => Pairs.set name (.mapping []) fields
  | some .null => Pairs.set name (.mapping []) fields
  | some _ => fields

theorem addToSection_cons (name : String) (p : String × Value) (rest : List (String × Value))
    (fields : Pairs) : addToSection name (p :: rest) fields =
      Pairs.update name (Value.editPairs (addMissing (p :: rest))) (opened name fields) := rfl

theorem keyed_opened {fields : Pairs} (h : fields.Keyed) (name : String) :
    (opened name fields).Keyed := by
  unfold opened
  split
  · exact h.set name _
  · exact h.set name _
  · exact h

theorem get?_opened {fields before : Pairs} (h : IsSection (Pairs.get? fields name) before)
    (n : String) : Pairs.get? (opened name fields) n =
      if n = name then some (.mapping before) else Pairs.get? fields n := by
  unfold opened
  generalize hv : Pairs.get? fields name = v at h
  cases h with
  | missing => exact Pairs.get?_set _ _ _ _
  | null => exact Pairs.get?_set _ _ _ _
  | mapping _ =>
      dsimp only
      split
      · next hn => rw [hn, hv]
      · rfl

theorem fillsSection_addToSection {fields before : Pairs} (additions : List (String × Value))
    (h : fields.Keyed) (hsection : IsSection (Pairs.get? fields name) before) :
    FillsSection name (fun n => additions.lookup n) fields
      (addToSection name additions fields) := by
  cases additions with
  | nil => exact ⟨h, .same fun n => rfl, fun n _ => rfl⟩
  | cons p rest =>
      have hgains := gains_addMissing (p :: rest) hsection.keyed
      have hget : ∀ n, Pairs.get? (addToSection name (p :: rest) fields) n =
          if n = name then some (.mapping (addMissing (p :: rest) before))
          else Pairs.get? fields n := by
        intro n
        rw [addToSection_cons, Pairs.get?_update, get?_opened hsection]
        split <;> rfl
      refine ⟨(keyed_opened h name).update name _, ?_, fun n hn => ?_⟩
      · rw [hget, if_pos rfl]
        exact .gains (exists_lookup_ne_none (List.cons_ne_nil p rest)) hsection hgains
      · rw [hget, if_neg hn]

end Additions

end GrammarProfile.Cascade
