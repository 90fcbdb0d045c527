import GrammarProfile.Cascade.Collapse
import GrammarProfile.Proofs.References

/-!
Entries without a name: stripping takes it from what they list, and leaves them entries.
-/
namespace GrammarProfile.Cascade

open GrammarProfile.Profile (IsSection IsEntry choiceKey)
open GrammarProfile.Yaml (Value Pairs)

variable {name m : String} {v : Value} {fields children : Pairs}

theorem contains_erase_iff {pairs : Pairs} :
    Pairs.contains (Pairs.erase pairs name) m = true ↔
      Pairs.contains pairs m = true ∧ m ≠ name := by
  rw [Pairs.contains_iff, Pairs.contains_iff, Pairs.get?_erase]
  by_cases h : m = name <;> simp [h]

/-- Members of a choice without a name; a choice that is left empty goes. -/
def stripMembers (name : String) : Option Value → Option Value
  | some (.mapping members) =>
    if (Pairs.erase members name).isEmpty then none
    else some (.mapping (Pairs.erase members name))
  | v => v

theorem stripMembers_other {w : Option Value} (h : ∀ members, w ≠ some (.mapping members)) :
    stripMembers name w = w := by
  unfold stripMembers
  split
  · next members => exact absurd rfl (h members)
  · rfl

theorem get?_stripChildren (hname : name ≠ choiceKey) (children : Pairs) (m : String) :
    Pairs.get? (stripChildren name children) m =
      if m = choiceKey then stripMembers name (Pairs.get? children choiceKey)
      else Pairs.get? (Pairs.erase children name) m := by
  have hchoice : Pairs.get? (Pairs.erase children name) choiceKey =
      Pairs.get? children choiceKey := by
    rw [Pairs.get?_erase, if_neg hname.symm]
  unfold stripChildren
  dsimp only
  rw [hchoice]
  split
  · next members hmembers =>
      rw [hmembers, stripMembers]
      split
      · rw [Pairs.get?_erase]
      · rw [Pairs.get?_set]
  · next hother =>
      rw [stripMembers_other fun members h => hother members h]
      split
      · next h => rw [h, hchoice]
      · rfl

/-- Stripping takes a name from the children and from the members of their choice. -/
theorem listedIn_stripChildren (hname : name ≠ choiceKey) :
    ListedIn (stripChildren name children) m ↔ ListedIn children m ∧ m ≠ name := by
  have hchild : (m ≠ choiceKey ∧ Pairs.contains (stripChildren name children) m = true) ↔
      (m ≠ choiceKey ∧ Pairs.contains children m = true) ∧ m ≠ name := by
    rw [and_assoc, ← contains_erase_iff]
    refine and_congr_right fun hm => ?_
    rw [Pairs.contains_iff, Pairs.contains_iff, get?_stripChildren hname, if_neg hm]
  have hmember : (∃ members, Pairs.get? (stripChildren name children) choiceKey =
        some (.mapping members) ∧ Pairs.contains members m = true) ↔
      (∃ members, Pairs.get? children choiceKey = some (.mapping members) ∧
        Pairs.contains members m = true) ∧ m ≠ name := by
    rw [get?_stripChildren hname, if_pos rfl]
    constructor
    · rintro ⟨members, hmembers, hm⟩
      unfold stripMembers at hmembers
      split at hmembers
      · next before hbefore =>
          split at hmembers
          · cases hmembers
          · cases hmembers
            obtain ⟨hin, hne⟩ := contains_erase_iff.1 hm
            exact ⟨⟨before, hbefore, hin⟩, hne⟩
      · next hother => exact absurd hmembers (hother members)
    · rintro ⟨⟨members, hmembers, hm⟩, hne⟩
      have hin := contains_erase_iff.2 ⟨hm, hne⟩
      refine ⟨Pairs.erase members name, ?_, hin⟩
      have hsome : ¬(Pairs.erase members name).isEmpty = true := by
        intro hempty
        rw [List.isEmpty_iff.1 hempty] at hin
        cases hin
      rw [hmembers, stripMembers, if_neg hsome]
  rw [ListedIn, hchild, hmember, ← or_and_right, ListedIn]

theorem isSection_stripMembers (name : String) {w : Option Value} {members : Pairs}
    (h : IsSection w members) : ∃ stripped, IsSection (stripMembers name w) stripped := by
  cases h with
  | missing => exact ⟨[], .missing⟩
  | null => exact ⟨[], .null⟩
  | mapping hkeyed =>
      rw [stripMembers]
      split
      · exact ⟨[], .missing⟩
      · exact ⟨_, .mapping (hkeyed.erase name)⟩

theorem keyed_stripChildren (h : children.Keyed) : (stripChildren name children).Keyed := by
  unfold stripChildren
  dsimp only
  split
  · split
    · exact (h.erase name).erase choiceKey
    · exact (h.erase name).set choiceKey _
  · exact h.erase name

/-- The pairs of an entry whose children are stripped. -/
def stripFields (name : String) (fields children : Pairs) : Pairs :=
  if (stripChildren name children).isEmpty then Pairs.erase fields "children"
  else Pairs.set "children" (.mapping (stripChildren name children)) fields

theorem keyed_stripFields (h : fields.Keyed) : (stripFields name fields children).Keyed := by
  unfold stripFields
  split
  · exact h.erase "children"
  · exact h.set "children" _

theorem get?_stripFields (n : String) :
    Pairs.get? (stripFields name fields children) n =
      if n = "children" then
        if (stripChildren name children).isEmpty then none
        else some (.mapping (stripChildren name children))
      else Pairs.get? fields n := by
  unfold stripFields
  split
  · rw [Pairs.get?_erase]
  · rw [Pairs.get?_set]

theorem stripReference_mapping
    (hchildren : Pairs.get? fields "children" = some (.mapping children)) :
    stripReference name (.mapping fields) =
      if (stripFields name fields children).isEmpty then .null
      else .mapping (stripFields name fields children) := by
  unfold stripReference
  rw [Value.pairs?_mapping]
  dsimp only
  rw [hchildren]
  rfl

theorem stripReference_other (hchildren : ∀ children,
    Pairs.get? fields "children" ≠ some (.mapping children)) :
    stripReference name (.mapping fields) = .mapping fields := by
  unfold stripReference
  rw [Value.pairs?_mapping]
  dsimp only
  split
  · next children h => exact absurd h (hchildren children)
  · rfl

theorem lists_stripReference (hname : name ≠ choiceKey) (h : IsEntry v fields children) :
    Lists (stripReference name v) m ↔ Lists v m ∧ m ≠ name := by
  cases h.entry with
  | null => exact iff_of_false not_lists_null fun h => not_lists_null h.1
  | mapping _ =>
      by_cases hchildren : ∃ children, Pairs.get? fields "children" = some (.mapping children)
      · obtain ⟨children, hchildren⟩ := hchildren
        have hstripped : Lists (.mapping (stripFields name fields children)) m ↔
            Lists (.mapping fields) m ∧ m ≠ name := by
          rw [lists_mapping_iff, lists_mapping_iff, get?_stripFields, if_pos rfl, hchildren]
          simp only [Option.some.injEq, Value.mapping.injEq, exists_eq_left']
          rw [← listedIn_stripChildren hname]
          split
          · next hempty =>
              rw [List.isEmpty_iff.1 hempty]
              simp [not_listedIn_nil]
          · simp
        rw [stripReference_mapping hchildren, ← hstripped]
        split
        · next hempty =>
            rw [List.isEmpty_iff.1 hempty, lists_mapping_iff]
            simp [not_lists_null]
        · rfl
      · have hnone : ¬Lists (.mapping fields) m := by
          rw [lists_mapping_iff]
          exact fun ⟨children, h, _⟩ => hchildren ⟨children, h⟩
        rw [stripReference_other fun children h => hchildren ⟨children, h⟩]
        exact iff_of_false hnone fun h => hnone h.1

theorem isEntry_stripReference (hname : name ≠ choiceKey) (h : IsEntry v fields children) :
    ∃ fields children, IsEntry (stripReference name v) fields children := by
  cases h.entry with
  | null => exact ⟨_, _, h⟩
  | mapping hfields =>
      by_cases hchildren : ∃ children, Pairs.get? fields "children" = some (.mapping children)
      · obtain ⟨inner, hchildren⟩ := hchildren
        have hlisted := h.listed
        rw [hchildren] at hlisted
        cases hlisted with
        | mapping hkeyed =>
            obtain ⟨attributes, hattributes⟩ := h.attributes
            obtain ⟨members, hmembers⟩ := h.members
            obtain ⟨stripped, hstripped⟩ := isSection_stripMembers name hmembers
            have hentry : ∃ inner, IsEntry (.mapping (stripFields name fields children))
                (stripFields name fields children) inner := by
              have hother : Pairs.get? (stripFields name fields children) "attributes" =
                  Pairs.get? fields "attributes" := by
                rw [get?_stripFields, if_neg (by decide)]
              have hchoice := get?_stripChildren hname children choiceKey
              rw [if_pos rfl] at hchoice
              by_cases hempty : (stripChildren name children).isEmpty = true
              · refine ⟨[], .mapping (keyed_stripFields hfields),
                  ⟨attributes, hother ▸ hattributes⟩, ?_, [], .missing⟩
                rw [get?_stripFields, if_pos rfl, if_pos hempty]
                exact .missing
              · refine ⟨stripChildren name children, .mapping (keyed_stripFields hfields),
                  ⟨attributes, hother ▸ hattributes⟩, ?_, stripped, hchoice ▸ hstripped⟩
                rw [get?_stripFields, if_pos rfl, if_neg hempty]
                exact .mapping (keyed_stripChildren hkeyed)
            rw [stripReference_mapping hchildren]
            split
            · exact ⟨[], [], .null, ⟨[], .missing⟩, .missing, ⟨[], .missing⟩⟩
            · exact ⟨_, hentry⟩
      · rw [stripReference_other fun children h => hchildren ⟨children, h⟩]
        exact ⟨_, _, h⟩

end GrammarProfile.Cascade
