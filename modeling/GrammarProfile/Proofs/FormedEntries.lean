import GrammarProfile.Proofs.Moved
import GrammarProfile.Proofs.Pruning
import GrammarProfile.Proofs.Room

/-!
Entries that are read without a flaw, by their parts, and what edits make of them: they stay such
entries when they take in what the grammar requires, when a name is stripped from them, and when
they are put into order.
-/
namespace GrammarProfile.Yaml.Pairs

theorem Keyed.distinct_mapping {pairs : Pairs} (h : pairs.Keyed)
    (hvalues : ∀ n v, get? pairs n = some v → v.Distinct) : (Value.mapping pairs).Distinct := by
  refine .mapping h.different fun p hp => ?_
  obtain ⟨key, v⟩ := p
  obtain ⟨n, rfl⟩ := h.textual _ hp
  exact hvalues n v (h.get?_eq_some_iff.2 hp)

end GrammarProfile.Yaml.Pairs

namespace GrammarProfile.Profile

open GrammarProfile.Yaml (Value Pairs)

/-- A text, or null for no text. -/
inductive IsLabel : Value → Prop
  | null : IsLabel .null
  | text (s : String) : IsLabel (.string s)

/-- The parts of an entry without a flaw. -/
structure Formed (path : String) (fields attributes children members : Pairs) : Prop where
  keyed : fields.Keyed
  hasAttributes : IsSection (Pairs.get? fields "attributes") attributes
  hasChildren : IsSection (Pairs.get? fields "children") children
  hasMembers : IsSection (Pairs.get? children choiceKey) members
  attributeClean : ∀ a x, Pairs.get? attributes a = some x →
    x.Distinct ∧ (attributeRule (attributesPath path ++ "." ++ a) x).flaws = []
  childLabel : ∀ c x, c ≠ choiceKey → Pairs.get? children c = some x → IsLabel x
  memberLabel : ∀ c x, Pairs.get? members c = some x → IsLabel x
  otherClean : ∀ k w, k ≠ "attributes" → k ≠ "children" → Pairs.get? fields k = some w →
    w.Distinct ∧ (Shape.elementField path .empty k w).flaws = []

/-- An entry without a flaw. -/
def FormedEntry (n : String) (v : Value) : Prop :=
  ∃ fields attributes children members, IsSection (some v) fields ∧
    Formed (entryPath n) fields attributes children members

section Labels

variable {path : String} {v : Value} {members : Pairs}

theorem flaws_cardinality_iff : (Shape.cardinality path v).flaws = [] ↔ IsLabel v := by
  constructor
  · intro h
    cases v with
    | null => exact .null
    | string s => exact .text s
    | _ => exact absurd h (List.cons_ne_nil _ _)
  · rintro (_ | _) <;> rfl

theorem flaws_childEntry_plain {c : String} (hc : c ≠ choiceKey) (rule : ElementRule) :
    (Shape.childEntry path rule c v).flaws = [] ↔ IsLabel v := by
  have hflaws : (Shape.childEntry path rule c v).flaws =
      ((Shape.cardinality (path ++ "." ++ c) v).flaws ++ []) ++ [] := by
    unfold Shape.childEntry
    rw [if_neg (by simpa using hc)]
    rfl
  rw [hflaws, List.append_nil, List.append_nil, flaws_cardinality_iff]

theorem flaws_childEntry_choice (h : IsSection (some v) members) (rule : ElementRule) :
    (Shape.childEntry path rule choiceKey v).flaws = [] ↔
      ∀ c x, Pairs.get? members c = some x → IsLabel x := by
  have hflaws : (Shape.childEntry path rule choiceKey v).flaws =
      (Shape.foldMapping (path ++ "." ++ choiceKey) (Shape.member (path ++ "." ++ choiceKey))
        rule.alternatives v).flaws ++ [] := by
    unfold Shape.childEntry
    rw [if_pos (by simp)]
    rfl
  rw [hflaws, List.append_nil, Shape.foldMapping_section h,
    Shape.flaws_foldPairs (fun _ _ _ _ => rfl) h.keyed]
  refine forall_congr' fun c => forall_congr' fun x => imp_congr_right fun _ => ?_
  have hmember : (Shape.member (path ++ "." ++ choiceKey) rule.alternatives c x).flaws =
      (Shape.cardinality (path ++ "." ++ choiceKey ++ "." ++ c) x).flaws ++ [] := rfl
  rw [hmember, List.append_nil, flaws_cardinality_iff]

end Labels

theorem IsSection.distinct_of_get? {v : Value} {pairs : Pairs} (h : IsSection (some v) pairs)
    (hvalues : ∀ n x, Pairs.get? pairs n = some x → x.Distinct) : v.Distinct := by
  cases h with
  | null => exact .null
  | mapping hkeyed => exact hkeyed.distinct_mapping hvalues

theorem IsLabel.distinct {v : Value} (h : IsLabel v) : v.Distinct := by
  cases h with
  | null => exact .null
  | text s => exact .string s

namespace Formed

variable {path : String} {fields attributes children members : Pairs}
  (h : Formed path fields attributes children members)
include h

theorem flaws : (entryRule path fields).flaws = [] := by
  rw [flaws_entryRule_iff h.keyed h.hasAttributes h.hasChildren]
  refine ⟨fun a x hx => (h.attributeClean a x hx).2, fun c x hx => ?_,
    fun k w hk hk' hw => (h.otherClean k w hk hk' hw).2⟩
  by_cases hc : c = choiceKey
  · subst hc
    have hmembers := h.hasMembers
    rw [hx] at hmembers
    exact (flaws_childEntry_choice hmembers _).2 h.memberLabel
  · exact (flaws_childEntry_plain hc _).2 (h.childLabel c x hc hx)

theorem distinct (n : String) (v : Value) (hv : Pairs.get? fields n = some v) : v.Distinct := by
  by_cases hn : n = "attributes"
  · subst hn
    have hattributes := h.hasAttributes
    rw [hv] at hattributes
    exact hattributes.distinct_of_get? fun a x hx => (h.attributeClean a x hx).1
  · by_cases hn' : n = "children"
    · subst hn'
      have hchildren := h.hasChildren
      rw [hv] at hchildren
      refine hchildren.distinct_of_get? fun c x hx => ?_
      by_cases hc : c = choiceKey
      · subst hc
        have hmembers := h.hasMembers
        rw [hx] at hmembers
        exact hmembers.distinct_of_get? fun c x hx => (h.memberLabel c x hx).distinct
      · exact (h.childLabel c x hc hx).distinct
    · exact (h.otherClean n v hn hn' hv).1

end Formed

namespace FormedEntry

variable {n : String} {v : Value}

theorem null (n : String) : FormedEntry n .null := by
  refine ⟨[], [], [], [], .null, Pairs.keyed_nil, .missing, .missing, .missing, ?_, ?_, ?_, ?_⟩ <;>
    simp

theorem flaws (h : FormedEntry n v) : (readEntry n v).flaws = [] := by
  obtain ⟨fields, attributes, children, members, hentry, hformed⟩ := h
  rw [readEntry_section hentry]
  exact hformed.flaws

theorem distinct (h : FormedEntry n v) : v.Distinct := by
  obtain ⟨fields, attributes, children, members, hentry, hformed⟩ := h
  exact hentry.distinct_of_get? hformed.distinct

theorem isEntry (h : FormedEntry n v) : ∃ fields children, IsEntry v fields children := by
  obtain ⟨fields, attributes, children, members, hentry, hformed⟩ := h
  exact ⟨fields, children, hentry, ⟨attributes, hformed.hasAttributes⟩, hformed.hasChildren, members,
    hformed.hasMembers⟩

/-- What is read without a flaw from a value with different keys has the form of an entry. -/
theorem of_flaws (hv : v.Distinct) (hflaws : (readEntry n v).flaws = []) : FormedEntry n v := by
  have hclean : (Shape.elementEntry "profile.elements" ∅ n v).flaws = [] :=
    Shaped.flaws_bind_eq_nil.2 ⟨hflaws, rfl⟩
  obtain ⟨fields, children, hentry⟩ := Shape.entry_of_elementEntry hv hclean
  obtain ⟨attributes, hattributes⟩ := hentry.attributes
  obtain ⟨members, hmembers⟩ := hentry.members
  have hkeyed := hentry.entry.keyed
  rw [readEntry_section hentry.entry, flaws_entryRule_iff hkeyed hattributes hentry.listed]
    at hflaws
  obtain ⟨hattribute, hchild, hothers⟩ := hflaws
  have hfield : ∀ k w, Pairs.get? fields k = some w → w.Distinct :=
    fun k w hw => hentry.entry.distinct (fun u hu => by cases hu; exact hv) k w hw
  have hinner : ∀ a x, Pairs.get? attributes a = some x → x.Distinct :=
    hattributes.distinct (hfield _)
  refine ⟨fields, attributes, children, members, hentry.entry, hkeyed, hattributes, hentry.listed,
    hmembers, fun a x hx => ⟨hinner a x hx, hattribute a x hx⟩,
    fun c x hc hx => (flaws_childEntry_plain hc _).1 (hchild c x hx), ?_,
    fun k w hk hk' hw => ⟨hfield k w hw, hothers k w hk hk' hw⟩⟩
  cases hx : Pairs.get? children choiceKey with
  | none =>
      rw [hx] at hmembers
      cases hmembers
      exact fun c x hx => absurd hx (by simp)
  | some x =>
      rw [hx] at hmembers
      exact (flaws_childEntry_choice hmembers _).1 (hchild _ x hx)

end FormedEntry

end GrammarProfile.Profile
