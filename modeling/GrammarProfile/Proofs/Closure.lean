import GrammarProfile.Grammar.Closure
import GrammarProfile.Proofs.OrderedMap
import GrammarProfile.Proofs.Walk
import Mathlib.Algebra.Order.BigOperators.Group.List
import Mathlib.Algebra.Order.Group.Nat

/-!
The names that an element requires are those that required children lead to.
-/
namespace GrammarProfile.Grammar.Model

open Relation (ReflTransGen)

/-- The grammar requires `b` among the children of `a`. -/
def Requires (m : Model) (a b : String) : Prop :=
  ∃ c ∈ m.children a, 1 ≤ c.minOccurs.val ∧ c.name = b

variable {m : Model}

theorem hasElement_iff {n : String} : m.hasElement n = true ↔ ∃ e, m.element? n = some e :=
  OrderedMap.contains_iff_get?

theorem children_eq {n : String} {e : Element} (h : m.element? n = some e) :
    m.children n = e.children := by
  unfold children
  rw [h]

theorem children_of_none {n : String} (h : m.element? n = none) : m.children n = [] := by
  unfold children
  rw [h]

theorem mem_requiredChildNames {a b : String} : b ∈ m.requiredChildNames a ↔ m.Requires a b := by
  simp [requiredChildNames, requiredChildren, Requires, Child.required, and_assoc]

theorem edge_requiredChildNames : Edge m.requiredChildNames = m.Requires := by
  funext a b
  exact propext mem_requiredChildNames

theorem Requires.hasElement {a b : String} (h : m.Requires a b) : m.hasElement a = true := by
  obtain ⟨c, hc, _⟩ := h
  cases he : m.element? a with
  | none => rw [children_of_none he] at hc; exact absurd hc List.not_mem_nil
  | some e => exact hasElement_iff.2 ⟨e, he⟩

section Walks

variable {start n : String}

/-- Only elements have required children. -/
theorem requiredChildNames_of_notMem {a : String} (ha : a ∉ m.elements.keys.toFinset) :
    m.requiredChildNames a = [] := by
  have hnone : m.element? a = none :=
    OrderedMap.get?_eq_none_iff.2 (fun hk => ha (List.mem_toFinset.2 hk))
  simp [requiredChildNames, requiredChildren, children_of_none hnone]

/-- Edges to required children are no more than the children of all elements together. -/
theorem sum_length_le_childCount {next : String → List String}
    (h : ∀ a, (next a).length ≤ (m.requiredChildNames a).length) :
    ∑ a ∈ m.elements.keys.toFinset, (next a).length ≤ m.childCount := by
  rw [childCount, List.sum_toFinset _ m.elements.keys_nodup, OrderedMap.keys, OrderedMap.values,
    List.length_flatMap, List.map_map, List.map_map]
  apply List.sum_le_sum
  intro p hp
  have he : m.element? p.1 = some p.2 := OrderedMap.get?_eq_some_iff.2 hp
  refine (h p.1).trans ?_
  simp only [Function.comp_apply, requiredChildNames, requiredChildren, List.length_map,
    children_eq he]
  exact List.length_filter_le _ _

theorem mem_requiredNames_iff : n ∈ m.requiredNames start ↔ ReflTransGen m.Requires start n := by
  rw [requiredNames, mem_walk_iff _ (fun _ => requiredChildNames_of_notMem)
    (sum_length_le_childCount fun _ => le_rfl), edge_requiredChildNames]
  simp

/-- The grammar requires the element `b` among the children of `a`. -/
def RequiresElement (m : Model) (a b : String) : Prop := m.Requires a b ∧ m.hasElement b = true

theorem mem_requiredClosure_iff_path : n ∈ m.requiredClosure start ↔
    m.hasElement start = true ∧ ReflTransGen m.RequiresElement start n := by
  have hedge : Edge (fun a => (m.requiredChildNames a).filter m.hasElement) =
      m.RequiresElement := by
    funext a b
    rw [Edge, List.mem_filter, mem_requiredChildNames, RequiresElement]
  rw [requiredClosure, mem_walk_iff m.elements.keys.toFinset
    (fun a ha => by rw [requiredChildNames_of_notMem ha, List.filter_nil])
    (sum_length_le_childCount fun _ => List.length_filter_le _ _), hedge]
  simp

/-- What leads to an element leads over elements, for nothing else has children. -/
theorem mem_requiredClosure_iff :
    n ∈ m.requiredClosure start ↔ m.hasElement n = true ∧ ReflTransGen m.Requires start n := by
  rw [mem_requiredClosure_iff_path]
  constructor
  · rintro ⟨hstart, path⟩
    refine ⟨?_, ReflTransGen.mono (fun _ _ step => step.1) _ _ path⟩
    cases path with
    | refl => exact hstart
    | tail _ step => exact step.2
  · rintro ⟨hn, path⟩
    induction path using ReflTransGen.head_induction_on with
    | refl => exact ⟨hn, .refl⟩
    | head step _ ih => exact ⟨step.hasElement, .head ⟨step, ih.1⟩ ih.2⟩

end Walks

theorem requiredClosure_nodup (m : Model) (start : String) : (m.requiredClosure start).Nodup :=
  walk_nodup _ _

theorem head?_requiredClosure {start : String} (h : m.hasElement start = true) :
    (m.requiredClosure start).head? = some start := by
  unfold requiredClosure
  rw [List.filter_cons, if_pos h]
  exact head?_walk _ _ _

theorem requiredNames_nodup (m : Model) (start : String) : (m.requiredNames start).Nodup :=
  walk_nodup _ _

/-- Beside the elements that an element requires, there are the names that these require and that
are no elements. -/
theorem mem_requiredNames_iff_closure {start n : String} (h : m.hasElement start = true) :
    n ∈ m.requiredNames start ↔ n ∈ m.requiredClosure start ∨
      m.hasElement n = false ∧ ∃ a ∈ m.requiredClosure start, m.Requires a n := by
  simp only [mem_requiredNames_iff, mem_requiredClosure_iff]
  constructor
  · intro path
    cases hn : m.hasElement n with
    | true => exact .inl ⟨rfl, path⟩
    | false =>
        rcases ReflTransGen.cases_tail path with rfl | ⟨a, before, step⟩
        · exact absurd (h.symm.trans hn) (by decide)
        · exact .inr ⟨rfl, a, ⟨step.hasElement, before⟩, step⟩
  · rintro (⟨_, path⟩ | ⟨_, a, ⟨_, path⟩, step⟩)
    · exact path
    · exact path.tail step

end GrammarProfile.Grammar.Model
