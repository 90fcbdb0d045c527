import GrammarProfile.Cascade.Collapse
import GrammarProfile.Cascade.Expand
import GrammarProfile.Proofs.Edits

/-!
The edits of a profile as functions of its tree. What they change are the entries; between edits
the tree is that of the first text with other entries.
-/
namespace GrammarProfile.Yaml.Pairs

variable {pairs : Pairs} {name : String} {v : Value}

/-- Setting what is already there changes nothing. -/
theorem set_eq_self (h : get? pairs name = some v) : set name v pairs = pairs := by
  induction pairs with
  | nil => exact absurd h (by simp)
  | cons p rest ih =>
      obtain ⟨key, w⟩ := p
      rw [get?_cons] at h
      by_cases hkey : isKey name key = true
      · rw [if_pos hkey] at h
        rw [set, if_pos hkey, Option.some.inj h]
      · rw [if_neg hkey] at h
        rw [set, if_neg hkey, ih h]

end GrammarProfile.Yaml.Pairs

namespace GrammarProfile.Cascade

open GrammarProfile.Grammar (Model)
open GrammarProfile.Profile (Accepted IsSection Restriction withEntries)
open GrammarProfile.Yaml (Value Pairs)

/-- The edits of a profile. -/
inductive Edit where
  | expand (o : ExpandOptions) (element : String)
  | collapse (element : String)
  | reorder

namespace Edit

/-- The grammar has the element that an edit is about. -/
def Known (grammar : Model) : Edit → Prop
  | expand _ element => grammar.hasElement element = true
  | collapse element => grammar.hasElement element = true
  | reorder => True

instance (grammar : Model) : (edit : Edit) → Decidable (edit.Known grammar)
  | expand _ element => inferInstanceAs (Decidable (grammar.hasElement element = true))
  | collapse element => inferInstanceAs (Decidable (grammar.hasElement element = true))
  | reorder => inferInstanceAs (Decidable True)

/-- The edit of a text. -/
def onText (grammar : Model) (text : String) : Edit → Except Error String
  | expand o element => Cascade.expand grammar o element text
  | collapse element => Cascade.collapse grammar element text
  | reorder => Cascade.reorder grammar text

/-- What an edit makes of a tree; `none` if it finds nothing to change. -/
def change? (grammar : Model) (tree : Value) : Edit → Option Value
  | expand o element => some (expandTree grammar o element tree)
  | collapse element => collapseTree grammar element tree
  | reorder => reorderTree grammar tree

/-- The tree after an edit. -/
def apply (grammar : Model) (tree : Value) (edit : Edit) : Value :=
  (edit.change? grammar tree).getD tree

/-- What an edit makes of the entries of a profile with certain document types. -/
def entries (grammar : Model) (documentTypes : List String) (elements : Pairs) : Edit → Pairs
  | expand o element => expandElements grammar o element documentTypes elements
  | collapse element =>
    if Pairs.contains elements element then
      collapseElements grammar element documentTypes elements
    else elements
  | reorder => orderElements grammar (elements.map fun p => (p.1, reorderEntry grammar p.1 p.2))

/-- An edit of a text is the edit of its tree, unless the grammar does not know its element. -/
theorem onText_eq {grammar : Model} {edit : Edit} (h : edit.Known grammar) (text : String) :
    edit.onText grammar text = editText (fun tree => edit.change? grammar tree) text := by
  cases edit with
  | expand o element =>
      have hknown : grammar.hasElement element = true := h
      rw [onText, Cascade.expand, hknown]
      rfl
  | collapse element =>
      have hknown : grammar.hasElement element = true := h
      rw [onText, Cascade.collapse, hknown]
      rfl
  | reorder => rfl

end Edit

end GrammarProfile.Cascade

namespace GrammarProfile.Profile.Accepted

open GrammarProfile.Cascade
open GrammarProfile.Grammar (Model)
open GrammarProfile.Yaml (Value Pairs)

variable {grammar : Model} {text : String} {r : Restriction} {root fields elements entries : Pairs}
  (h : Accepted text r root fields elements)
include h

/-- A profile with a mapping for its entries has the tree with these entries. -/
theorem eq_withEntries (helements : Pairs.get? fields "elements" = some (.mapping elements)) :
    .mapping root = withEntries root fields elements := by
  rw [withEntries, Pairs.set_eq_self helements, Pairs.set_eq_self h.profile]

theorem elements_of_mem {n : String} (hn : n ∈ Pairs.names elements) :
    Pairs.get? fields "elements" = some (.mapping elements) := by
  have hlisted := h.listed
  cases hv : Pairs.get? fields "elements" with
  | none =>
      rw [hv] at hlisted
      cases hlisted
      exact absurd hn List.not_mem_nil
  | some v =>
      rw [hv] at hlisted
      cases hlisted with
      | null => exact absurd hn List.not_mem_nil
      | mapping _ => rfl

omit h in
theorem elements?_withEntries (root fields entries : Pairs) :
    Tree.elements? (withEntries root fields entries) = some entries := by
  unfold Tree.elements?
  rw [profile?_withEntries, Option.bind_some, Pairs.get?_set, if_pos rfl, Option.bind_some,
    Value.pairs?_mapping]

/-- An edit of a tree is an edit of its entries. -/
theorem apply_withEntries (edit : Edit) :
    edit.apply grammar (withEntries root fields entries) =
      withEntries root fields (edit.entries grammar r.documentTypes entries) := by
  unfold Edit.apply
  cases edit with
  | expand o element =>
      rw [Edit.change?, Edit.entries, Option.getD_some, expandTree, h.documentTypes_withEntries,
        h.editElements_withEntries]
  | collapse element =>
      rw [Edit.change?, Edit.entries, collapseTree, elements?_withEntries, Option.any_some,
        h.documentTypes_withEntries, h.editElements_withEntries]
      split <;> rfl
  | reorder =>
      rw [Edit.change?, Edit.entries, reorderTree, elements?_withEntries,
        if_neg (by simp), Option.getD_some, h.editElements_withEntries]

variable (grammar) in
/-- The first edit leaves the tree as it is, or makes the entries a mapping. -/
theorem apply_root (edit : Edit) :
    edit.apply grammar (.mapping root) = .mapping root ∨
      edit.apply grammar (.mapping root) =
        withEntries root fields (edit.entries grammar r.documentTypes elements) := by
  by_cases helements : Pairs.get? fields "elements" = some (.mapping elements)
  · refine .inr ?_
    rw [h.eq_withEntries helements, h.apply_withEntries]
  · have hnone : Tree.elements? (.mapping root) = none := by
      unfold Tree.elements?
      rw [h.below, Option.bind_some]
      have hlisted := h.listed
      cases hv : Pairs.get? fields "elements" with
      | none => rfl
      | some v =>
          rw [hv] at hlisted helements
          cases hlisted with
          | null => rfl
          | mapping _ => exact absurd rfl helements
    cases edit with
    | expand o element =>
        refine .inr ?_
        rw [Edit.apply, Edit.change?, Edit.entries, Option.getD_some, expandTree, h.editElements,
          h.documentTypes]
        rfl
    | collapse element =>
        refine .inl ?_
        rw [Edit.apply, Edit.change?, collapseTree, hnone, Option.any_none, if_neg (by simp),
          Option.getD_none]
    | reorder =>
        refine .inl ?_
        rw [Edit.apply, Edit.change?, reorderTree, hnone, Option.isNone_none, if_pos rfl,
          Option.getD_none]

end GrammarProfile.Profile.Accepted
