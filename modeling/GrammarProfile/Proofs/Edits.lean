import GrammarProfile.Proofs.Accepted
import GrammarProfile.Proofs.FixedTexts

/-!
When two trees are equal, and trees of accepted profiles with other entries: what edits find in
them.
-/
namespace GrammarProfile.Yaml.Value

mutual

/-- Equality of values that also asks for the order of pairs. -/
def exactly : Value → Value → Bool
  | .null, .null => true
  | .bool a, .bool b => a == b
  | .number a, .number b => a = b
  | .string a, .string b => a == b
  | .sequence a, .sequence b => exactlyItems a b
  | .mapping a, .mapping b => exactlyPairs a b
  | .tagged s a, .tagged t b => s == t && exactly a b
  | _, _ => false

def exactlyItems : List Value → List Value → Bool
  | [], [] => true
  | a :: as, b :: bs => exactly a b && exactlyItems as bs
  | _, _ => false

def exactlyPairs : List (Value × Value) → List (Value × Value) → Bool
  | [], [] => true
  | (k, a) :: as, (l, b) :: bs => exactly k l && exactly a b && exactlyPairs as bs
  | _, _ => false

end

mutual

theorem eq_of_exactly : ∀ {a b : Value}, exactly a b = true → a = b
  | .null, b, h => by cases b <;> simp_all [exactly]
  | .bool x, b, h => by cases b <;> simp_all [exactly]
  | .number x, b, h => by cases b <;> simp_all [exactly]
  | .string x, b, h => by cases b <;> simp_all [exactly]
  | .sequence items, b, h => by
      cases b with
      | sequence others => rw [exactly] at h; rw [eq_of_exactlyItems h]
      | _ => simp [exactly] at h
  | .mapping pairs, b, h => by
      cases b with
      | mapping others => rw [exactly] at h; rw [eq_of_exactlyPairs h]
      | _ => simp [exactly] at h
  | .tagged tag v, b, h => by
      cases b with
      | tagged other w =>
          rw [exactly, Bool.and_eq_true, beq_iff_eq] at h
          rw [h.1, eq_of_exactly h.2]
      | _ => simp [exactly] at h

theorem eq_of_exactlyItems : ∀ {a b : List Value}, exactlyItems a b = true → a = b
  | [], b, h => by cases b <;> simp_all [exactlyItems]
  | v :: rest, b, h => by
      cases b with
      | nil => simp [exactlyItems] at h
      | cons w others =>
          rw [exactlyItems, Bool.and_eq_true] at h
          rw [eq_of_exactly h.1, eq_of_exactlyItems h.2]

theorem eq_of_exactlyPairs : ∀ {a b : List (Value × Value)}, exactlyPairs a b = true → a = b
  | [], b, h => by cases b <;> simp_all [exactlyPairs]
  | (key, v) :: rest, b, h => by
      cases b with
      | nil => simp [exactlyPairs] at h
      | cons p others =>
          obtain ⟨other, w⟩ := p
          rw [exactlyPairs, Bool.and_eq_true, Bool.and_eq_true] at h
          rw [eq_of_exactly h.1.1, eq_of_exactly h.1.2, eq_of_exactlyPairs h.2]

end

theorem read_eq_ok {text : String} {cs : List Char} {v : Value} (htext : text = String.ofList cs)
    (h : (readChars cs).toOption.any (fun a => a.exactly v) = true) : read text = .ok v := by
  rw [htext, read_ofList]
  cases hread : readChars cs with
  | error e =>
      rw [hread] at h
      exact nomatch h
  | ok a =>
      rw [hread] at h
      rw [eq_of_exactly h]

end GrammarProfile.Yaml.Value

namespace GrammarProfile.Yaml.Pairs

variable {pairs : Pairs} {name : String} {v w : Value}

theorem set_set (name : String) (v w : Value) (pairs : Pairs) :
    set name w (set name v pairs) = set name w pairs := by
  have hkey : isKey name (.string name) = true := isKey_iff.2 rfl
  induction pairs with
  | nil => rw [set, set, set, if_pos hkey]
  | cons p rest ih =>
      obtain ⟨key, u⟩ := p
      by_cases h : isKey name key = true
      · rw [set, if_pos h, set, if_pos h, set, if_pos h]
      · rw [set, if_neg h, set, if_neg h, set, if_neg h, ih]

theorem set_inj (h : set name v pairs = set name w pairs) : v = w := by
  have hget := congrArg (fun p => get? p name) h
  rw [get?_set, get?_set, if_pos rfl, if_pos rfl] at hget
  exact Option.some.inj hget

/-- Where a name stands once, changing the value that was set is setting the changed value. -/
theorem update_set
    (hone : pairs.Pairwise fun p q => isKey name p.1 = true → ¬isKey name q.1 = true)
    (f : Value → Value) (v : Value) : update name f (set name v pairs) = set name (f v) pairs := by
  have hkey : isKey name (.string name) = true := isKey_iff.2 rfl
  induction pairs with
  | nil => rw [set, set, update, List.map_singleton, if_pos hkey]
  | cons p rest ih =>
      obtain ⟨key, u⟩ := p
      obtain ⟨hfirst, hrest⟩ := List.pairwise_cons.1 hone
      by_cases h : isKey name key = true
      · have hnone : get? rest name = none := by
          rw [← contains_eq_false_iff, contains, List.any_eq_false]
          exact fun q hq => hfirst q hq h
        have hsame := update_of_get?_eq_none hnone f
        unfold update at hsame ⊢
        rw [set, if_pos h, set, if_pos h, List.map_cons, if_pos h, hsame]
      · have hrec := ih hrest
        unfold update at hrec ⊢
        rw [set, if_neg h, set, if_neg h, List.map_cons, if_neg h, hrec]

end GrammarProfile.Yaml.Pairs

namespace GrammarProfile.Profile

open GrammarProfile.Yaml (Value Pairs)
open GrammarProfile.Cascade (Tree.profile? Tree.editElements Tree.editable)

/-- The tree of a profile with other entries. -/
def withEntries (root fields elements : Pairs) : Value :=
  .mapping (Pairs.set "profile" (.mapping (Pairs.set "elements" (.mapping elements) fields)) root)

theorem withEntries_inj {root fields a b : Pairs}
    (h : withEntries root fields a = withEntries root fields b) : a = b := by
  have hprofile := Pairs.set_inj (Value.mapping.inj h)
  have helements := Pairs.set_inj (Value.mapping.inj hprofile)
  exact Value.mapping.inj helements

theorem profile?_withEntries (root fields elements : Pairs) :
    Tree.profile? (withEntries root fields elements) =
      some (Pairs.set "elements" (.mapping elements) fields) := by
  unfold Tree.profile? withEntries
  rw [Value.pairs?_mapping, Option.bind_some, Pairs.get?_set, if_pos rfl]

namespace Accepted

variable {text : String} {r : Restriction} {root fields elements : Pairs}

theorem editElements_withEntries (h : Accepted text r root fields elements) (f : Pairs → Pairs)
    (entries : Pairs) : Tree.editElements f (withEntries root fields entries) =
      withEntries root fields (f entries) := by
  have heditable : Tree.editable (Pairs.set "elements" (.mapping entries) fields) = entries := by
    unfold Tree.editable
    rw [Pairs.get?_set, if_pos rfl]
  unfold Tree.editElements withEntries
  rw [Value.editPairs, Pairs.update_set (h.different.not_isKey "profile"), Value.editPairs,
    heditable, Pairs.set_set]

theorem documentTypes_withEntries (h : Accepted text r root fields elements) (entries : Pairs) :
    Cascade.Tree.documentTypes (withEntries root fields entries) = r.documentTypes := by
  rw [← h.documentTypes]
  unfold Cascade.Tree.documentTypes
  rw [profile?_withEntries, h.below, Option.bind_some, Option.bind_some, Pairs.get?_set,
    if_neg (by decide)]

end Accepted

end GrammarProfile.Profile
