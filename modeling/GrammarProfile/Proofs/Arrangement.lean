import GrammarProfile.Cascade.Arrangement
import GrammarProfile.Proofs.Names
import Mathlib.Data.List.Forall2
import Mathlib.Data.List.Perm.Basic

/-!
An arrangement lists each name once, and depends on nothing but the edges as a relation.
-/
namespace GrammarProfile

namespace Text

theorem nameLE_iff {a b : String} : nameLE a b = true ↔ a ≤ b := by
  rw [nameLE, Bool.not_eq_true', decide_eq_false_iff_not, String.not_lt]

theorem pairwise_nameSet (names : List String) : (nameSet names).Pairwise (· ≤ ·) := by
  have htrans : ∀ a b c, nameLE a b = true → nameLE b c = true → nameLE a c = true := by
    intro a b c hab hbc
    exact nameLE_iff.2 (String.le_trans (nameLE_iff.1 hab) (nameLE_iff.1 hbc))
  have htotal : ∀ a b, (nameLE a b || nameLE b a) = true := by
    intro a b
    rw [Bool.or_eq_true, nameLE_iff, nameLE_iff]
    exact String.le_total a b
  exact (List.pairwise_mergeSort htrans htotal names.eraseDups).imp nameLE_iff.1

/-- Sets of names are equal if they have the same members. -/
theorem nameSet_congr {a b : List String} (h : ∀ n, n ∈ a ↔ n ∈ b) : nameSet a = nameSet b := by
  have hperm : (nameSet a).Perm (nameSet b) := by
    rw [List.perm_ext_iff_of_nodup (nodup_nameSet a) (nodup_nameSet b)]
    intro n
    rw [mem_nameSet, mem_nameSet, h]
  exact hperm.eq_of_pairwise (fun _ _ _ _ hab hba => String.le_antisymm hab hba)
    (pairwise_nameSet a) (pairwise_nameSet b)

end Text

namespace Cascade

theorem names_place (name : String) (waiting : List Waiting) :
    (place name waiting).map (·.name) = (waiting.map (·.name)).filter (· != name) := by
  unfold place
  rw [List.map_map, List.filter_map]
  rfl

theorem perm_place {name : String} {names : List String} (h : names.Nodup) (hname : name ∈ names) :
    (name :: names.filter (· != name)).Perm names := by
  rw [List.perm_ext_iff_of_nodup ?_ h]
  · intro n
    by_cases hn : n = name <;> simp [hn, hname]
  · exact List.nodup_cons.2 ⟨by simp, h.filter _⟩

theorem length_place {name : String} {waiting : List Waiting}
    (h : (waiting.map (·.name)).Nodup) (hname : name ∈ waiting.map (·.name)) :
    (place name waiting).length + 1 = waiting.length := by
  have hperm := (perm_place h hname).length_eq
  rw [← names_place] at hperm
  simpa using hperm

/-- With fuel for all names, an arrangement loses and repeats none. -/
theorem arrange_perm {fuel : ℕ} {waiting : List Waiting} (h : (waiting.map (·.name)).Nodup)
    (hfuel : waiting.length ≤ fuel) : (arrange fuel waiting).Perm (waiting.map (·.name)) := by
  induction fuel generalizing waiting with
  | zero =>
      rw [List.length_eq_zero_iff.1 (Nat.le_zero.1 hfuel)]
      exact .refl _
  | succ fuel ih =>
      unfold arrange
      split
      · next w hfind =>
          have hw : w.name ∈ waiting.map (·.name) :=
            List.mem_map_of_mem (List.mem_of_find?_eq_some hfind)
          have hplace := names_place w.name waiting
          have hlength := length_place h hw
          have hrest := ih (hplace ▸ h.filter _) (by omega)
          rw [hplace] at hrest
          exact (hrest.cons w.name).trans (perm_place h hw)
      · exact .refl _

theorem names_waitingOf (edges : List (String × List String)) :
    (waitingOf edges).map (·.name) = Text.nameSet (edges.map Prod.fst) := by
  unfold waitingOf
  rw [List.map_map]
  exact List.map_id _

theorem arrangement_perm (root : Option String) (edges : List (String × List String)) :
    (arrangement root edges).Perm (Text.nameSet (edges.map Prod.fst)) := by
  have hnames := names_waitingOf edges
  have hnodup : ((waitingOf edges).map (·.name)).Nodup := hnames ▸ Text.nodup_nameSet _
  rw [← hnames]
  unfold arrangement
  dsimp only
  split
  · exact arrange_perm hnodup (Nat.le_refl _)
  · next r =>
      split
      · next hroot =>
          obtain ⟨w, hw, hr⟩ := List.any_eq_true.1 hroot
          have hname : r ∈ (waitingOf edges).map (·.name) :=
            List.mem_map.2 ⟨w, hw, by simpa using (Bool.and_eq_true_iff.1 hr).1⟩
          have hplace := names_place r (waitingOf edges)
          have hlength := length_place hnodup hname
          have hfuel : (place r (waitingOf edges)).length ≤ (waitingOf edges).length := by omega
          have hrest := arrange_perm (hplace ▸ hnodup.filter _) hfuel
          rw [hplace] at hrest
          exact (hrest.cons r).trans (perm_place hnodup hname)
      · exact arrange_perm hnodup (Nat.le_refl _)

/-- Names with the same parents that are still waiting. -/
structure Alike (v w : Waiting) : Prop where
  name : v.name = w.name
  parents : ∀ p, p ∈ v.parents ↔ p ∈ w.parents

theorem Alike.isEmpty {v w : Waiting} (h : Alike v w) : v.parents.isEmpty = w.parents.isEmpty := by
  rw [Bool.eq_iff_iff, List.isEmpty_iff, List.isEmpty_iff, List.eq_nil_iff_forall_not_mem,
    List.eq_nil_iff_forall_not_mem]
  exact forall_congr' fun p => not_congr (h.parents p)

section Congr

variable {vs ws : List Waiting}

theorem names_of_alike (h : List.Forall₂ Alike vs ws) :
    vs.map (·.name) = ws.map (·.name) := by
  induction h with
  | nil => rfl
  | cons hfirst _ ih => rw [List.map_cons, List.map_cons, hfirst.name, ih]

theorem place_alike (h : List.Forall₂ Alike vs ws) (name : String) :
    List.Forall₂ Alike (place name vs) (place name ws) := by
  unfold place
  induction h with
  | nil => exact .nil
  | @cons v w _ _ hfirst _ ih =>
      rw [List.filter_cons, List.filter_cons, hfirst.name]
      split
      · refine .cons ⟨hfirst.name, fun p => ?_⟩ ih
        rw [List.mem_filter, List.mem_filter, hfirst.parents]
      · exact ih

theorem find?_alike (h : List.Forall₂ Alike vs ws) :
    (vs.find? fun w => w.parents.isEmpty).map (·.name) =
      (ws.find? fun w => w.parents.isEmpty).map (·.name) := by
  induction h with
  | nil => rfl
  | @cons v w _ _ hfirst _ ih =>
      rw [List.find?_cons, List.find?_cons, hfirst.isEmpty]
      cases w.parents.isEmpty with
      | true => exact congrArg some hfirst.name
      | false => exact ih

theorem any_alike (h : List.Forall₂ Alike vs ws) (name : String) :
    (vs.any fun w => w.name == name && w.parents.isEmpty) =
      ws.any fun w => w.name == name && w.parents.isEmpty := by
  induction h with
  | nil => rfl
  | cons hfirst _ ih => rw [List.any_cons, List.any_cons, hfirst.name, hfirst.isEmpty, ih]

theorem arrange_alike (h : List.Forall₂ Alike vs ws) (fuel : ℕ) :
    arrange fuel vs = arrange fuel ws := by
  induction fuel generalizing vs ws with
  | zero => rfl
  | succ fuel ih =>
      have hfind := find?_alike h
      unfold arrange
      cases hv : vs.find? fun w => w.parents.isEmpty with
      | none =>
          rw [hv, Option.map_none] at hfind
          rw [Option.map_eq_none_iff.1 hfind.symm]
          exact names_of_alike h
      | some v =>
          rw [hv, Option.map_some] at hfind
          obtain ⟨w, hw, hname⟩ := Option.map_eq_some_iff.1 hfind.symm
          rw [hw]
          dsimp only
          rw [hname, ih (place_alike h v.name)]

end Congr

theorem waitingOf_alike {edges edges' : List (String × List String)}
    (hnames : ∀ n, n ∈ edges.map Prod.fst ↔ n ∈ edges'.map Prod.fst)
    (hedges : ∀ a b, (∃ listed, (a, listed) ∈ edges ∧ b ∈ listed) ↔
      ∃ listed, (a, listed) ∈ edges' ∧ b ∈ listed) :
    List.Forall₂ Alike (waitingOf edges) (waitingOf edges') := by
  unfold waitingOf
  rw [Text.nameSet_congr hnames, List.forall₂_map_left_iff, List.forall₂_map_right_iff]
  refine List.forall₂_same.2 fun name _ => ⟨rfl, fun p => ?_⟩
  have hparents : ∀ es : List (String × List String),
      p ∈ (es.filter fun e => e.2.contains name).map Prod.fst ↔
        ∃ listed, (p, listed) ∈ es ∧ name ∈ listed := by
    intro es
    simp
  dsimp only
  rw [hparents, hparents, hedges]

/-- An arrangement does not depend on how its edges are listed. -/
theorem arrangement_congr (root : Option String) {edges edges' : List (String × List String)}
    (hnames : ∀ n, n ∈ edges.map Prod.fst ↔ n ∈ edges'.map Prod.fst)
    (hedges : ∀ a b, (∃ listed, (a, listed) ∈ edges ∧ b ∈ listed) ↔
      ∃ listed, (a, listed) ∈ edges' ∧ b ∈ listed) :
    arrangement root edges = arrangement root edges' := by
  have halike := waitingOf_alike hnames hedges
  have hlength := halike.length_eq
  unfold arrangement
  dsimp only
  cases root with
  | none => rw [hlength, arrange_alike halike]
  | some r =>
      dsimp only
      rw [any_alike halike r, hlength, arrange_alike halike, arrange_alike (place_alike halike r)]

end Cascade

end GrammarProfile
