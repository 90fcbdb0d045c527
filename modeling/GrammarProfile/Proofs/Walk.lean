import GrammarProfile.Walk
import Mathlib.Algebra.BigOperators.Group.Finset.Basic
import Mathlib.Logic.Relation

/-!
Walks are exact: with fuel for every edge, a walk finds the nodes that can be reached from its
starts, each of them once.
-/
namespace GrammarProfile

open Relation (ReflTransGen)

/-- An edge of the graph in which `next` gives what follows a node. -/
def Edge (next : String → List String) (a b : String) : Prop := b ∈ next a

variable {next : String → List String}

/-- The number of edges that leave nodes not yet seen. -/
def openEdges (next : String → List String) (nodes : Finset String) (seen : List String) : Nat :=
  ∑ n ∈ nodes \ seen.toFinset, (next n).length

theorem openEdges_nil (nodes : Finset String) :
    openEdges next nodes [] = ∑ n ∈ nodes, (next n).length := by
  simp only [openEdges, List.toFinset_nil, Finset.sdiff_empty]

/-- Seeing a node takes its edges off the open ones. -/
theorem openEdges_cons {nodes : Finset String} {seen : List String} {name : String}
    (hout : ∀ n, n ∉ nodes → next n = []) (hs : name ∉ seen) :
    openEdges next nodes (name :: seen) + (next name).length = openEdges next nodes seen := by
  have herase : nodes \ (name :: seen).toFinset = (nodes \ seen.toFinset).erase name := by
    rw [List.toFinset_cons, Finset.sdiff_insert]
  by_cases hn : name ∈ nodes
  · have hmem : name ∈ nodes \ seen.toFinset := by
      rw [Finset.mem_sdiff, List.mem_toFinset]
      exact ⟨hn, hs⟩
    unfold openEdges
    rw [herase, Finset.sum_erase_add _ _ hmem]
  · have hmem : name ∉ nodes \ seen.toFinset := fun h => hn (Finset.mem_sdiff.1 h).1
    unfold openEdges
    rw [herase, Finset.erase_eq_of_notMem hmem, hout name hn]
    rfl

theorem walkFrom_sound (fuel : Nat) (waiting seen : List String) {n : String}
    (h : n ∈ walkFrom next fuel waiting seen) :
    n ∈ seen ∨ ∃ s ∈ waiting, ReflTransGen (Edge next) s n := by
  induction fuel generalizing waiting seen with
  | zero => exact .inl (List.mem_reverse.1 h)
  | succ fuel ih =>
      cases waiting with
      | nil => exact .inl (List.mem_reverse.1 h)
      | cons name waiting =>
          simp only [walkFrom] at h
          split at h
          · rcases ih _ _ h with hs | ⟨s, hs, path⟩
            · exact .inl hs
            · exact .inr ⟨s, List.mem_cons_of_mem _ hs, path⟩
          · rcases ih _ _ h with hs | ⟨s, hs, path⟩
            · rcases List.mem_cons.1 hs with rfl | hs
              · exact .inr ⟨n, List.mem_cons_self, .refl⟩
              · exact .inl hs
            · rcases List.mem_append.1 hs with hs | hs
              · exact .inr ⟨name, List.mem_cons_self, .head hs path⟩
              · exact .inr ⟨s, List.mem_cons_of_mem _ hs, path⟩

/-- As long as every edge from a node seen leads to one seen or waiting, the walk ends in a set
that no edge leaves. -/
theorem walkFrom_closed {nodes : Finset String} (hout : ∀ n, n ∉ nodes → next n = [])
    (fuel : Nat) (waiting seen : List String)
    (hfuel : waiting.length + openEdges next nodes seen < fuel)
    (hseen : ∀ a ∈ seen, ∀ b ∈ next a, b ∈ seen ∨ b ∈ waiting) :
    (∀ a, a ∈ seen ∨ a ∈ waiting → a ∈ walkFrom next fuel waiting seen) ∧
      ∀ a ∈ walkFrom next fuel waiting seen, ∀ b ∈ next a,
        b ∈ walkFrom next fuel waiting seen := by
  induction fuel generalizing waiting seen with
  | zero => exact absurd hfuel (Nat.not_lt_zero _)
  | succ fuel ih =>
      cases waiting with
      | nil =>
          simp only [walkFrom, List.mem_reverse, List.not_mem_nil, or_false] at hseen ⊢
          exact ⟨fun a ha => ha, hseen⟩
      | cons name waiting =>
          simp only [List.length_cons] at hfuel
          simp only [walkFrom]
          split
          · next hin =>
              have hin : name ∈ seen := by simpa using hin
              have step := ih waiting seen (by omega) (fun a ha b hb => by
                rcases hseen a ha b hb with h | h
                · exact .inl h
                · rcases List.mem_cons.1 h with rfl | h
                  · exact .inl hin
                  · exact .inr h)
              refine ⟨fun a ha => step.1 a ?_, step.2⟩
              rcases ha with ha | ha
              · exact .inl ha
              · rcases List.mem_cons.1 ha with rfl | ha
                · exact .inl hin
                · exact .inr ha
          · next hin =>
              have hin : name ∉ seen := by simpa using hin
              have hopen := openEdges_cons hout hin
              have step := ih (next name ++ waiting) (name :: seen)
                (by rw [List.length_append]; omega) (fun a ha b hb => by
                  rcases List.mem_cons.1 ha with rfl | ha
                  · exact .inr (List.mem_append_left _ hb)
                  · rcases hseen a ha b hb with h | h
                    · exact .inl (List.mem_cons_of_mem _ h)
                    · rcases List.mem_cons.1 h with rfl | h
                      · exact .inl List.mem_cons_self
                      · exact .inr (List.mem_append_right _ h))
              refine ⟨fun a ha => step.1 a ?_, step.2⟩
              rcases ha with ha | ha
              · exact .inl (List.mem_cons_of_mem _ ha)
              · rcases List.mem_cons.1 ha with rfl | ha
                · exact .inl List.mem_cons_self
                · exact .inr (List.mem_append_right _ ha)

theorem walkFrom_nodup (fuel : Nat) (waiting seen : List String) (h : seen.Nodup) :
    (walkFrom next fuel waiting seen).Nodup := by
  induction fuel generalizing waiting seen with
  | zero => exact List.nodup_reverse.2 h
  | succ fuel ih =>
      cases waiting with
      | nil => exact List.nodup_reverse.2 h
      | cons name waiting =>
          simp only [walkFrom]
          split
          · exact ih _ _ h
          · next hin => exact ih _ _ (List.nodup_cons.2 ⟨by simpa using hin, h⟩)

/-- What was seen before stands first in a walk, in the order in which it was seen. -/
theorem prefix_walkFrom (fuel : Nat) (waiting seen : List String) :
    seen.reverse <+: walkFrom next fuel waiting seen := by
  induction fuel generalizing waiting seen with
  | zero => exact List.prefix_rfl
  | succ fuel ih =>
      cases waiting with
      | nil => exact List.prefix_rfl
      | cons name waiting =>
          simp only [walkFrom]
          split
          · exact ih _ _
          · refine List.IsPrefix.trans ?_ (ih _ (name :: seen))
            rw [List.reverse_cons]
            exact List.prefix_append _ _

theorem head?_walk (edges : Nat) (start : String) (rest : List String) :
    (walk next edges (start :: rest)).head? = some start := by
  obtain ⟨others, h⟩ := @prefix_walkFrom next ((start :: rest).length + edges)
    (next start ++ rest) [start]
  have hfirst : walk next edges (start :: rest) =
      walkFrom next ((start :: rest).length + edges) (next start ++ rest) [start] := rfl
  rw [hfirst, ← h]
  rfl

/-- A walk that has fuel for the edges of its graph finds exactly what can be reached. -/
theorem mem_walk_iff {edges : Nat} {starts : List String} (nodes : Finset String)
    (hout : ∀ n, n ∉ nodes → next n = []) (hedges : ∑ n ∈ nodes, (next n).length ≤ edges)
    {n : String} :
    n ∈ walk next edges starts ↔ ∃ s ∈ starts, ReflTransGen (Edge next) s n := by
  constructor
  · intro h
    rcases walkFrom_sound _ _ _ h with h | h
    · exact absurd h List.not_mem_nil
    · exact h
  · rintro ⟨s, hs, path⟩
    have hfuel : starts.length + openEdges next nodes [] < starts.length + edges + 1 := by
      rw [openEdges_nil]
      omega
    have closed := walkFrom_closed hout _ starts [] hfuel
      (fun a ha => absurd ha List.not_mem_nil)
    induction path with
    | refl => exact closed.1 s (.inr hs)
    | tail _ step ih => exact closed.2 _ ih _ step

theorem walk_nodup (edges : Nat) (starts : List String) : (walk next edges starts).Nodup :=
  walkFrom_nodup _ _ _ List.nodup_nil

end GrammarProfile
