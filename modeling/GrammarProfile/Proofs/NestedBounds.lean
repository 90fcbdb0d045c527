import GrammarProfile.Proofs.Occurrences
import Mathlib.Tactic.Ring

/-!
The arithmetic of bounds is that of unlimited numbers, cut off where counts end: adding bounds and
multiplying them obeys the laws of a commutative semiring, at the limits too. A compositor that
stands alone in a sequence is therefore one compositor with the product of the bounds.
-/
namespace GrammarProfile.Grammar

/-! ## Laws of bounds -/

namespace Occurs

variable (a b c : Occurs)

protected theorem add_comm : a.add b = b.add a :=
  Clamps.eq ((Clamps.self a).add (.self b)) ((Clamps.self b).add (.self a)) (by ring) (by ring)

protected theorem add_assoc : (a.add b).add c = a.add (b.add c) :=
  Clamps.eq (((Clamps.self a).add (.self b)).add (.self c))
    ((Clamps.self a).add ((Clamps.self b).add (.self c))) (by ring) (by ring)

theorem times_comm : a.times b = b.times a :=
  Clamps.eq ((Clamps.self a).times b) ((Clamps.self b).times a) (by ring) (by ring)

theorem times_assoc : (a.times b).times c = a.times (b.times c) := by
  -- Outer bounds enter a product as they are, so a product has to be the inner factor.
  rw [times_comm a (b.times c)]
  exact Clamps.eq (((Clamps.self a).times b).times c) (((Clamps.self b).times c).times a)
    (by ring) (by ring)

theorem times_add : a.times (b.add c) = (a.times b).add (a.times c) := by
  rw [times_comm a (b.add c), times_comm a b, times_comm a c]
  exact Clamps.eq (((Clamps.self b).add (.self c)).times a)
    (((Clamps.self b).times a).add ((Clamps.self c).times a)) (by ring) (by ring)

theorem times_widest : a.times (b.widest c) = (a.times b).widest (a.times c) := by
  rw [times_comm a (b.widest c), times_comm a b, times_comm a c]
  exact Clamps.eq (((Clamps.self b).widest (.self c)).times a)
    (((Clamps.self b).times a).widest ((Clamps.self c).times a)) (Nat.mul_min_mul_right ..).symm
    (max_mul ..)

end Occurs

/-! ## Compositors inside one another -/

namespace Tally

theorem scale_scale (t : Tally) (inner outer : Occurs) :
    (t.scale inner).scale outer = t.scale (inner.times outer) := by
  unfold scale OrderedMap.map
  simp only [List.map_map, Function.comp_def, Occurs.times_assoc]

theorem pairs_foldl_mergeOne {pairs : List (String × Occurs)} {t : Tally}
    (h : ((t.pairs ++ pairs).map Prod.fst).Nodup) :
    (pairs.foldl mergeOne t).pairs = t.pairs ++ pairs := by
  induction pairs generalizing t with
  | nil => exact (List.append_nil _).symm
  | cons p rest ih =>
      have hnew : p.1 ∉ t.pairs.map Prod.fst := by
        rw [List.map_append, List.nodup_append] at h
        exact fun hin => h.2.2 _ hin _ List.mem_cons_self rfl
      have hstep : (mergeOne t p).pairs = t.pairs ++ [p] := by
        rw [mergeOne, OrderedMap.get?_eq_none_iff.2 hnew]
        exact setPair_of_notMem hnew
      have hsplit : t.pairs ++ p :: rest = (mergeOne t p).pairs ++ rest := by
        rw [hstep, List.append_assoc, List.singleton_append]
      rw [List.foldl_cons, hsplit]
      exact ih (hsplit ▸ h)

theorem empty_merge (t : Tally) : merge .empty t = t := by
  have hpairs : (merge .empty t).pairs = t.pairs := by
    rw [merge_eq_foldl]
    exact pairs_foldl_mergeOne t.distinct
  obtain ⟨pairs, distinct⟩ := t
  rw [OrderedMap.mk.injEq]
  exact hpairs

end Tally

theorem Particle.occurrences_single (outer : Occurs) (p : Particle) :
    (sequence outer [p]).occurrences = p.occurrences.scale outer := by
  rw [occurrences, occurrencesOf, occurrencesOf, List.foldl_cons, List.foldl_nil, Tally.empty_merge]

/-- Bounds form a commutative semiring, in which multiplying also distributes over the widest of two
bounds. A compositor alone in a sequence comes to one compositor with the product of the bounds,
whatever it holds. -/
theorem bounds_semiring :
    (∀ a b : Occurs, a.add b = b.add a) ∧
    (∀ a b c : Occurs, (a.add b).add c = a.add (b.add c)) ∧
    (∀ a : Occurs, Occurs.never.add a = a ∧ a.add .never = a) ∧
    (∀ a b : Occurs, a.times b = b.times a) ∧
    (∀ a b c : Occurs, (a.times b).times c = a.times (b.times c)) ∧
    (∀ a : Occurs, Occurs.never.times a = .never ∧ a.times .never = .never) ∧
    (∀ a : Occurs, Occurs.once.times a = a ∧ a.times .once = a) ∧
    (∀ a b c : Occurs, a.times (b.add c) = (a.times b).add (a.times c) ∧
      (b.add c).times a = (b.times a).add (c.times a)) ∧
    (∀ a b c : Occurs, a.times (b.widest c) = (a.times b).widest (a.times c) ∧
      (b.widest c).times a = (b.times a).widest (c.times a)) ∧
    ∀ inner outer : Occurs,
      (∀ items, (Particle.sequence outer [.sequence inner items]).occurrences =
        (Particle.sequence (inner.times outer) items).occurrences) ∧
      (∀ items, (Particle.sequence outer [.choice inner items]).occurrences =
        (Particle.choice (inner.times outer) items).occurrences) ∧
      ∀ name p, (Particle.sequence outer [.group name inner p]).occurrences =
        (Particle.group name (inner.times outer) p).occurrences := by
  refine ⟨Occurs.add_comm, Occurs.add_assoc, fun a => ⟨Tally.never_add a, Tally.add_never a⟩,
    Occurs.times_comm, Occurs.times_assoc, fun a => ⟨a.never_times, ?_⟩, fun a => ⟨?_, a.times_once⟩,
    fun a b c => ⟨a.times_add b c, ?_⟩, fun a b c => ⟨a.times_widest b c, ?_⟩, fun inner outer => ?_⟩
  · rw [Occurs.times_comm, a.never_times]
  · rw [Occurs.times_comm, a.times_once]
  · rw [Occurs.times_comm, a.times_add, Occurs.times_comm a, Occurs.times_comm a]
  · rw [Occurs.times_comm, a.times_widest, Occurs.times_comm a, Occurs.times_comm a]
  · refine ⟨fun items => ?_, fun items => ?_, fun name p => ?_⟩
    all_goals
      rw [Particle.occurrences_single, Particle.occurrences, Tally.scale_scale, Particle.occurrences]

end GrammarProfile.Grammar
