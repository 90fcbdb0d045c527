import GrammarProfile.Proofs.Arrangement
import Mathlib.Logic.Relation
import Mathlib.Order.WellFoundedSet

/-!
Names with parents, some of which may lie on cycles. Among finitely many names that all have
parents, each lies on a cycle or below one.
-/
namespace GrammarProfile.Cascade

open Relation (ReflTransGen TransGen)

/-- A name lies on a cycle, or below a name that does. -/
def BelowCycle (parent : String → String → Prop) (n : String) : Prop :=
  ∃ c, TransGen parent c c ∧ ReflTransGen parent c n

section BelowCycle

variable {parent : String → String → Prop} {a b n : String}

theorem BelowCycle.step (h : BelowCycle parent a) (hab : parent a b) : BelowCycle parent b := by
  obtain ⟨c, hc, hca⟩ := h
  exact ⟨c, hc, hca.tail hab⟩

theorem BelowCycle.exists_parent (h : BelowCycle parent n) : ∃ p, parent p n := by
  obtain ⟨c, hc, hcn⟩ := h
  obtain ⟨p, _, hp⟩ := TransGen.tail'_iff.1 (hc.trans_left hcn)
  exact ⟨p, hp⟩

/-- Among finitely many names that all have parents, going up from one ends in a cycle. -/
theorem belowCycle_of_parents {names : List String}
    (h : ∀ n ∈ names, ∃ p ∈ names, parent p n) : ∀ n ∈ names, BelowCycle parent n := by
  -- Above a name that is not below a cycle there is no cycle, so going up would come to an end.
  let above (a b : String) : Prop := TransGen parent a b ∧ ¬BelowCycle parent b
  have hstrict : IsStrictOrder String above :=
    { irrefl := fun a ha => ha.2 ⟨a, ha.1, .refl⟩
      trans := fun _ _ _ hab hbc => ⟨hab.1.trans hbc.1, hbc.2⟩ }
  have hfounded := names.finite_toSet.wellFoundedOn (r := above)
  intro n hn
  refine Set.WellFoundedOn.induction (P := BelowCycle parent) hfounded hn ?_
  intro b hb ih
  by_contra hnot
  obtain ⟨p, hp, hpb⟩ := h b hb
  exact hnot ((ih p hp ⟨.single hpb, hnot⟩).step hpb)

/-- A name without parents can be taken away without touching a cycle or what is below it. -/
theorem belowCycle_without_iff (hfree : ∀ p, ¬parent p n) :
    BelowCycle (fun a b => parent a b ∧ a ≠ n ∧ b ≠ n) a ↔ BelowCycle parent a := by
  have hmono : ∀ x y, parent x y ∧ x ≠ n ∧ y ≠ n → parent x y := fun _ _ h => h.1
  have hne : ∀ {x y}, parent x y → y ≠ n := by
    rintro x y hxy rfl
    exact hfree x hxy
  have hkeep : ∀ {x y}, x ≠ n → TransGen parent x y →
      TransGen (fun a b => parent a b ∧ a ≠ n ∧ b ≠ n) x y := by
    intro x y hx hxy
    induction hxy with
    | single h => exact .single ⟨h, hx, hne h⟩
    | tail hxz hzy ih =>
        obtain ⟨_, _, hz⟩ := TransGen.tail'_iff.1 hxz
        exact ih.tail ⟨hzy, hne hz, hne hzy⟩
  constructor
  · rintro ⟨c, hc, hca⟩
    exact ⟨c, TransGen.mono hmono c c hc, ReflTransGen.mono hmono c a hca⟩
  · rintro ⟨c, hc, hca⟩
    obtain ⟨_, _, hlast⟩ := TransGen.tail'_iff.1 hc
    refine ⟨c, hkeep (hne hlast) hc, ?_⟩
    rcases Relation.reflTransGen_iff_eq_or_transGen.1 hca with rfl | hca
    · exact .refl
    · exact (hkeep (hne hlast) hca).to_reflTransGen

end BelowCycle

/-! ## Names that wait for their parents -/

/-- `b` waits until `a` is placed. -/
def Awaits (waiting : List Waiting) (a b : String) : Prop :=
  ∃ w ∈ waiting, w.name = b ∧ a ∈ w.parents

/-- Waiting names in code point order, whose parents wait as well; there may be cycles. -/
structure Queued (waiting : List Waiting) : Prop where
  sorted : (waiting.map (·.name)).Pairwise (· < ·)
  closed : ∀ a b, Awaits waiting a b → a ∈ waiting.map (·.name)

section Queued

variable {waiting : List Waiting} {w : Waiting} {n : String}

theorem awaits_place_iff {a b : String} :
    Awaits (place n waiting) a b ↔ Awaits waiting a b ∧ a ≠ n ∧ b ≠ n := by
  simp only [Awaits, place, List.mem_map, List.mem_filter]
  constructor
  · rintro ⟨_, ⟨w, ⟨hw, hn⟩, rfl⟩, rfl, ha⟩
    obtain ⟨ha, hne⟩ := List.mem_filter.1 ha
    exact ⟨⟨w, hw, rfl, ha⟩, by simpa using hne, by simpa using hn⟩
  · rintro ⟨⟨w, hw, rfl, ha⟩, hne, hn⟩
    exact ⟨_, ⟨w, ⟨hw, by simpa using hn⟩, rfl⟩, rfl, List.mem_filter.2 ⟨ha, by simpa using hne⟩⟩

theorem Queued.nodup (h : Queued waiting) : (waiting.map (·.name)).Nodup := by
  refine h.sorted.imp fun hab => ?_
  rintro rfl
  exact String.lt_irrefl _ hab

theorem Queued.after_place (h : Queued waiting) (n : String) : Queued (place n waiting) := by
  refine ⟨?_, fun a b hab => ?_⟩
  · rw [names_place]
    exact h.sorted.filter _
  · obtain ⟨hab, hne, _⟩ := awaits_place_iff.1 hab
    rw [names_place, List.mem_filter]
    exact ⟨h.closed a b hab, by simpa using hne⟩

theorem Queued.not_awaits (h : Queued waiting) (hw : w ∈ waiting) (hfree : w.parents = [])
    (a : String) : ¬Awaits waiting a w.name := by
  rintro ⟨v, hv, hname, ha⟩
  obtain rfl := List.inj_on_of_nodup_map h.nodup hv hw hname
  rw [hfree] at ha
  exact List.not_mem_nil ha

/-- Where all names have parents, they all lie below cycles. -/
theorem Queued.belowCycle (h : Queued waiting) (hstuck : ∀ w ∈ waiting, w.parents ≠ []) :
    ∀ n ∈ waiting.map (·.name), BelowCycle (Awaits waiting) n := by
  refine belowCycle_of_parents fun n hn => ?_
  obtain ⟨w, hw, rfl⟩ := List.mem_map.1 hn
  obtain ⟨p, hp⟩ := List.exists_mem_of_ne_nil w.parents (hstuck w hw)
  have hawaits : Awaits waiting p w.name := ⟨w, hw, rfl, hp⟩
  exact ⟨p, h.closed _ _ hawaits, hawaits⟩

end Queued

end GrammarProfile.Cascade
