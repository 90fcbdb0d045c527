import GrammarProfile.Grammar.Particle
import Mathlib.Data.ENat.Lattice

/-!
The sequences of children that a content model permits, and how often each name occurs in them.
-/
namespace GrammarProfile.Grammar

namespace Occurs

/-- A part with these bounds may appear `k` times. -/
def Admits (o : Occurs) (k : ℕ) : Prop := o.min.val ≤ k ∧ ∀ m, o.max = some m → k ≤ m.val

/-- The minimum is not above the maximum. -/
def Ordered (o : Occurs) : Prop := ∀ m, o.max = some m → o.min.val ≤ m.val

/-- The maximum as a number that may be infinite. -/
def most (o : Occurs) : ℕ∞ :=
  match o.max with
  | some m => (m.val : ℕ∞)
  | none => ⊤

theorem le_most_iff {o : Occurs} {k : ℕ} : (k : ℕ∞) ≤ o.most ↔ ∀ m, o.max = some m → k ≤ m.val := by
  unfold most
  cases o.max with
  | none => simp
  | some m => simp

theorem admits_iff {o : Occurs} {k : ℕ} : o.Admits k ↔ o.min.val ≤ k ∧ (k : ℕ∞) ≤ o.most := by
  rw [le_most_iff]
  rfl

theorem Ordered.min_le_most {o : Occurs} (h : o.Ordered) : (o.min.val : ℕ∞) ≤ o.most :=
  le_most_iff.2 h

theorem Ordered.admits_max {o : Occurs} (h : o.Ordered) {k : ℕ} (hk : (k : ℕ∞) ≤ o.most) :
    o.Admits (Max.max k o.min.val) := by
  refine admits_iff.2 ⟨Nat.le_max_right _ _, ?_⟩
  rcases Nat.le_total k o.min.val with hle | hle
  · rw [Nat.max_eq_right hle]
    exact h.min_le_most
  · rw [Nat.max_eq_left hle]
    exact hk

end Occurs

/-- A number of rounds within the bounds, each of them one of the permitted sequences. -/
def Rounds (o : Occurs) (permits : List String → Prop) (w : List String) : Prop :=
  ∃ rounds : List (List String),
    o.Admits rounds.length ∧ (∀ r ∈ rounds, permits r) ∧ w = rounds.flatten

namespace Particle

mutual

/-- A content model permits a sequence of names. Wildcards contribute no name. -/
def Permits : Particle → List String → Prop
  | .element name o, w => ∃ k, o.Admits k ∧ w = List.replicate k name
  | .sequence o items, w => Rounds o (PermitsEach items) w
  | .choice o items, w => Rounds o (PermitsSome items) w
  | .group _ o inner, w => Rounds o (Permits inner) w
  | .any, w => w = []

/-- One permitted sequence of every part, in order. -/
def PermitsEach : List Particle → List String → Prop
  | [], w => w = []
  | p :: rest, w => ∃ u v, w = u ++ v ∧ Permits p u ∧ PermitsEach rest v

/-- One permitted sequence of some part. -/
def PermitsSome : List Particle → List String → Prop
  | [], _ => False
  | p :: rest, w => Permits p w ∨ PermitsSome rest w

end

mutual

/-- All bounds are ordered, and every choice has a part. -/
def WellFormed : Particle → Prop
  | .element _ o => o.Ordered
  | .sequence o items => o.Ordered ∧ AllWellFormed items
  | .choice o items => o.Ordered ∧ items ≠ [] ∧ AllWellFormed items
  | .group _ o inner => o.Ordered ∧ WellFormed inner
  | .any => True

def AllWellFormed : List Particle → Prop
  | [] => True
  | p :: rest => WellFormed p ∧ AllWellFormed rest

end

mutual

/-- The minimum for a name when nothing limits the numbers. -/
def fewest (name : String) : Particle → ℕ
  | .element n o => if n = name then o.min.val else 0
  | .sequence o items => fewestEach name items * o.min.val
  | .choice o items => fewestSome name items * o.min.val
  | .group _ o inner => fewest name inner * o.min.val
  | .any => 0

def fewestEach (name : String) : List Particle → ℕ
  | [] => 0
  | p :: rest => fewest name p + fewestEach name rest

def fewestSome (name : String) : List Particle → ℕ
  | [] => 0
  | p :: rest => if rest.isEmpty then fewest name p else min (fewest name p) (fewestSome name rest)

end

mutual

/-- The maximum for a name when nothing limits the numbers. -/
noncomputable def greatest (name : String) : Particle → ℕ∞
  | .element n o => if n = name then o.most else 0
  | .sequence o items => greatestEach name items * o.most
  | .choice o items => greatestSome name items * o.most
  | .group _ o inner => greatest name inner * o.most
  | .any => 0

noncomputable def greatestEach (name : String) : List Particle → ℕ∞
  | [] => 0
  | p :: rest => greatest name p + greatestEach name rest

noncomputable def greatestSome (name : String) : List Particle → ℕ∞
  | [] => 0
  | p :: rest => max (greatest name p) (greatestSome name rest)

end

end Particle

/-- How often a name occurs in permitted sequences: never less than `low`, never more than `high`,
and both bounds are met. -/
structure Tight (permits : List String → Prop) (name : String) (low : ℕ) (high : ℕ∞) : Prop where
  low_le : ∀ w, permits w → low ≤ w.count name
  le_high : ∀ w, permits w → (w.count name : ℕ∞) ≤ high
  low_met : ∃ w, permits w ∧ w.count name = low
  high_met : ∀ k : ℕ, (k : ℕ∞) ≤ high → ∃ w, permits w ∧ k ≤ w.count name

namespace Tight

variable {permits permits' : List String → Prop} {name : String} {low low' : ℕ} {high high' : ℕ∞}

theorem empty (name : String) : Tight (fun w => w = []) name 0 0 where
  low_le _ _ := Nat.zero_le _
  le_high w hw := by rw [hw]; exact le_rfl
  low_met := ⟨[], rfl, rfl⟩
  high_met k hk := ⟨[], rfl, by simpa using hk⟩

theorem element {o : Occurs} (ho : o.Ordered) (n : String) :
    Tight (fun w => ∃ k, o.Admits k ∧ w = List.replicate k n) name
      (if n = name then o.min.val else 0) (if n = name then o.most else 0) := by
  have hmin : o.Admits o.min.val := Occurs.admits_iff.2 ⟨Nat.le_refl _, ho.min_le_most⟩
  by_cases hn : n = name
  · subst hn
    rw [if_pos rfl, if_pos rfl]
    refine ⟨?_, ?_, ⟨_, ⟨_, hmin, rfl⟩, List.count_replicate_self⟩, ?_⟩
    · rintro w ⟨k, hk, rfl⟩
      rw [List.count_replicate_self]
      exact hk.1
    · rintro w ⟨k, hk, rfl⟩
      rw [List.count_replicate_self]
      exact (Occurs.admits_iff.1 hk).2
    · intro k hk
      refine ⟨_, ⟨_, ho.admits_max hk, rfl⟩, ?_⟩
      rw [List.count_replicate_self]
      exact Nat.le_max_left _ _
  · have hcount : ∀ k, (List.replicate k n).count name = 0 := by
      intro k
      rw [List.count_replicate, if_neg (by simpa using hn)]
    rw [if_neg hn, if_neg hn]
    refine ⟨fun _ _ => Nat.zero_le _, ?_, ⟨_, ⟨_, hmin, rfl⟩, hcount _⟩, ?_⟩
    · rintro w ⟨k, _, rfl⟩
      rw [hcount]
      exact le_rfl
    · intro k hk
      refine ⟨_, ⟨_, hmin, rfl⟩, ?_⟩
      rw [hcount]
      simpa using hk

/-- Bounds of sequences that follow each other add up. -/
theorem append (h : Tight permits name low high) (h' : Tight permits' name low' high') :
    Tight (fun w => ∃ u v, w = u ++ v ∧ permits u ∧ permits' v) name (low + low')
      (high + high') := by
  refine ⟨?_, ?_, ?_, ?_⟩
  · rintro w ⟨u, v, rfl, hu, hv⟩
    rw [List.count_append]
    exact Nat.add_le_add (h.low_le u hu) (h'.low_le v hv)
  · rintro w ⟨u, v, rfl, hu, hv⟩
    rw [List.count_append, Nat.cast_add]
    exact add_le_add (h.le_high u hu) (h'.le_high v hv)
  · obtain ⟨u, hu, hcu⟩ := h.low_met
    obtain ⟨v, hv, hcv⟩ := h'.low_met
    exact ⟨u ++ v, ⟨u, v, rfl, hu, hv⟩, by rw [List.count_append, hcu, hcv]⟩
  · intro k hk
    have hsplit : ∃ i j : ℕ, (i : ℕ∞) ≤ high ∧ (j : ℕ∞) ≤ high' ∧ k ≤ i + j := by
      cases high with
      | top => exact ⟨k, 0, le_top, zero_le, Nat.le_refl _⟩
      | coe a =>
          cases high' with
          | top => exact ⟨0, k, zero_le, le_top, by omega⟩
          | coe b => exact ⟨a, b, le_rfl, le_rfl, by exact_mod_cast hk⟩
    obtain ⟨i, j, hi, hj, hij⟩ := hsplit
    obtain ⟨u, hu, hcu⟩ := h.high_met i hi
    obtain ⟨v, hv, hcv⟩ := h'.high_met j hj
    refine ⟨u ++ v, ⟨u, v, rfl, hu, hv⟩, ?_⟩
    rw [List.count_append]
    omega

/-- Of alternatives, the lower minimum and the higher maximum count. -/
theorem or (h : Tight permits name low high) (h' : Tight permits' name low' high') :
    Tight (fun w => permits w ∨ permits' w) name (min low low') (max high high') := by
  refine ⟨?_, ?_, ?_, ?_⟩
  · rintro w (hw | hw)
    · exact Nat.le_trans (Nat.min_le_left _ _) (h.low_le w hw)
    · exact Nat.le_trans (Nat.min_le_right _ _) (h'.low_le w hw)
  · rintro w (hw | hw)
    · exact le_max_of_le_left (h.le_high w hw)
    · exact le_max_of_le_right (h'.le_high w hw)
  · obtain ⟨u, hu, hcu⟩ := h.low_met
    obtain ⟨v, hv, hcv⟩ := h'.low_met
    rcases Nat.le_total low low' with hle | hle
    · exact ⟨u, .inl hu, by rw [hcu, Nat.min_eq_left hle]⟩
    · exact ⟨v, .inr hv, by rw [hcv, Nat.min_eq_right hle]⟩
  · intro k hk
    rcases le_max_iff.1 hk with hk | hk
    · obtain ⟨w, hw, hcw⟩ := h.high_met k hk
      exact ⟨w, .inl hw, hcw⟩
    · obtain ⟨w, hw, hcw⟩ := h'.high_met k hk
      exact ⟨w, .inr hw, hcw⟩

theorem count_flatten_bounds (h : Tight permits name low high) (rounds : List (List String))
    (hr : ∀ r ∈ rounds, permits r) :
    low * rounds.length ≤ rounds.flatten.count name ∧
      (rounds.flatten.count name : ℕ∞) ≤ high * rounds.length := by
  induction rounds with
  | nil => simp
  | cons r rest ih =>
      have hrest := ih fun x hx => hr x (List.mem_cons_of_mem _ hx)
      have hfirst := hr r List.mem_cons_self
      rw [List.flatten_cons, List.count_append, List.length_cons, Nat.mul_succ]
      refine ⟨?_, ?_⟩
      · have := h.low_le r hfirst
        omega
      · push_cast
        rw [mul_add, mul_one, add_comm (high * _)]
        exact add_le_add (h.le_high r hfirst) hrest.2

theorem count_flatten_replicate (k : ℕ) (w : List String) :
    (List.replicate k w).flatten.count name = w.count name * k := by
  induction k with
  | zero => rfl
  | succ k ih =>
      rw [List.replicate_succ, List.flatten_cons, List.count_append, ih, Nat.mul_succ, Nat.add_comm]

/-- A product of bounds is approached by products of numbers within the bounds; zero times an
infinite bound is zero. -/
theorem exists_factors {a b : ℕ∞} {k : ℕ} (hk : (k : ℕ∞) ≤ a * b) :
    ∃ i j : ℕ, (i : ℕ∞) ≤ a ∧ (j : ℕ∞) ≤ b ∧ k ≤ i * j := by
  have hzero : a = 0 ∨ b = 0 → k = 0 := by
    rintro (rfl | rfl) <;> simpa using hk
  by_cases hab : a = 0 ∨ b = 0
  · exact ⟨0, 0, zero_le, zero_le, by rw [hzero hab]⟩
  · obtain ⟨ha, hb⟩ := not_or.1 hab
    cases a with
    | top => exact ⟨k, 1, le_top, by exact_mod_cast Order.one_le_iff_ne_zero.2 hb, by omega⟩
    | coe a =>
        cases b with
        | top => exact ⟨1, k, by exact_mod_cast Order.one_le_iff_ne_zero.2 ha, le_top, by omega⟩
        | coe b => exact ⟨a, b, le_rfl, le_rfl, by exact_mod_cast hk⟩

/-- Repetition multiplies bounds. -/
theorem rounds {o : Occurs} (ho : o.Ordered) (h : Tight permits name low high) :
    Tight (Rounds o permits) name (low * o.min.val) (high * o.most) := by
  refine ⟨?_, ?_, ?_, ?_⟩
  · rintro w ⟨rs, hadmits, hr, rfl⟩
    exact Nat.le_trans (Nat.mul_le_mul_left _ hadmits.1) (h.count_flatten_bounds rs hr).1
  · rintro w ⟨rs, hadmits, hr, rfl⟩
    exact le_trans (h.count_flatten_bounds rs hr).2
      (mul_le_mul_right (Occurs.admits_iff.1 hadmits).2 high)
  · obtain ⟨w, hw, hcw⟩ := h.low_met
    refine ⟨(List.replicate o.min.val w).flatten, ⟨_, ?_, ?_, rfl⟩, ?_⟩
    · rw [List.length_replicate]
      exact Occurs.admits_iff.2 ⟨Nat.le_refl _, ho.min_le_most⟩
    · exact fun r hr => (List.eq_of_mem_replicate hr) ▸ hw
    · rw [count_flatten_replicate, hcw]
  · intro k hk
    obtain ⟨i, j, hi, hj, hij⟩ := exists_factors hk
    obtain ⟨w, hw, hcw⟩ := h.high_met i hi
    refine ⟨(List.replicate (max j o.min.val) w).flatten, ⟨_, ?_, ?_, rfl⟩, ?_⟩
    · rw [List.length_replicate]
      exact ho.admits_max hj
    · exact fun r hr => (List.eq_of_mem_replicate hr) ▸ hw
    · rw [count_flatten_replicate]
      exact Nat.le_trans hij (Nat.mul_le_mul hcw (Nat.le_max_left _ _))

end Tight

namespace Particle

mutual

/-- The unlimited bounds of a name are exact for every content model. -/
theorem tight (name : String) : ∀ p : Particle, p.WellFormed →
    Tight p.Permits name (p.fewest name) (p.greatest name)
  | .element n o, h => by
      simp only [WellFormed] at h
      simpa only [Permits, fewest, greatest] using Tight.element h n
  | .sequence o items, h => by
      simp only [WellFormed] at h
      simpa only [Permits, fewest, greatest] using (tightEach name items h.2).rounds h.1
  | .choice o items, h => by
      simp only [WellFormed] at h
      simpa only [Permits, fewest, greatest] using (tightSome name items h.2.1 h.2.2).rounds h.1
  | .group _ o inner, h => by
      simp only [WellFormed] at h
      simpa only [Permits, fewest, greatest] using (tight name inner h.2).rounds h.1
  | .any, _ => by
      simpa only [Permits, fewest, greatest] using Tight.empty name

theorem tightEach (name : String) : ∀ items : List Particle, AllWellFormed items →
    Tight (PermitsEach items) name (fewestEach name items) (greatestEach name items)
  | [], _ => by
      simpa only [PermitsEach, fewestEach, greatestEach] using Tight.empty name
  | p :: rest, h => by
      simp only [AllWellFormed] at h
      simpa only [PermitsEach, fewestEach, greatestEach] using
        (tight name p h.1).append (tightEach name rest h.2)

theorem tightSome (name : String) : ∀ items : List Particle, items ≠ [] → AllWellFormed items →
    Tight (PermitsSome items) name (fewestSome name items) (greatestSome name items)
  | [], hne, _ => absurd rfl hne
  | [p], _, h => by
      simp only [AllWellFormed] at h
      simpa [PermitsSome, fewestSome, greatestSome] using tight name p h.1
  | p :: q :: rest, _, h => by
      rw [AllWellFormed] at h
      have hrest := tightSome name (q :: rest) (List.cons_ne_nil _ _) h.2
      exact (tight name p h.1).or hrest

end

end Particle

end GrammarProfile.Grammar
