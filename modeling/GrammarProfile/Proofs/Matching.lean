import GrammarProfile.Pattern
import Mathlib.Data.List.Perm.Subperm

/-!
What expressions match, said without positions that are gone through in sets: the positions that are
computed are those where a match ends, and an expression between anchors matches whole texts only.
-/
namespace GrammarProfile.Pattern

/-! ## The meaning of expressions -/

/-- A relation on positions, taken a number of times. -/
def Steps (R : ℕ → ℕ → Prop) : ℕ → ℕ → ℕ → Prop
  | 0, i, j => i = j
  | n + 1, i, k => ∃ j, R i j ∧ Steps R n j k

/-- An expression matches a text from one position to another. -/
def Expr.Matches (text : Array Char) : Expr → ℕ → ℕ → Prop
  | .empty, i, j => i = j
  | .one s, i, j => ∃ c, text[i]? = some c ∧ s.contains c = true ∧ j = i + 1
  | .look l, i, j => l.holds (before? text i) text[i]? = true ∧ i = j
  | .concat a b, i, k => ∃ j, a.Matches text i j ∧ b.Matches text j k
  | .either a b, i, j => a.Matches text i j ∨ b.Matches text i j
  | .repeat min max e, i, j => ∃ n, min ≤ n ∧ (∀ m, max = some m → n ≤ Max.max min m) ∧
      Steps (e.Matches text) n i j

/-- An expression matches a text as a whole. -/
def Expr.MatchesWhole (e : Expr) (text : Array Char) : Prop := e.Matches text 0 text.size

section Steps

variable {R : ℕ → ℕ → Prop} {n m i j k : ℕ}

theorem Steps.add (h : Steps R n i j) (h' : Steps R m j k) : Steps R (n + m) i k := by
  induction n generalizing i with
  | zero =>
      rw [Nat.zero_add]
      exact Eq.symm h ▸ h'
  | succ n ih =>
      obtain ⟨l, hl, h⟩ := h
      rw [Nat.add_right_comm]
      exact ⟨l, hl, ih h⟩

theorem Steps.split (h : Steps R (n + m) i k) : ∃ j, Steps R n i j ∧ Steps R m j k := by
  induction n generalizing i with
  | zero =>
      rw [Nat.zero_add] at h
      exact ⟨i, rfl, h⟩
  | succ n ih =>
      rw [Nat.add_right_comm] at h
      obtain ⟨l, hl, h⟩ := h
      obtain ⟨j, hj, hk⟩ := ih h
      exact ⟨j, ⟨l, hl, hj⟩, hk⟩

theorem Steps.succ (h : Steps R n i j) (hk : R j k) : Steps R (n + 1) i k := h.add ⟨k, hk, rfl⟩

end Steps

/-! ## Sets of positions -/

/-- Positions up to a bound as they are kept: in ascending order. -/
structure Positions (bound : ℕ) (s : List ℕ) : Prop where
  ascending : s.Pairwise (· < ·)
  bounded : ∀ i ∈ s, i ≤ bound

section Positions

variable {bound x : ℕ} {xs ys s t : List ℕ}

theorem Positions.sublist (h : Positions bound t) (hs : s.Sublist t) : Positions bound s :=
  ⟨h.ascending.sublist hs, fun i hi => h.bounded i (hs.subset hi)⟩

/-- There are no more positions than numbers up to the bound. -/
theorem Positions.length_le (h : Positions bound s) : s.length ≤ bound + 1 := by
  have hsub : s ⊆ List.range (bound + 1) := fun i hi =>
    List.mem_range.2 (Nat.lt_succ_of_le (h.bounded i hi))
  have hnodup : s.Nodup := h.ascending.imp fun h => Nat.ne_of_lt h
  have hle := (List.subperm_of_subset hnodup hsub).length_le
  rwa [List.length_range] at hle

theorem mem_takeWhile_lt (h : ys.Pairwise (· < ·)) {y : ℕ} :
    y ∈ ys.takeWhile (· < x) ↔ y ∈ ys ∧ y < x := by
  induction ys with
  | nil => simp
  | cons a rest ih =>
      obtain ⟨ha, hrest⟩ := List.pairwise_cons.1 h
      rw [List.takeWhile_cons]
      split
      · next hlt =>
        rw [List.mem_cons, List.mem_cons, ih hrest]
        have hax : a < x := by simpa using hlt
        constructor
        · rintro (rfl | hy)
          · exact ⟨.inl rfl, hax⟩
          · exact ⟨.inr hy.1, hy.2⟩
        · rintro ⟨rfl | hy, hyx⟩
          · exact .inl rfl
          · exact .inr ⟨hy, hyx⟩
      · next hge =>
        have hxa : x ≤ a := by simpa using hge
        refine iff_of_false List.not_mem_nil ?_
        rintro ⟨hy, hyx⟩
        obtain rfl | hy := List.mem_cons.1 hy
        · omega
        · have hay := ha y hy
          omega

theorem mem_dropWhile_lt (h : ys.Pairwise (· < ·)) {y : ℕ} :
    y ∈ ys.dropWhile (· < x) ↔ y ∈ ys ∧ x ≤ y := by
  induction ys with
  | nil => simp
  | cons a rest ih =>
      obtain ⟨ha, hrest⟩ := List.pairwise_cons.1 h
      rw [List.dropWhile_cons]
      split
      · next hlt =>
        have hax : a < x := by simpa using hlt
        rw [ih hrest, List.mem_cons]
        constructor
        · exact fun hy => ⟨.inr hy.1, hy.2⟩
        · rintro ⟨rfl | hy, hyx⟩
          · omega
          · exact ⟨hy, hyx⟩
      · next hge =>
        have hxa : x ≤ a := by simpa using hge
        refine ⟨fun hy => ⟨hy, ?_⟩, And.left⟩
        obtain rfl | hy := List.mem_cons.1 hy
        · exact hxa
        · exact Nat.le_of_lt (Nat.lt_of_le_of_lt hxa (ha y hy))

theorem dropWhile_le_eq : ys.dropWhile (· ≤ x) = ys.dropWhile (· < x + 1) := by
  refine congrArg (List.dropWhile · ys) (funext fun y => ?_)
  exact decide_eq_decide.2 Nat.lt_succ_iff.symm

/-- The union of two sets has the members of both. -/
theorem mem_union (hys : ys.Pairwise (· < ·)) {y : ℕ} : y ∈ union xs ys ↔ y ∈ xs ∨ y ∈ ys := by
  induction xs generalizing ys with
  | nil => simp [union]
  | cons x rest ih =>
      have hlater := hys.sublist (List.dropWhile_sublist (· ≤ x))
      rw [union, List.mem_append, List.mem_cons, ih hlater, mem_takeWhile_lt hys, dropWhile_le_eq,
        mem_dropWhile_lt hys, List.mem_cons]
      constructor
      · rintro (hy | rfl | hy | hy)
        · exact .inr hy.1
        · exact .inl (.inl rfl)
        · exact .inl (.inr hy)
        · exact .inr hy.1
      · rintro ((rfl | hy) | hy)
        · exact .inr (.inl rfl)
        · exact .inr (.inr (.inl hy))
        · rcases Nat.lt_trichotomy y x with hlt | rfl | hgt
          · exact .inl ⟨hy, hlt⟩
          · exact .inr (.inl rfl)
          · exact .inr (.inr (.inr ⟨hy, hgt⟩))

theorem ascending_union (hxs : xs.Pairwise (· < ·)) (hys : ys.Pairwise (· < ·)) :
    (union xs ys).Pairwise (· < ·) := by
  induction xs generalizing ys with
  | nil => exact hys
  | cons x rest ih =>
      obtain ⟨hx, hrest⟩ := List.pairwise_cons.1 hxs
      have hlater := hys.sublist (List.dropWhile_sublist (· ≤ x))
      have hafter : ∀ y ∈ union rest (ys.dropWhile (· ≤ x)), x < y := by
        intro y hy
        rw [mem_union hlater, dropWhile_le_eq, mem_dropWhile_lt hys] at hy
        exact hy.elim (hx y) fun hy => hy.2
      rw [union]
      refine List.pairwise_append.2 ⟨hys.sublist (List.takeWhile_sublist _),
        List.pairwise_cons.2 ⟨hafter, ih hrest hlater⟩, fun a ha b hb => ?_⟩
      have hax := ((mem_takeWhile_lt hys).1 ha).2
      obtain rfl | hb := List.mem_cons.1 hb
      · exact hax
      · exact Nat.lt_trans hax (hafter b hb)

theorem Positions.union (hxs : Positions bound xs) (hys : Positions bound ys) :
    Positions bound (union xs ys) :=
  ⟨ascending_union hxs.ascending hys.ascending, fun i hi =>
    ((mem_union hys.ascending).1 hi).elim (hxs.bounded i) (hys.bounded i)⟩

theorem minus_sublist : (minus xs ys).Sublist xs := by
  induction xs generalizing ys with
  | nil => exact .slnil
  | cons x rest ih =>
      rw [minus]
      split
      · exact ih.cons x
      · exact ih.cons_cons x

/-- The difference of two sets has the members of the first that the second lacks. -/
theorem mem_minus (hxs : xs.Pairwise (· < ·)) (hys : ys.Pairwise (· < ·)) {y : ℕ} :
    y ∈ minus xs ys ↔ y ∈ xs ∧ y ∉ ys := by
  induction xs generalizing ys with
  | nil => simp [minus]
  | cons x rest ih =>
      obtain ⟨hx, hrest⟩ := List.pairwise_cons.1 hxs
      have hlater := hys.sublist (List.dropWhile_sublist (· < x))
      have hkept : ∀ z, x ≤ z → (z ∈ ys.dropWhile (· < x) ↔ z ∈ ys) := fun z hz =>
        (mem_dropWhile_lt hys).trans (and_iff_left hz)
      have hrest' : y ∈ minus rest (ys.dropWhile (· < x)) ↔ y ∈ rest ∧ y ∉ ys := by
        rw [ih hrest hlater]
        exact and_congr_right fun hy => not_congr (hkept y (Nat.le_of_lt (hx y hy)))
      have hhead : (ys.dropWhile (· < x)).head? = some x ↔ x ∈ ys := by
        rw [← hkept x (Nat.le_refl x)]
        constructor
        · exact List.mem_of_mem_head?
        · intro hmem
          cases hd : ys.dropWhile (· < x) with
          | nil => rw [hd] at hmem; exact absurd hmem List.not_mem_nil
          | cons a later =>
              rw [hd] at hmem hlater
              have hxa : x ≤ a := ((mem_dropWhile_lt hys).1 (hd ▸ List.mem_cons_self)).2
              obtain rfl | hlt := List.mem_cons.1 hmem
              · rfl
              · have hax := (List.pairwise_cons.1 hlater).1 x hlt
                omega
      rw [minus]
      split
      · next hin =>
        rw [hrest', List.mem_cons]
        have hxs := hhead.1 (by simpa using hin)
        constructor
        · exact fun h => ⟨.inr h.1, h.2⟩
        · rintro ⟨rfl | hy, hn⟩
          · exact absurd hxs hn
          · exact ⟨hy, hn⟩
      · next hout =>
        rw [List.mem_cons, hrest', List.mem_cons]
        have hxs := fun hmem => hout (by simpa using hhead.2 hmem)
        constructor
        · rintro (rfl | h)
          · exact ⟨.inl rfl, hxs⟩
          · exact ⟨.inr h.1, h.2⟩
        · rintro ⟨rfl | hy, hn⟩
          · exact .inl rfl
          · exact .inr ⟨hy, hn⟩

end Positions

/-! ## Rounds of a step -/

/-- A step on sets of positions does what a relation says of each position. -/
structure Follows (bound : ℕ) (step : List ℕ → List ℕ) (R : ℕ → ℕ → Prop) : Prop where
  positions : ∀ {s}, Positions bound s → Positions bound (step s)
  mem_iff : ∀ {s}, Positions bound s → ∀ j, j ∈ step s ↔ ∃ i ∈ s, R i j

section Rounds

variable {bound : ℕ} {step : List ℕ → List ℕ} {R : ℕ → ℕ → Prop}

theorem Follows.times (h : Follows bound step R) (n : ℕ) :
    Follows bound (Expr.times step n) (Steps R n) := by
  induction n with
  | zero => exact ⟨id, fun _ j => by simp [Expr.times, Steps]⟩
  | succ n ih =>
      refine ⟨fun {s} hs => ?_, fun {s} hs j => ?_⟩
      · cases s with
        | nil => exact hs
        | cons a rest => exact ih.positions (h.positions hs)
      · cases s with
        | nil => simp [Expr.times]
        | cons a rest =>
            rw [Expr.times.eq_3 step _ n (List.cons_ne_nil a rest), ih.mem_iff (h.positions hs)]
            simp only [h.mem_iff hs, Steps]
            constructor
            · rintro ⟨i, ⟨k, hk, hki⟩, hij⟩
              exact ⟨k, hk, i, hki, hij⟩
            · rintro ⟨k, hk, i, hki, hij⟩
              exact ⟨i, ⟨k, hk, hki⟩, hij⟩

/-- A position that is reached from given ones in at most `n` rounds. -/
def Reached (R : ℕ → ℕ → Prop) (s : List ℕ) (n j : ℕ) : Prop := ∃ k ≤ n, ∃ i ∈ s, Steps R k i j

theorem Reached.mono {s : List ℕ} {n m j : ℕ} (h : Reached R s n j) (hle : n ≤ m) :
    Reached R s m j := by
  obtain ⟨k, hk, hreach⟩ := h
  exact ⟨k, Nat.le_trans hk hle, hreach⟩

theorem reached_succ_iff {s : List ℕ} {n j : ℕ} :
    Reached R s (n + 1) j ↔ Reached R s n j ∨ ∃ i, Reached R s n i ∧ R i j := by
  constructor
  · rintro ⟨k, hk, i, hi, h⟩
    rcases Nat.lt_or_ge k (n + 1) with hlt | hge
    · exact .inl ⟨k, Nat.le_of_lt_succ hlt, i, hi, h⟩
    · obtain rfl : k = n + 1 := Nat.le_antisymm hk hge
      obtain ⟨l, hl, j', hlj, rfl⟩ := h.split
      exact .inr ⟨l, ⟨n, Nat.le_refl n, i, hi, hl⟩, hlj⟩
  · rintro (h | ⟨l, ⟨k, hk, i, hi, h⟩, hlj⟩)
    · exact h.mono (Nat.le_succ n)
    · exact ⟨k + 1, Nat.succ_le_succ hk, i, hi, h.succ hlj⟩

/-- Where a round brings nothing new, no later one does. -/
theorem reached_of_closed {s : List ℕ} {n : ℕ}
    (h : ∀ i j, Reached R s n i → R i j → Reached R s n j) {m j : ℕ} (hm : Reached R s m j) :
    Reached R s n j := by
  induction m generalizing j with
  | zero => exact hm.mono (Nat.zero_le n)
  | succ m ih =>
      rcases reached_succ_iff.1 hm with hm | ⟨i, hi, hij⟩
      · exact ih hm
      · exact h i j (ih hi) hij

/-- What was seen after `n` rounds, and which of it is new in the last. -/
structure Seen (bound : ℕ) (R : ℕ → ℕ → Prop) (s : List ℕ) (n : ℕ) (seen fresh : List ℕ) :
    Prop where
  all : Positions bound seen
  last : Positions bound fresh
  mem_iff : ∀ j, j ∈ seen ↔ Reached R s n j
  subset : fresh ⊆ seen
  new : ∀ i ∈ seen, i ∉ fresh → ∀ j, R i j → j ∈ seen

theorem Seen.start {s : List ℕ} (hs : Positions bound s) : Seen bound R s 0 s s where
  all := hs
  last := hs
  mem_iff j := by
    constructor
    · exact fun hj => ⟨0, Nat.le_refl 0, j, hj, rfl⟩
    · rintro ⟨k, hk, i, hi, h⟩
      obtain rfl := Nat.le_zero.1 hk
      exact Eq.mp (congrArg (· ∈ s) h) hi
  subset := List.Subset.refl s
  new i hi hn := absurd hi hn

section

variable {s seen fresh : List ℕ} {n : ℕ} (hstep : Follows bound step R)
  (h : Seen bound R s n seen fresh)
include hstep h

theorem Seen.mem_new (j : ℕ) :
    j ∈ minus (step fresh) seen ↔ (∃ i ∈ seen, R i j) ∧ j ∉ seen := by
  rw [mem_minus (hstep.positions h.last).ascending h.all.ascending, hstep.mem_iff h.last]
  refine and_congr_left fun hj => ?_
  constructor
  · rintro ⟨i, hi, hij⟩
    exact ⟨i, h.subset hi, hij⟩
  · rintro ⟨i, hi, hij⟩
    by_cases hfresh : i ∈ fresh
    · exact ⟨i, hfresh, hij⟩
    · exact absurd (h.new i hi hfresh j hij) hj

theorem Seen.next :
    Seen bound R s (n + 1) (union seen (minus (step fresh) seen)) (minus (step fresh) seen) := by
  have hnew : Positions bound (minus (step fresh) seen) :=
    (hstep.positions h.last).sublist minus_sublist
  have hunion : ∀ j, j ∈ union seen (minus (step fresh) seen) ↔
      j ∈ seen ∨ ∃ i ∈ seen, R i j := by
    intro j
    rw [mem_union hnew.ascending, h.mem_new hstep]
    by_cases hj : j ∈ seen
    · exact iff_of_true (.inl hj) (.inl hj)
    · rw [and_iff_left hj]
  refine ⟨h.all.union hnew, hnew, fun j => ?_, fun j hj => (mem_union hnew.ascending).2 (.inr hj),
    fun i hi hn j hij => ?_⟩
  · rw [hunion, reached_succ_iff, h.mem_iff]
    simp only [h.mem_iff]
  · have hseen : i ∈ seen := ((mem_union hnew.ascending).1 hi).resolve_right hn
    exact (hunion j).2 (.inr ⟨i, hseen, hij⟩)

theorem Seen.closed (hnone : minus (step fresh) seen = []) {m j : ℕ} (hm : Reached R s m j) :
    j ∈ seen := by
  refine (h.mem_iff j).2 (reached_of_closed (fun i k hi hik => ?_) hm)
  by_contra hk
  have hmem := (h.mem_new hstep k).2 ⟨⟨i, (h.mem_iff i).2 hi, hik⟩, fun hin => hk ((h.mem_iff k).1 hin)⟩
  rw [hnone] at hmem
  exact absurd hmem List.not_mem_nil

end

/-- Spreading finds what is reached in a number of rounds, or in any number of rounds if there are as
many as positions. -/
theorem mem_spread (hstep : Follows bound step R) {s : List ℕ} (fuel : ℕ) :
    ∀ {n : ℕ} {seen fresh : List ℕ}, Seen bound R s n seen fresh →
      Positions bound (spread step fuel seen fresh) ∧
      ∀ j, (j ∈ spread step fuel seen fresh ↔ Reached R s (n + fuel) j) ∧
        (bound + 1 < fuel + seen.length → ∀ m, Reached R s m j → Reached R s (n + fuel) j) := by
  induction fuel with
  | zero =>
      intro n seen fresh h
      refine ⟨h.all, fun j => ⟨h.mem_iff j, fun hmany => ?_⟩⟩
      have hlength := h.all.length_le
      omega
  | succ fuel ih =>
      intro n seen fresh h
      unfold spread
      cases hnew : minus (step fresh) seen with
      | nil =>
          refine ⟨h.all, fun j => ⟨⟨fun hj => ((h.mem_iff j).1 hj).mono (Nat.le_add_right _ _),
            h.closed hstep hnew⟩, fun _ m hm => ?_⟩⟩
          exact ((h.mem_iff j).1 (h.closed hstep hnew hm)).mono (Nat.le_add_right _ _)
      | cons a rest =>
          have hnext := h.next hstep
          rw [hnew] at hnext
          obtain ⟨hpositions, hmem⟩ := ih hnext
          refine ⟨hpositions, fun j => ?_⟩
          obtain ⟨hiff, hmany⟩ := hmem j
          rw [Nat.add_assoc, Nat.add_comm 1] at hiff hmany
          refine ⟨hiff, fun hlength => hmany ?_⟩
          -- The union has the members of what was seen and one more.
          have hlt : seen.length < (union seen (a :: rest)).length := by
            have hsub : (a :: seen) ⊆ union seen (a :: rest) := by
              refine List.cons_subset.2 ⟨?_, fun i hi => ?_⟩
              · exact (mem_union hnext.last.ascending).2 (.inr List.mem_cons_self)
              · exact (mem_union hnext.last.ascending).2 (.inl hi)
            have ha : a ∉ seen :=
              ((h.mem_new hstep a).1 (hnew ▸ List.mem_cons_self)).2
            have hnodup : (a :: seen).Nodup :=
              List.nodup_cons.2 ⟨ha, h.all.ascending.imp fun h => Nat.ne_of_lt h⟩
            exact (List.subperm_of_subset hnodup hsub).length_le
          omega

theorem Follows.spread (hstep : Follows bound step R) (fuel : ℕ) :
    Follows bound (fun s => spread step fuel s s) fun i j => ∃ n ≤ fuel, Steps R n i j := by
  refine ⟨fun hs => (mem_spread hstep fuel (.start hs)).1, fun {s} hs j => ?_⟩
  rw [((mem_spread hstep fuel (.start hs)).2 j).1, Nat.zero_add]
  constructor
  · rintro ⟨n, hn, i, hi, h⟩
    exact ⟨i, hi, n, hn, h⟩
  · rintro ⟨i, hi, n, hn, h⟩
    exact ⟨n, hn, i, hi, h⟩

theorem Follows.spread_all (hstep : Follows bound step R) :
    Follows bound (fun s => Pattern.spread step (bound + 1) s s) fun i j => ∃ n, Steps R n i j := by
  refine ⟨fun hs => (mem_spread hstep _ (.start hs)).1, fun {s} hs j => ?_⟩
  obtain ⟨hiff, hmany⟩ := (mem_spread hstep (bound + 1) (.start hs)).2 j
  rw [Nat.zero_add] at hiff hmany
  rw [hiff]
  constructor
  · rintro ⟨n, -, i, hi, h⟩
    exact ⟨i, hi, n, h⟩
  · rintro ⟨i, hi, n, h⟩
    have hlength := List.length_pos_of_mem hi
    exact hmany (by omega) n ⟨n, Nat.le_refl n, i, hi, h⟩

end Rounds

/-! ## Matching by sets of positions -/

namespace Expr

variable {text : Array Char}

/-- The positions that are computed are those where a match ends. -/
theorem follows_ends (text : Array Char) :
    ∀ e : Expr, Follows text.size (e.ends text) (e.Matches text)
  | .empty => ⟨id, fun _ j => by simp [ends, Matches]⟩
  | .one set => by
      have hmem : ∀ (s : List ℕ) j, j ∈ ends text (.one set) s ↔
          ∃ i ∈ s, Matches text (.one set) i j := by
        intro s j
        rw [ends, List.mem_filterMap]
        refine exists_congr fun i => and_congr_right fun _ => ?_
        unfold Matches
        cases text[i]? with
        | none => simp
        | some c =>
            by_cases hc : set.contains c = true
            · simp only [hc, if_true, Option.some.injEq]
              constructor
              · rintro rfl
                exact ⟨c, rfl, hc, rfl⟩
              · rintro ⟨_, -, -, rfl⟩
                rfl
            · simp [hc]
      have hstep : ∀ {i j}, j ∈ ends text (.one set) [i] → j = i + 1 := by
        intro i j hj
        obtain ⟨k, hk, c, -, -, rfl⟩ := (hmem [i] j).1 hj
        rw [List.mem_singleton.1 hk]
      refine ⟨fun {s} hs => ⟨?_, fun j hj => ?_⟩, fun _ => hmem _⟩
      · rw [ends]
        refine List.pairwise_filterMap.2 (hs.ascending.imp fun {i k} hik j hj l hl => ?_)
        rw [hstep (List.mem_filterMap.2 ⟨i, List.mem_singleton_self i, hj⟩),
          hstep (List.mem_filterMap.2 ⟨k, List.mem_singleton_self k, hl⟩)]
        exact Nat.succ_lt_succ hik
      · obtain ⟨i, -, c, hc, -, rfl⟩ := (hmem s j).1 hj
        exact (Array.getElem?_eq_some_iff.1 hc).1
  | .look l => ⟨fun hs => hs.sublist List.filter_sublist, fun _ j => by
      simp only [ends, Matches, List.mem_filter]
      constructor
      · exact fun h => ⟨j, h.1, h.2, rfl⟩
      · rintro ⟨i, hi, h, rfl⟩
        exact ⟨hi, h⟩⟩
  | .concat a b => by
      have ha := follows_ends text a
      have hb := follows_ends text b
      refine ⟨fun hs => hb.positions (ha.positions hs), fun {s} hs j => ?_⟩
      rw [ends, hb.mem_iff (ha.positions hs)]
      simp only [ha.mem_iff hs, Matches]
      constructor
      · rintro ⟨k, ⟨i, hi, hik⟩, hkj⟩
        exact ⟨i, hi, k, hik, hkj⟩
      · rintro ⟨i, hi, k, hik, hkj⟩
        exact ⟨k, ⟨i, hi, hik⟩, hkj⟩
  | .either a b => by
      have ha := follows_ends text a
      have hb := follows_ends text b
      refine ⟨fun hs => (ha.positions hs).union (hb.positions hs), fun {s} hs j => ?_⟩
      rw [ends, mem_union (hb.positions hs).ascending, ha.mem_iff hs, hb.mem_iff hs]
      simp only [Matches, and_or_left, exists_or]
  | .repeat min max e => by
      have hfirst := (follows_ends text e).times min
      cases max with
      | none =>
          have hmore := (follows_ends text e).spread_all
          refine ⟨fun hs => hmore.positions (hfirst.positions hs), fun {s} hs j => ?_⟩
          refine (hmore.mem_iff (hfirst.positions hs) j).trans ?_
          simp only [hfirst.mem_iff hs, Matches, reduceCtorEq, false_implies, implies_true, true_and]
          constructor
          · rintro ⟨k, ⟨i, hi, hik⟩, n, hkj⟩
            exact ⟨i, hi, min + n, Nat.le_add_right _ _, hik.add hkj⟩
          · rintro ⟨i, hi, n, hn, h⟩
            obtain ⟨n, rfl⟩ := Nat.exists_eq_add_of_le hn
            obtain ⟨k, hik, hkj⟩ := h.split
            exact ⟨k, ⟨i, hi, hik⟩, n, hkj⟩
      | some m =>
          have hmore := (follows_ends text e).spread (m - min)
          refine ⟨fun hs => hmore.positions (hfirst.positions hs), fun {s} hs j => ?_⟩
          refine (hmore.mem_iff (hfirst.positions hs) j).trans ?_
          simp only [hfirst.mem_iff hs, Matches, Option.some.injEq, forall_eq']
          constructor
          · rintro ⟨k, ⟨i, hi, hik⟩, n, hn, hkj⟩
            exact ⟨i, hi, min + n, Nat.le_add_right _ _, by omega, hik.add hkj⟩
          · rintro ⟨i, hi, n, hn, hmost, h⟩
            obtain ⟨n, rfl⟩ := Nat.exists_eq_add_of_le hn
            obtain ⟨k, hik, hkj⟩ := h.split
            exact ⟨k, ⟨i, hi, hik⟩, n, by omega, hkj⟩

/-- An expression occurs in a text if it matches between two of its positions. -/
theorem occursIn_iff (e : Expr) : e.occursIn text = true ↔ ∃ i ≤ text.size, ∃ j, e.Matches text i j := by
  have hall : Positions text.size (List.range (text.size + 1)) :=
    ⟨List.pairwise_lt_range, fun i hi => Nat.le_of_lt_succ (List.mem_range.1 hi)⟩
  rw [occursIn, Bool.not_eq_true', List.isEmpty_eq_false_iff_exists_mem]
  simp only [(follows_ends text e).mem_iff hall, List.mem_range, Nat.lt_succ_iff]
  constructor
  · rintro ⟨j, i, hi, h⟩
    exact ⟨i, hi, j, h⟩
  · rintro ⟨i, hi, j, h⟩
    exact ⟨j, i, hi, h⟩

theorem le_size_of_matches {e : Expr} {i j : ℕ} (h : e.Matches text i j) (hi : i ≤ text.size) :
    j ≤ text.size := by
  have hs : Positions text.size [i] := ⟨List.pairwise_singleton _ _, fun k hk =>
    (List.mem_singleton.1 hk).symm ▸ hi⟩
  have he := follows_ends text e
  exact (he.positions hs).bounded j ((he.mem_iff hs j).2 ⟨i, List.mem_singleton_self i, h⟩)

/-- Between anchors for the ends of the text an expression occurs exactly if it matches the whole. -/
theorem occursIn_anchored_iff (e : Expr) :
    (Expr.concat (.look .textStart) (.concat e (.look .textEnd))).occursIn text = true ↔
      e.MatchesWhole text := by
  have hstart : ∀ {i}, i ≤ text.size →
      (Look.textStart.holds (before? text i) text[i]? = true ↔ i = 0) := by
    intro i hi
    cases i with
    | zero => simp [Look.holds, before?]
    | succ i => simp [Look.holds, before?, Nat.lt_of_succ_le hi]
  have hend : ∀ {i}, i ≤ text.size →
      (Look.textEnd.holds (before? text i) text[i]? = true ↔ i = text.size) := by
    intro i hi
    rw [Look.holds, Option.isNone_iff_eq_none, Array.getElem?_eq_none_iff]
    omega
  rw [occursIn_iff]
  simp only [Matches, MatchesWhole]
  constructor
  · rintro ⟨i, hi, j, k, ⟨hs, rfl⟩, l, hm, ht, rfl⟩
    obtain rfl := (hstart hi).1 hs
    obtain rfl := (hend (le_size_of_matches hm hi)).1 ht
    exact hm
  · intro h
    exact ⟨0, Nat.zero_le _, text.size, 0, ⟨(hstart (Nat.zero_le _)).2 rfl, rfl⟩, text.size, h,
      (hend (Nat.le_refl _)).2 rfl, rfl⟩

end Expr

end GrammarProfile.Pattern
