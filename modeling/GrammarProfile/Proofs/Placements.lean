import GrammarProfile.Grammar.Choice
import GrammarProfile.Proofs.Occurrences

/-!
Where the choices of a content model stand: the compositors around them, and what a permitted
sequence holds of their rounds.
-/
namespace GrammarProfile.Grammar

/-- A choice of a content model: the bounds of the compositors around it, outermost first, its own
bounds, and its alternatives. -/
structure Placement where
  around : List Occurs
  own : Occurs
  items : List Particle

namespace Placement

/-- The fewest rounds of a choice in one sequence. -/
def least (c : Placement) : ℕ := (c.around.map (·.min.val)).prod * c.own.min.val

/-- How often what is around a choice may repeat it altogether. -/
noncomputable def repeats (c : Placement) : ℕ∞ := (c.around.map Occurs.most).prod

/-- The most rounds of a choice in one sequence. -/
noncomputable def most (c : Placement) : ℕ∞ := c.repeats * c.own.most

/-- The same choice with one more compositor around it. -/
def inside (c : Placement) (o : Occurs) : Placement := { c with around := o :: c.around }

@[simp] theorem items_inside (c : Placement) (o : Occurs) : (c.inside o).items = c.items := rfl

theorem least_inside (c : Placement) (o : Occurs) : (c.inside o).least = o.min.val * c.least := by
  simp [inside, least, Nat.mul_assoc]

theorem most_inside (c : Placement) (o : Occurs) : (c.inside o).most = o.most * c.most := by
  simp [inside, most, repeats, mul_assoc]

end Placement

namespace Particle

/-- A content model offers a choice that lies in no other choice. -/
inductive Offers : Particle → Placement → Prop
  | choice {o : Occurs} {items : List Particle} : Offers (.choice o items) ⟨[], o, items⟩
  | sequence {o : Occurs} {items : List Particle} {p : Particle} {c : Placement} (hp : p ∈ items)
      (h : Offers p c) : Offers (.sequence o items) (c.inside o)
  | group {name : String} {o : Occurs} {inner : Particle} {c : Placement} (h : Offers inner c) :
      Offers (.group name o inner) (c.inside o)

/-! ## The recorded choices -/

/-- What is recorded of a choice: its alternatives, its minimum within what is around it as far as
counts go, and a maximum of one only if that is its own. -/
structure Records (enclosing : Count) (site : ChoiceSite) (c : Placement) : Prop where
  items : site.items = c.items
  min : site.minOccurs = Count.clamp (enclosing.val * c.least)
  max : site.maxOccurs = some Count.one → c.own.max = some Count.one

theorem clamp_mul_assoc (a b : Count) (n : ℕ) :
    Count.clamp ((a.mul b).val * n) = Count.clamp (a.val * (b.val * n)) := by
  rw [← Nat.mul_assoc]
  simp only [Count.mul, Count.clamp, Count.mk.injEq]
  rcases Nat.le_total (a.val * b.val) 4294967295 with h | h
  · rw [Nat.min_eq_left h]
  · rw [Nat.min_eq_right h]
    rcases Nat.eq_zero_or_pos n with hn | hn
    · rw [hn, Nat.mul_zero, Nat.mul_zero]
    · rw [Nat.min_eq_right (Nat.le_mul_of_pos_right _ hn),
        Nat.min_eq_right (Nat.le_trans h (Nat.le_mul_of_pos_right _ hn))]

theorem Records.inside {enclosing : Count} {o : Occurs} {site : ChoiceSite} {c : Placement}
    (h : Records (enclosing.mul o.min) site c) : Records enclosing site (c.inside o) := by
  refine ⟨h.items, ?_, h.max⟩
  rw [h.min, c.least_inside, clamp_mul_assoc]

theorem times_max_one {own o : Occurs} (h : (own.times o).max = some Count.one) :
    own.max = some Count.one := by
  obtain ⟨lo, hi⟩ := own
  obtain ⟨lo', hi'⟩ := o
  cases hi with
  | none =>
      cases hi' with
      | none => simp [Occurs.times] at h
      | some y =>
          simp only [Occurs.times] at h
          split at h
          · simp_all [Count.one]
          · simp at h
  | some x =>
      cases hi' with
      | none =>
          simp only [Occurs.times] at h
          split at h
          · simp_all [Count.one]
          · simp at h
      | some y =>
          have hprod : min (x.val * y.val) 4294967295 = 1 := by
            simpa [Occurs.times, Count.mul, Count.clamp, Count.one] using h
          have hone : x.val * y.val = 1 := by omega
          have hx : x = Count.one := by
            cases x with
            | mk n hn => simpa [Count.one] using Nat.eq_one_of_mul_eq_one_right hone
          rw [hx]

theorem choiceSites_group {name : String} {o : Occurs} {inner : Particle} (enclosing : Count)
    (h : ∀ own items, inner ≠ .choice own items) :
    choiceSites enclosing (.group name o inner) = choiceSites (enclosing.mul o.min) inner := by
  cases inner with
  | choice own items => exact absurd rfl (h own items)
  | _ => simp only [choiceSites]

mutual

theorem offers_of_mem_choiceSites (enclosing : Count) : ∀ (p : Particle) (site : ChoiceSite),
    site ∈ choiceSites enclosing p → ∃ c, p.Offers c ∧ Records enclosing site c
  | .element _ _, site, h => by simp [choiceSites] at h
  | .any, site, h => by simp [choiceSites] at h
  | .choice o items, site, h => by
      simp only [choiceSites, List.mem_singleton] at h
      subst h
      refine ⟨_, .choice, rfl, ?_, id⟩
      simp [Placement.least, Count.mul, Nat.mul_comm]
  | .sequence o items, site, h => by
      simp only [choiceSites] at h
      obtain ⟨p, hp, c, hc, hrecords⟩ := offers_of_mem_choiceSitesOf _ items site h
      exact ⟨_, .sequence hp hc, hrecords.inside⟩
  | .group name o inner, site, h => by
      have ih := offers_of_mem_choiceSites (enclosing.mul o.min) inner site
      by_cases hchoice : ∃ own items, inner = .choice own items
      · obtain ⟨own, items, rfl⟩ := hchoice
        simp only [choiceSites, List.mem_singleton] at h
        subst h
        refine ⟨_, .group .choice, rfl, ?_, times_max_one⟩
        have hmul := clamp_mul_assoc own.min o.min enclosing.val
        simpa [Placement.least, Placement.inside, Occurs.times, Count.mul, Nat.mul_comm,
          Nat.mul_left_comm] using hmul
      · rw [choiceSites_group enclosing fun own items e => hchoice ⟨own, items, e⟩] at h
        obtain ⟨c, hc, hrecords⟩ := ih h
        exact ⟨_, .group hc, hrecords.inside⟩

theorem offers_of_mem_choiceSitesOf (enclosing : Count) :
    ∀ (items : List Particle) (site : ChoiceSite), site ∈ choiceSitesOf enclosing items →
      ∃ p ∈ items, ∃ c, p.Offers c ∧ Records enclosing site c
  | [], site, h => by simp [choiceSitesOf] at h
  | p :: rest, site, h => by
      simp only [choiceSitesOf, List.mem_append] at h
      rcases h with h | h
      · exact ⟨p, List.mem_cons_self, offers_of_mem_choiceSites enclosing p site h⟩
      · obtain ⟨q, hq, hoffers⟩ := offers_of_mem_choiceSitesOf enclosing rest site h
        exact ⟨q, List.mem_cons_of_mem _ hq, hoffers⟩

end

theorem exists_site_of_mem_numberGroups {typeName : String} {g : ChoiceGroup} :
    ∀ {sites : List ChoiceSite} {start : ℕ}, g ∈ numberGroups typeName start sites →
      ∃ site ∈ sites, g.minOccurs = site.minOccurs ∧ g.maxOccurs = site.maxOccurs ∧
        g.branches = branchesOf site.items := by
  intro sites
  induction sites with
  | nil =>
      intro start h
      simp [numberGroups] at h
  | cons site rest ih =>
      intro start h
      have hrest : ∀ {next}, g ∈ numberGroups typeName next rest → ∃ site' ∈ site :: rest,
          g.minOccurs = site'.minOccurs ∧ g.maxOccurs = site'.maxOccurs ∧
            g.branches = branchesOf site'.items := by
        intro next hg
        obtain ⟨site', hsite, hfields⟩ := ih hg
        exact ⟨site', List.mem_cons_of_mem _ hsite, hfields⟩
      rw [numberGroups] at h
      split at h
      next => exact hrest h
      next hbranches =>
        rcases List.mem_cons.1 h with rfl | h
        · exact ⟨site, List.mem_cons_self, rfl, rfl, rfl⟩
        · exact hrest h

/-- Every group is about a choice of the content model. -/
theorem placement_of_mem_choiceGroups {typeName : String} {p : Particle} {start : ℕ}
    {g : ChoiceGroup} (hg : g ∈ choiceGroups typeName p start) :
    ∃ c, p.Offers c ∧ g.branches = branchesOf c.items ∧ g.minOccurs = Count.clamp c.least ∧
      (g.exclusive = true → c.own.max = some Count.one) := by
  obtain ⟨site, hsite, hmin, hmax, hbranches⟩ := exists_site_of_mem_numberGroups hg
  obtain ⟨c, hc, hrecords⟩ := offers_of_mem_choiceSites _ p site hsite
  refine ⟨c, hc, by rw [hbranches, hrecords.items], ?_, fun hexclusive => hrecords.max ?_⟩
  · rw [hmin, hrecords.min]
    simp [Count.one]
  · rw [← hmax]
    simpa [ChoiceGroup.exclusive] using hexclusive

/-! ## Parts of a permitted sequence -/

theorem mentionsOf_append (xs ys : List Particle) :
    mentionsOf (xs ++ ys) = mentionsOf xs ++ mentionsOf ys := by
  induction xs with
  | nil => simp [mentionsOf]
  | cons p xs ih => simp [mentionsOf, ih]

theorem mem_mentionsOf {items : List Particle} {n : String} :
    n ∈ mentionsOf items ↔ ∃ p ∈ items, n ∈ p.mentions := by
  induction items with
  | nil => simp [mentionsOf]
  | cons p rest ih => simp [mentionsOf, ih]

theorem permitsEach_append {xs ys : List Particle} {w : List String} :
    PermitsEach (xs ++ ys) w ↔ ∃ u v, w = u ++ v ∧ PermitsEach xs u ∧ PermitsEach ys v := by
  induction xs generalizing w with
  | nil =>
      simp only [List.nil_append, PermitsEach]
      constructor
      · intro h
        exact ⟨[], w, rfl, rfl, h⟩
      · rintro ⟨u, v, rfl, rfl, hv⟩
        exact hv
  | cons p xs ih =>
      simp only [List.cons_append, PermitsEach, ih]
      constructor
      · rintro ⟨u, v, rfl, hu, x, y, rfl, hx, hy⟩
        exact ⟨u ++ x, y, (List.append_assoc _ _ _).symm, ⟨u, x, rfl, hu, hx⟩, hy⟩
      · rintro ⟨u, v, rfl, ⟨x, y, rfl, hx, hy⟩, hv⟩
        exact ⟨x, y ++ v, List.append_assoc _ _ _, hx, y, v, rfl, hy, hv⟩

theorem permitsSome_iff {items : List Particle} {w : List String} :
    PermitsSome items w ↔ ∃ p ∈ items, p.Permits w := by
  induction items with
  | nil => simp [PermitsSome]
  | cons p rest ih => simp [PermitsSome, ih]

theorem allWellFormed_iff {items : List Particle} :
    AllWellFormed items ↔ ∀ p ∈ items, p.WellFormed := by
  induction items with
  | nil => simp [AllWellFormed]
  | cons p rest ih => simp [AllWellFormed, ih]

theorem mem_of_rounds {o : Occurs} {permits : List String → Prop} {names w : List String}
    (h : ∀ r, permits r → r ⊆ names) (hw : Rounds o permits w) : w ⊆ names := by
  obtain ⟨rounds, -, hr, rfl⟩ := hw
  intro n hn
  obtain ⟨r, hmem, hnr⟩ := List.mem_flatten.1 hn
  exact h r (hr r hmem) hnr

mutual

theorem subset_mentions : ∀ (p : Particle) (w : List String), p.Permits w → w ⊆ p.mentions
  | .element name o, w, h => by
      rw [Permits] at h
      obtain ⟨k, -, rfl⟩ := h
      intro n hn
      simp [mentions, List.eq_of_mem_replicate hn]
  | .sequence o items, w, h => by
      simp only [Permits] at h
      rw [mentions]
      exact mem_of_rounds (subset_mentionsOf_each items) h
  | .choice o items, w, h => by
      simp only [Permits] at h
      rw [mentions]
      exact mem_of_rounds (subset_mentionsOf_some items) h
  | .group _ o inner, w, h => by
      simp only [Permits] at h
      rw [mentions]
      exact mem_of_rounds (subset_mentions inner) h
  | .any, w, h => by
      simp only [Permits] at h
      simp [h]

theorem subset_mentionsOf_each :
    ∀ (items : List Particle) (w : List String), PermitsEach items w → w ⊆ mentionsOf items
  | [], w, h => by
      simp only [PermitsEach] at h
      simp [h]
  | p :: rest, w, h => by
      simp only [PermitsEach] at h
      obtain ⟨u, v, rfl, hu, hv⟩ := h
      rw [mentionsOf]
      intro n hn
      rcases List.mem_append.1 hn with hn | hn
      · exact List.mem_append_left _ (subset_mentions p u hu hn)
      · exact List.mem_append_right _ (subset_mentionsOf_each rest v hv hn)

theorem subset_mentionsOf_some :
    ∀ (items : List Particle) (w : List String), PermitsSome items w → w ⊆ mentionsOf items
  | [], w, h => by simp [PermitsSome] at h
  | p :: rest, w, h => by
      simp only [PermitsSome] at h
      rw [mentionsOf]
      intro n hn
      rcases h with h | h
      · exact List.mem_append_left _ (subset_mentions p w h hn)
      · exact List.mem_append_right _ (subset_mentionsOf_some rest w h hn)

end

/-! ## The rounds of a choice in a permitted sequence -/

/-- A sequence holds rounds of a choice: no fewer and no more than given, and of certain names it
holds nothing else. -/
def Unrolls (picks : List String → Prop) (names : List String) (low : ℕ) (high : ℕ∞)
    (w : List String) : Prop :=
  ∃ rounds : List (List String), low ≤ rounds.length ∧ (rounds.length : ℕ∞) ≤ high ∧
    (∀ r ∈ rounds, picks r ∧ r ⊆ w) ∧ ∀ n ∈ names, n ∈ w → ∃ r ∈ rounds, n ∈ r

section Unrolls

variable {picks permits : List String → Prop} {names u v w : List String} {low low' : ℕ}
  {high high' : ℕ∞}

theorem unrolls_absent (h : ∀ n ∈ names, n ∉ w) : Unrolls picks names 0 0 w := by
  refine ⟨[], Nat.le_refl _, le_rfl, ?_, fun n hn hw => absurd hw (h n hn)⟩
  intro r hr
  exact absurd hr List.not_mem_nil

theorem unrolls_single (h : picks w) : Unrolls picks names 1 1 w := by
  refine ⟨[w], Nat.le_refl _, le_rfl, ?_, fun n _ hw => ⟨w, List.mem_singleton_self _, hw⟩⟩
  intro r hr
  rw [List.mem_singleton.1 hr]
  exact ⟨h, List.Subset.refl _⟩

theorem Unrolls.append (hu : Unrolls picks names low high u)
    (hv : Unrolls picks names low' high' v) :
    Unrolls picks names (low + low') (high + high') (u ++ v) := by
  obtain ⟨rs, hlow, hhigh, hpicks, hall⟩ := hu
  obtain ⟨rs', hlow', hhigh', hpicks', hall'⟩ := hv
  refine ⟨rs ++ rs', ?_, ?_, ?_, ?_⟩
  · rw [List.length_append]
    omega
  · rw [List.length_append]
    push_cast
    exact add_le_add hhigh hhigh'
  · intro r hr
    rcases List.mem_append.1 hr with hr | hr
    · exact ⟨(hpicks r hr).1, fun n hn => List.mem_append_left _ ((hpicks r hr).2 hn)⟩
    · exact ⟨(hpicks' r hr).1, fun n hn => List.mem_append_right _ ((hpicks' r hr).2 hn)⟩
  · intro n hn hw
    rcases List.mem_append.1 hw with hw | hw
    · obtain ⟨r, hr, hnr⟩ := hall n hn hw
      exact ⟨r, List.mem_append_left _ hr, hnr⟩
    · obtain ⟨r, hr, hnr⟩ := hall' n hn hw
      exact ⟨r, List.mem_append_right _ hr, hnr⟩

theorem unrolls_flatten (rs : List (List String))
    (h : ∀ r ∈ rs, Unrolls picks names low high r) :
    Unrolls picks names (rs.length * low) (rs.length * high) rs.flatten := by
  induction rs with
  | nil =>
      have hnone : Unrolls picks names 0 0 [] := unrolls_absent fun _ _ => List.not_mem_nil
      simpa using hnone
  | cons r rest ih =>
      have hfirst := h r List.mem_cons_self
      have hrest := ih fun x hx => h x (List.mem_cons_of_mem _ hx)
      rw [List.length_cons, List.flatten_cons, Nat.succ_mul, Nat.cast_succ, add_mul, one_mul,
        Nat.add_comm, add_comm (_ * high)]
      exact hfirst.append hrest

theorem unrolls_rounds {o : Occurs} (h : ∀ r, permits r → Unrolls picks names low high r)
    (hw : Rounds o permits w) : Unrolls picks names (o.min.val * low) (o.most * high) w := by
  obtain ⟨rs, hadmits, hr, rfl⟩ := hw
  obtain ⟨hmin, hmax⟩ := Occurs.admits_iff.1 hadmits
  obtain ⟨rounds, hlow, hhigh, hrest⟩ := unrolls_flatten rs fun r hmem => h r (hr r hmem)
  exact ⟨rounds, Nat.le_trans (Nat.mul_le_mul_right _ hmin) hlow,
    le_trans hhigh (mul_le_mul_left hmax high), hrest⟩

end Unrolls

/-- A choice holds every mention of the names. -/
def HoldsAll (p : Particle) (c : Placement) (names : List String) : Prop :=
  ∀ n ∈ names, p.mentions.count n ≤ (mentionsOf c.items).count n

theorem Offers.sublist_mentions {p : Particle} {c : Placement} (h : p.Offers c) :
    (mentionsOf c.items).Sublist p.mentions := by
  induction h with
  | choice => rw [mentions]
  | @sequence o items p c hp _ ih =>
      obtain ⟨xs, ys, rfl⟩ := List.append_of_mem hp
      rw [mentions, mentionsOf_append, mentionsOf]
      exact (ih.trans (List.sublist_append_left _ _)).trans (List.sublist_append_right _ _)
  | group _ ih =>
      rw [mentions]
      exact ih

theorem holdsAll_of_nodup {p : Particle} {c : Placement} (hp : p.mentions.Nodup) :
    p.HoldsAll c (mentionsOf c.items) := by
  intro n hn
  exact Nat.le_trans (List.nodup_iff_count_le_one.1 hp n) (List.count_pos_iff.2 hn)

/-- A choice that holds every mention within a sequence leaves none to what is beside it. -/
theorem HoldsAll.beside {o : Occurs} {xs ys : List Particle} {p : Particle} {c : Placement}
    {names : List String} (hc : p.Offers c)
    (h : (Particle.sequence o (xs ++ p :: ys)).HoldsAll (c.inside o) names) :
    p.HoldsAll c names ∧ ∀ n ∈ names, n ∉ mentionsOf xs ∧ n ∉ mentionsOf ys := by
  have hsplit : ∀ n ∈ names, (mentionsOf xs).count n + (p.mentions.count n +
      (mentionsOf ys).count n) ≤ (mentionsOf c.items).count n := by
    intro n hn
    simpa [mentions, mentionsOf_append, mentionsOf] using h n hn
  refine ⟨fun n hn => ?_, fun n hn => ?_⟩
  · have := hsplit n hn
    omega
  · have := hsplit n hn
    have hle := hc.sublist_mentions.count_le n
    constructor <;> rw [← List.count_eq_zero] <;> omega

/-- A permitted sequence holds as many rounds of a choice as the bounds say. -/
theorem Offers.unrolls {p : Particle} {c : Placement} (h : p.Offers c) {names w : List String}
    (hall : p.HoldsAll c names) (hw : p.Permits w) :
    Unrolls (PermitsSome c.items) names c.least c.most w := by
  induction h generalizing w with
  | @choice o items =>
      simp only [Permits] at hw
      simpa [Placement.least, Placement.most, Placement.repeats] using
        unrolls_rounds (fun r hr => unrolls_single hr) hw
  | @sequence o items p c hp hc ih =>
      obtain ⟨xs, ys, rfl⟩ := List.append_of_mem hp
      obtain ⟨hinner, hbeside⟩ := hall.beside hc
      simp only [Permits] at hw
      rw [c.least_inside, c.most_inside]
      refine unrolls_rounds (fun r hr => ?_) hw
      obtain ⟨u, x, rfl, hu, hx⟩ := permitsEach_append.1 hr
      rw [PermitsEach] at hx
      obtain ⟨v, y, rfl, hv, hy⟩ := hx
      have hleft : Unrolls (PermitsSome c.items) names 0 0 u := unrolls_absent fun n hn hnu =>
        (hbeside n hn).1 (subset_mentionsOf_each xs u hu hnu)
      have hright : Unrolls (PermitsSome c.items) names 0 0 y := unrolls_absent fun n hn hny =>
        (hbeside n hn).2 (subset_mentionsOf_each ys y hy hny)
      simpa using hleft.append ((ih hinner hv).append hright)
  | @group name o inner c hc ih =>
      simp only [Permits] at hw
      rw [c.least_inside, c.most_inside]
      refine unrolls_rounds (fun r hr => ih ?_ hr) hw
      simpa [HoldsAll, mentions] using hall

/-! ## Sequences with given rounds -/

theorem exists_permitsEach {items : List Particle} (h : AllWellFormed items) :
    ∃ w, PermitsEach items w := by
  obtain ⟨w, hw, -⟩ := (tightEach "" items h).low_met
  exact ⟨w, hw⟩

/-- What is beside a part of a sequence can be had. -/
theorem wellFormed_beside {xs ys : List Particle} {p : Particle}
    (h : AllWellFormed (xs ++ p :: ys)) :
    p.WellFormed ∧ (∃ u, PermitsEach xs u) ∧ ∃ v, PermitsEach ys v := by
  rw [allWellFormed_iff, List.forall_mem_append, List.forall_mem_cons] at h
  obtain ⟨hxs, hp, hys⟩ := h
  exact ⟨hp, exists_permitsEach (allWellFormed_iff.2 hxs),
    exists_permitsEach (allWellFormed_iff.2 hys)⟩

/-- Rounds of a choice, up to a number of them, can be had in one permitted sequence. -/
def Covers (permits picks : List String → Prop) (high : ℕ∞) : Prop :=
  ∀ rs : List (List String), (∀ r ∈ rs, picks r) → (rs.length : ℕ∞) ≤ high →
    ∃ w, permits w ∧ ∀ r ∈ rs, r ⊆ w

section Covers

variable {permits picks : List String → Prop} {high : ℕ∞}

theorem Covers.blocks (h : Covers permits picks high) {j : ℕ} (hj : (j : ℕ∞) ≤ high) (i : ℕ) :
    ∀ rs : List (List String), (∀ r ∈ rs, picks r) → rs.length ≤ i * j →
      ∃ ws : List (List String), ws.length = i ∧ (∀ w ∈ ws, permits w) ∧
        ∀ r ∈ rs, ∃ w ∈ ws, r ⊆ w := by
  induction i with
  | zero =>
      intro rs _ hlength
      have hnil : rs = [] := List.eq_nil_of_length_eq_zero (by omega)
      exact ⟨[], rfl, by simp, by simp [hnil]⟩
  | succ i ih =>
      intro rs hrs hlength
      have htake : ((rs.take j).length : ℕ∞) ≤ high := by
        refine le_trans ?_ hj
        exact_mod_cast List.length_take_le j rs
      obtain ⟨w, hw, hcover⟩ := h (rs.take j) (fun r hr => hrs r (List.mem_of_mem_take hr)) htake
      have hdrop : (rs.drop j).length ≤ i * j := by
        rw [List.length_drop]
        rw [Nat.succ_mul] at hlength
        omega
      obtain ⟨ws, hws, hpermits, hrest⟩ :=
        ih (rs.drop j) (fun r hr => hrs r (List.mem_of_mem_drop hr)) hdrop
      refine ⟨w :: ws, by rw [List.length_cons, hws], ?_, ?_⟩
      · intro x hx
        rcases List.mem_cons.1 hx with rfl | hx
        · exact hw
        · exact hpermits x hx
      · intro r hr
        rw [← List.take_append_drop j rs] at hr
        rcases List.mem_append.1 hr with hr | hr
        · exact ⟨w, List.mem_cons_self, hcover r hr⟩
        · obtain ⟨x, hx, hsub⟩ := hrest r hr
          exact ⟨x, List.mem_cons_of_mem _ hx, hsub⟩

/-- Repetition multiplies how many rounds can be had; rounds that are missing for the minimum are
filled up with any permitted sequence. -/
theorem Covers.rounds {o : Occurs} (ho : o.Ordered) (h : Covers permits picks high) :
    Covers (Rounds o permits) picks (o.most * high) := by
  intro rs hrs hlength
  obtain ⟨i, j, hi, hj, hij⟩ := Tight.exists_factors hlength
  obtain ⟨ws, hws, hpermits, hcover⟩ := h.blocks hj i rs hrs hij
  obtain ⟨filler, hfiller, -⟩ := h [] (by simp) (by simp)
  refine ⟨(ws ++ List.replicate (o.min.val - i) filler).flatten, ⟨_, ?_, ?_, rfl⟩, ?_⟩
  · have hmax : (ws ++ List.replicate (o.min.val - i) filler).length = max i o.min.val := by
      simp only [List.length_append, List.length_replicate]
      omega
    rw [hmax]
    exact ho.admits_max hi
  · intro r hr
    rcases List.mem_append.1 hr with hr | hr
    · exact hpermits r hr
    · exact List.eq_of_mem_replicate hr ▸ hfiller
  · intro r hr n hn
    obtain ⟨w, hw, hsub⟩ := hcover r hr
    exact List.mem_flatten.2 ⟨w, List.mem_append_left _ hw, hsub hn⟩

theorem covers_one (h : ∃ w, picks w) : Covers picks picks 1 := by
  intro rs hrs hlength
  cases rs with
  | nil =>
      obtain ⟨w, hw⟩ := h
      exact ⟨w, hw, by simp⟩
  | cons r rest =>
      have hrest : rest = [] := by
        refine List.eq_nil_of_length_eq_zero ?_
        rw [List.length_cons] at hlength
        have : rest.length + 1 ≤ 1 := by exact_mod_cast hlength
        omega
      subst hrest
      exact ⟨r, hrs r List.mem_cons_self, by simp⟩

end Covers

/-- As many rounds of a choice as its bounds allow can be had in one permitted sequence. -/
theorem Offers.covers {p : Particle} {c : Placement} (h : p.Offers c) (hp : p.WellFormed) :
    Covers p.Permits (PermitsSome c.items) c.most := by
  induction h with
  | @choice o items =>
      simp only [WellFormed] at hp
      obtain ⟨w, hw, -⟩ := (tightSome "" items hp.2.1 hp.2.2).low_met
      simpa [Permits, Placement.most, Placement.repeats] using (covers_one ⟨w, hw⟩).rounds hp.1
  | @sequence o items p c hmem hc ih =>
      simp only [WellFormed] at hp
      obtain ⟨xs, ys, rfl⟩ := List.append_of_mem hmem
      obtain ⟨hinner, ⟨u, hu⟩, v, hv⟩ := wellFormed_beside hp.2
      have heach : Covers (PermitsEach (xs ++ p :: ys)) (PermitsSome c.items) c.most := by
        intro rs hrs hlength
        obtain ⟨w, hw, hcover⟩ := ih hinner rs hrs hlength
        refine ⟨u ++ (w ++ v), permitsEach_append.2 ⟨u, w ++ v, rfl, hu, ?_⟩, ?_⟩
        · exact ⟨w, v, rfl, hw, hv⟩
        · intro r hr n hn
          exact List.mem_append_right _ (List.mem_append_left _ (hcover r hr hn))
      rw [c.most_inside]
      simpa only [Permits, Placement.items_inside] using heach.rounds hp.1
  | @group name o inner c hc ih =>
      simp only [WellFormed] at hp
      rw [c.most_inside]
      simpa only [Permits, Placement.items_inside] using (ih hp.2).rounds hp.1

/-! ## Sequences without a choice -/

theorem rounds_replicate {o : Occurs} (ho : o.Ordered) {permits : List String → Prop}
    {w : List String} (hw : permits w) :
    Rounds o permits (List.replicate o.min.val w).flatten := by
  refine ⟨_, ?_, fun r hr => List.eq_of_mem_replicate hr ▸ hw, rfl⟩
  rw [List.length_replicate]
  exact Occurs.admits_iff.2 ⟨Nat.le_refl _, ho.min_le_most⟩

theorem not_mem_replicate_flatten {w : List String} {n : String} (h : n ∉ w) (k : ℕ) :
    n ∉ (List.replicate k w).flatten := by
  intro hn
  obtain ⟨r, hr, hnr⟩ := List.mem_flatten.1 hn
  exact h (List.eq_of_mem_replicate hr ▸ hnr)

/-- With an alternative that may be left empty, a choice need not show in a permitted sequence. -/
theorem Offers.avoidable {p : Particle} {c : Placement} (h : p.Offers c) (hp : p.WellFormed)
    {names : List String} (hall : p.HoldsAll c names) (hempty : PermitsSome c.items []) :
    ∃ w, p.Permits w ∧ ∀ n ∈ names, n ∉ w := by
  induction h with
  | @choice o items =>
      simp only [WellFormed] at hp
      refine ⟨(List.replicate o.min.val []).flatten, ?_, fun n _ =>
        not_mem_replicate_flatten List.not_mem_nil _⟩
      simpa only [Permits] using rounds_replicate hp.1 hempty
  | @sequence o items p c hmem hc ih =>
      simp only [WellFormed] at hp
      obtain ⟨xs, ys, rfl⟩ := List.append_of_mem hmem
      obtain ⟨hwell, ⟨u, hu⟩, v, hv⟩ := wellFormed_beside hp.2
      obtain ⟨hinner, hbeside⟩ := hall.beside hc
      obtain ⟨w, hw, havoid⟩ := ih hwell hinner hempty
      have heach : PermitsEach (xs ++ p :: ys) (u ++ (w ++ v)) :=
        permitsEach_append.2 ⟨u, w ++ v, rfl, hu, w, v, rfl, hw, hv⟩
      refine ⟨(List.replicate o.min.val (u ++ (w ++ v))).flatten, ?_, fun n hn =>
        not_mem_replicate_flatten ?_ _⟩
      · simpa only [Permits] using rounds_replicate hp.1 heach
      · intro hmem
        rcases List.mem_append.1 hmem with hnu | hmem
        · exact (hbeside n hn).1 (subset_mentionsOf_each xs u hu hnu)
        · rcases List.mem_append.1 hmem with hnw | hnv
          · exact havoid n hn hnw
          · exact (hbeside n hn).2 (subset_mentionsOf_each ys v hv hnv)
  | @group name o inner c hc ih =>
      simp only [WellFormed] at hp
      have hinner : inner.HoldsAll c names := by simpa [HoldsAll, mentions] using hall
      obtain ⟨w, hw, havoid⟩ := ih hp.2 hinner hempty
      refine ⟨(List.replicate o.min.val w).flatten, ?_, fun n hn =>
        not_mem_replicate_flatten (havoid n hn) _⟩
      simpa only [Permits] using rounds_replicate hp.1 hw

end Particle

end GrammarProfile.Grammar
