import GrammarProfile.Proofs.Placements

/-!
What permitted sequences hold of a choice group: when an exclusive group is an either/or, and when
a required one always shows.
-/
namespace GrammarProfile.Grammar

/-- A sequence holds a member of the branch. -/
def Branch.MetBy (b : Branch) (w : List String) : Prop := ∃ n ∈ b.elements, n ∈ w

instance (b : Branch) (w : List String) : Decidable (b.MetBy w) :=
  inferInstanceAs (Decidable (∃ n ∈ b.elements, n ∈ w))

theorem elements_branchesOf (items : List Particle) :
    (branchesOf items).map Branch.elements =
      (items.filter fun p => !p.mentions.isEmpty).map fun p => Text.nameSet p.mentions := by
  apply List.ext_getElem
  · simp [branchesOf]
  · intro i h h'
    simp [branchesOf]

theorem mem_branchesOf {items : List Particle} {n : String} :
    (∃ b ∈ branchesOf items, n ∈ b.elements) ↔ n ∈ Particle.mentionsOf items := by
  have hmap : (∃ b ∈ branchesOf items, n ∈ b.elements) ↔
      ∃ names ∈ (branchesOf items).map Branch.elements, n ∈ names := by
    simp
  rw [hmap, elements_branchesOf, Particle.mem_mentionsOf]
  constructor
  · rintro ⟨names, hnames, hn⟩
    obtain ⟨p, hp, rfl⟩ := List.mem_map.1 hnames
    exact ⟨p, List.mem_of_mem_filter hp, Text.mem_nameSet.1 hn⟩
  · rintro ⟨p, hp, hn⟩
    refine ⟨_, List.mem_map_of_mem (List.mem_filter.2 ⟨hp, ?_⟩), Text.mem_nameSet.2 hn⟩
    cases hm : p.mentions with
    | nil => simp [hm] at hn
    | cons a rest => rfl

namespace Particle

/-- No permitted sequence holds members of two branches of the group. -/
def EitherOr (p : Particle) (g : ChoiceGroup) : Prop :=
  ∀ w, p.Permits w → g.branches.Pairwise fun a b => ¬(a.MetBy w ∧ b.MetBy w)

/-- Some permitted sequence holds a member of the branch. -/
def Reaches (p : Particle) (b : Branch) : Prop := ∃ w, p.Permits w ∧ b.MetBy w

/-- Every permitted sequence holds a member of the group. -/
def AlwaysShows (p : Particle) (g : ChoiceGroup) : Prop :=
  ∀ w, p.Permits w → ∃ n ∈ w, g.contains n = true

/-! ## Exclusive groups -/

theorem disjoint_alternatives {items : List Particle} (h : (mentionsOf items).Nodup) :
    items.Pairwise fun p q => List.Disjoint p.mentions q.mentions := by
  induction items with
  | nil => exact .nil
  | cons p rest ih =>
      rw [mentionsOf] at h
      obtain ⟨-, hrest, hdisjoint⟩ := List.nodup_append'.1 h
      refine .cons (fun q hq n hp hn => ?_) (ih hrest)
      exact hdisjoint hp (mem_mentionsOf.2 ⟨q, hq, hn⟩)

/-- The names of one round are all from one alternative. -/
theorem not_both_of_round {items : List Particle} (h : (mentionsOf items).Nodup)
    {r : List String} (hr : PermitsSome items r) {n n' : String} (hn : n ∈ r) (hn' : n' ∈ r) :
    items.Pairwise fun p q => ¬(n ∈ p.mentions ∧ n' ∈ q.mentions) := by
  obtain ⟨p, hp, hpermits⟩ := permitsSome_iff.1 hr
  have hdisjoint := disjoint_alternatives h
  have hsymm : Std.Symm fun p q : Particle => List.Disjoint p.mentions q.mentions :=
    ⟨fun _ _ hd => hd.symm⟩
  have hsame : ∀ {q m}, q ∈ items → m ∈ r → m ∈ q.mentions → q = p := by
    intro q m hq hm hmq
    by_contra hne
    exact hdisjoint.forall hq hp hne hmq (subset_mentions p r hpermits hm)
  refine hdisjoint.imp_of_mem fun {q q'} hq hq' hd => ?_
  rintro ⟨hnq, hnq'⟩
  have heq : q = q' := (hsame hq hn hnq).trans (hsame hq' hn' hnq').symm
  exact hd hnq (heq ▸ hnq)

theorem pairwise_branchesOf {items : List Particle} {w : List String}
    (h : items.Pairwise fun p q => ∀ n n', n ∈ w → n' ∈ w → ¬(n ∈ p.mentions ∧ n' ∈ q.mentions)) :
    (branchesOf items).Pairwise fun a b => ¬(a.MetBy w ∧ b.MetBy w) := by
  have hnames : ((branchesOf items).map Branch.elements).Pairwise fun xs ys =>
      ¬((∃ n ∈ xs, n ∈ w) ∧ ∃ n ∈ ys, n ∈ w) := by
    rw [elements_branchesOf, List.pairwise_map]
    refine (h.sublist List.filter_sublist).imp fun {p q} hpq => ?_
    rintro ⟨⟨n, hn, hnw⟩, n', hn', hnw'⟩
    exact hpq n n' hnw hnw' ⟨Text.mem_nameSet.1 hn, Text.mem_nameSet.1 hn'⟩
  exact List.pairwise_map.1 hnames

/-- One round at most keeps the branches of a choice apart. -/
theorem pairwise_of_unrolls {items : List Particle} (h : (mentionsOf items).Nodup) {low : ℕ}
    {high : ℕ∞} {w : List String}
    (hw : Unrolls (PermitsSome items) (mentionsOf items) low high w) (hhigh : high ≤ 1) :
    (branchesOf items).Pairwise fun a b => ¬(a.MetBy w ∧ b.MetBy w) := by
  obtain ⟨rounds, -, hmost, hpicks, hall⟩ := hw
  have hlength : rounds.length ≤ 1 := by exact_mod_cast le_trans hmost hhigh
  apply pairwise_branchesOf
  rw [List.pairwise_iff_forall_sublist]
  intro p q hpq n n' hn hn' hboth
  have hmem : ∀ {x}, x ∈ [p, q] → x ∈ items := fun hx => hpq.subset hx
  obtain ⟨r, hr, hnr⟩ := hall n (mem_mentionsOf.2 ⟨p, hmem (by simp), hboth.1⟩) hn
  obtain ⟨r', hr', hnr'⟩ := hall n' (mem_mentionsOf.2 ⟨q, hmem (by simp), hboth.2⟩) hn'
  have hsame : r = r' := by
    match rounds, hlength, hr, hr' with
    | [x], _, hr, hr' => exact (List.mem_singleton.1 hr).trans (List.mem_singleton.1 hr').symm
  have hround := not_both_of_round h (hpicks r hr).1 hnr (hsame ▸ hnr')
  exact List.pairwise_iff_forall_sublist.1 hround hpq hboth

theorem Offers.exists_round {p : Particle} {c : Placement} (hc : p.Offers c)
    (hp : p.mentions.Nodup) {b : Branch} (hb : b ∈ branchesOf c.items) (h : p.Reaches b) :
    ∃ r, PermitsSome c.items r ∧ b.MetBy r := by
  obtain ⟨w, hw, n, hnb, hnw⟩ := h
  obtain ⟨rounds, -, -, hpicks, hall⟩ := hc.unrolls (holdsAll_of_nodup hp) hw
  obtain ⟨r, hr, hnr⟩ := hall n (mem_branchesOf.1 ⟨b, hb, hnb⟩) hnw
  exact ⟨r, (hpicks r hr).1, n, hnb, hnr⟩

/-- A choice that may be repeated mixes any two branches that can be met at all. -/
theorem Offers.mixes {p : Particle} {c : Placement} (hc : p.Offers c) (hwell : p.WellFormed)
    (hp : p.mentions.Nodup) (hmost : 2 ≤ c.most) {a b : Branch} (ha : a ∈ branchesOf c.items)
    (hb : b ∈ branchesOf c.items) (hra : p.Reaches a) (hrb : p.Reaches b) :
    ∃ w, p.Permits w ∧ a.MetBy w ∧ b.MetBy w := by
  obtain ⟨r, hr, n, hna, hnr⟩ := hc.exists_round hp ha hra
  obtain ⟨r', hr', n', hnb, hnr'⟩ := hc.exists_round hp hb hrb
  obtain ⟨w, hw, hcover⟩ := hc.covers hwell [r, r'] (by simp [hr, hr']) (by simpa using hmost)
  exact ⟨w, hw, ⟨n, hna, hcover r (by simp) hnr⟩, n', hnb, hcover r' (by simp) hnr'⟩

/-- Content, or an introduction with parts and sections. -/
def division : List Particle :=
  [.sequence .once [.element "intro" .once, .group "hierElements" ⟨Count.one, none⟩
      (.choice .once [.element "part" .once, .element "section" .once])],
    .element "content" .once]

def numberedDivision : Particle :=
  .sequence .once [.element "num" .once, .choice .once division]

theorem offers_numberedDivision {c : Placement} (h : numberedDivision.Offers c) :
    c = ⟨[.once], .once, division⟩ := by
  cases h with
  | sequence hp h =>
      simp only [List.mem_cons, List.not_mem_nil, or_false] at hp
      rcases hp with rfl | rfl
      · cases h
      · cases h
        rfl

def divisionGroup : ChoiceGroup :=
  ⟨"hierarchy:choice_0", Count.one, some Count.one, branchesOf division⟩

theorem mem_numberedDivision :
    divisionGroup ∈ choiceGroups "hierarchy" numberedDivision 0 :=
  List.mem_cons_self

/-- Any number of elements, each of them one of two. -/
def mixture : Particle :=
  .sequence ⟨Count.one, none⟩ [.choice .once [.element "a" .once, .element "b" .once]]

/-- A required group always shows if none of its alternatives, wildcards among them, may be left
empty; with ordered bounds and distinct names this is needed. -/
theorem required_always_shows (typeName : String) (p : Particle) (start : ℕ) (g : ChoiceGroup)
    (hg : g ∈ choiceGroups typeName p start) (hrequired : g.required = true) :
    ∃ c, p.Offers c ∧ g.branches = branchesOf c.items ∧
      ((∀ q ∈ c.items, ¬q.Permits []) → p.AlwaysShows g) ∧
      (p.WellFormed → p.mentions.Nodup → (p.AlwaysShows g ↔ ∀ q ∈ c.items, ¬q.Permits [])) := by
  obtain ⟨c, hc, hbranches, hmin, -⟩ := placement_of_mem_choiceGroups hg
  have hleast : 1 ≤ c.least := by
    simp only [ChoiceGroup.required, decide_eq_true_eq, hmin, Count.clamp] at hrequired
    omega
  have hcontains : ∀ {n}, g.contains n = true ↔ n ∈ mentionsOf c.items := by
    intro n
    rw [ChoiceGroup.contains_iff, hbranches, mem_branchesOf]
  have hshows : (∀ q ∈ c.items, ¬q.Permits []) → p.AlwaysShows g := by
    intro hfull w hw
    have hnone : p.HoldsAll c [] := fun n hn => absurd hn List.not_mem_nil
    obtain ⟨rounds, hlow, -, hpicks, -⟩ := hc.unrolls hnone hw
    obtain ⟨r, hr⟩ := List.exists_mem_of_length_pos (Nat.lt_of_lt_of_le hleast hlow)
    obtain ⟨hsome, hsub⟩ := hpicks r hr
    obtain ⟨q, hq, hpermits⟩ := permitsSome_iff.1 hsome
    cases r with
    | nil => exact absurd hpermits (hfull q hq)
    | cons n rest =>
        refine ⟨n, hsub List.mem_cons_self, hcontains.2 ?_⟩
        exact subset_mentionsOf_some c.items _ hsome List.mem_cons_self
  refine ⟨c, hc, hbranches, hshows, fun hwell hnodup => ⟨fun halways q hq hempty => ?_, hshows⟩⟩
  obtain ⟨w, hw, havoid⟩ :=
    hc.avoidable hwell (holdsAll_of_nodup hnodup) (permitsSome_iff.2 ⟨q, hq, hempty⟩)
  obtain ⟨n, hn, hgroup⟩ := halways w hw
  exact havoid n (hcontains.1 hgroup) hn

theorem numberedDivision_always_shows :
    divisionGroup ∈ choiceGroups "hierarchy" numberedDivision 0 ∧ divisionGroup.required = true ∧
      numberedDivision.AlwaysShows divisionGroup := by
  refine ⟨mem_numberedDivision, rfl, ?_⟩
  obtain ⟨c, hc, -, hshows, -⟩ := required_always_shows "hierarchy" numberedDivision 0 _
    mem_numberedDivision rfl
  apply hshows
  rw [offers_numberedDivision hc]
  intro q hq hempty
  simp only [division, List.mem_cons, List.not_mem_nil, or_false] at hq
  rcases hq with rfl | rfl
  · have hlow := (tight "intro" _ (by simp [WellFormed, AllWellFormed, Occurs.Ordered,
      Occurs.once])).low_le [] hempty
    simp [fewest, fewestEach, Occurs.once, Count.one] at hlow
  · have hlow := (tight "content" _ (by simp [WellFormed, Occurs.Ordered, Occurs.once])).low_le []
      hempty
    simp [fewest, Occurs.once, Count.one] at hlow

/-- One of two elements, the first of which may be left out. -/
def optionalFirst : Particle :=
  .choice .once [.element "a" ⟨Count.zero, some Count.one⟩, .element "b" .once]

theorem optionalFirst_may_be_empty : ∃ g ∈ choiceGroups "t" optionalFirst 0,
    g.required = true ∧ ¬optionalFirst.AlwaysShows g := by
  refine ⟨_, List.mem_cons_self, rfl, fun halways => ?_⟩
  have hempty : (Particle.element "a" ⟨Count.zero, some Count.one⟩).Permits [] := by
    simp only [Permits]
    exact ⟨0, ⟨Nat.le_refl _, by simp⟩, rfl⟩
  have hpermits : optionalFirst.Permits [] := by
    simp only [optionalFirst, Permits]
    refine ⟨[[]], ⟨Nat.le_refl _, by simp [Occurs.once, Count.one]⟩, ?_, rfl⟩
    intro r hr
    rw [List.mem_singleton.1 hr]
    exact .inl hempty
  obtain ⟨n, hn, -⟩ := halways _ hpermits
  exact absurd hn List.not_mem_nil

end Particle

end GrammarProfile.Grammar
