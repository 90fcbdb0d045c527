import GrammarProfile.Proofs.GroupNumbers

/-!
The groups that are collected from a content model, exactly: one for each choice that lies in no
other choice and has an element below it, in document order.
-/
namespace GrammarProfile.Grammar

variable {typeName : String} {enclosing : Count} {start : ℕ}

/-! ## Collecting with a counter -/

/-- The sites that have a branch are numbered one after the other. -/
theorem numberGroups_eq (typeName : String) (sites : List ChoiceSite) (start : ℕ) :
    numberGroups typeName start sites =
      (sites.filter fun s => !(branchesOf s.items).isEmpty).mapIdx fun k s =>
        ⟨groupIdOf typeName (start + k), s.minOccurs, s.maxOccurs, branchesOf s.items⟩ := by
  induction sites generalizing start with
  | nil => rfl
  | cons site rest ih =>
      rw [numberGroups, List.filter_cons]
      cases hbranches : branchesOf site.items with
      | nil => exact ih start
      | cons b bs =>
          dsimp only
          rw [ih, List.isEmpty_cons, Bool.not_false, if_pos rfl, List.mapIdx_cons, hbranches]
          simp only [Nat.add_assoc, Nat.add_comm 1]
          rfl

theorem numberGroups_append (a b : List ChoiceSite) :
    numberGroups typeName start (a ++ b) = numberGroups typeName start a ++
      numberGroups typeName (start + (numberGroups typeName start a).length) b := by
  simp only [numberGroups_eq, List.filter_append, List.mapIdx_append, List.length_mapIdx]
  simp only [Nat.add_comm, Nat.add_left_comm]

/-- A step numbers the groups of given sites and leaves the number after them. -/
def Numbers (typeName : String) (start : ℕ) (sites : List ChoiceSite)
    (step : StateM ℕ (List ChoiceGroup)) : Prop :=
  After step start fun groups next =>
    groups = numberGroups typeName start sites ∧ next = start + groups.length

theorem numbers_nil : Numbers typeName start [] (pure []) := .pure ⟨rfl, rfl⟩

theorem numbers_takeGroup (site : ChoiceSite) :
    Numbers typeName start [site] (takeGroup typeName site) := by
  unfold Numbers takeGroup numberGroups
  cases branchesOf site.items with
  | nil => exact .pure ⟨rfl, rfl⟩
  | cons b bs => exact ⟨rfl, rfl⟩

namespace Particle

mutual

/-- A counter carried along the walk numbers the groups as if their sites were found first. -/
theorem numbers_collect (enclosing : Count) : ∀ (p : Particle) (start : ℕ),
    Numbers typeName start (p.choiceSites enclosing) (p.collect typeName enclosing)
  | .element _ _, _ => by
      simp only [collect, choiceSites]
      exact numbers_nil
  | .any, _ => by
      simp only [collect, choiceSites]
      exact numbers_nil
  | .sequence o items, start => by
      simp only [collect, choiceSites]
      exact numbers_collectAll (enclosing.mul o.min) items start
  | .choice o items, start => by
      simp only [collect, choiceSites]
      exact numbers_takeGroup _
  | .group name o inner, start => by
      have ih := numbers_collect (enclosing.mul o.min) inner start
      cases inner with
      | choice own items =>
          simp only [collect, choiceSites]
          exact numbers_takeGroup _
      | _ => simpa only [collect, choiceSites] using ih

theorem numbers_collectAll (enclosing : Count) : ∀ (items : List Particle) (start : ℕ),
    Numbers typeName start (choiceSitesOf enclosing items) (collectAll typeName enclosing items)
  | [], _ => by
      simp only [collectAll, choiceSitesOf]
      exact numbers_nil
  | p :: rest, start => by
      simp only [collectAll, choiceSitesOf]
      refine (numbers_collect enclosing p start).bind ?_
      rintro groups _ ⟨rfl, rfl⟩
      refine (numbers_collectAll enclosing rest _).bind ?_
      rintro more _ ⟨rfl, rfl⟩
      refine .pure ⟨numberGroups_append _ _ |>.symm, ?_⟩
      rw [List.length_append, Nat.add_assoc]

end

/-! ## Addresses -/

/-- The particles directly inside one, in order. -/
def parts : Particle → List Particle
  | .element _ _ => []
  | .sequence _ items => items
  | .choice _ items => items
  | .group _ _ inner => [inner]
  | .any => []

/-- The bounds written at a particle; a wildcard has none and counts once. -/
def bounds : Particle → Occurs
  | .element _ o => o
  | .sequence o _ => o
  | .choice o _ => o
  | .group _ o _ => o
  | .any => .once

def IsChoice : Particle → Prop
  | .choice _ _ => True
  | _ => False

/-- An address leads from a particle to one inside it, past those around that one, which are listed
from the outermost. -/
inductive Leads : Particle → List ℕ → List Particle → Particle → Prop
  | here {p : Particle} : Leads p [] [] p
  | inside {p q r : Particle} {i : ℕ} {address : List ℕ} {around : List Particle}
      (hq : p.parts[i]? = some q) (h : Leads q address around r) :
      Leads p (i :: address) (p :: around) r

/-- An element of a name stands somewhere in a particle. -/
def Names (p : Particle) (n : String) : Prop :=
  ∃ address around o, p.Leads address around (.element n o)

/-- Some element stands somewhere in a particle. -/
def Named (p : Particle) : Prop := ∃ n, p.Names n

theorem names_element {m n : String} {o : Occurs} : (Particle.element m o).Names n ↔ m = n := by
  constructor
  · rintro ⟨address, around, o', h⟩
    cases h with
    | here => rfl
    | inside hq _ => cases hq
  · rintro rfl
    exact ⟨[], [], o, .here⟩

theorem names_iff_parts {p : Particle} (hp : ∀ m o, p ≠ .element m o) {n : String} :
    p.Names n ↔ ∃ q ∈ p.parts, q.Names n := by
  constructor
  · rintro ⟨address, around, o, h⟩
    cases h with
    | here => exact absurd rfl (hp n o)
    | inside hq h => exact ⟨_, List.mem_of_getElem? hq, _, _, o, h⟩
  · rintro ⟨q, hq, address, around, o, h⟩
    obtain ⟨i, hi⟩ := List.mem_iff_getElem?.1 hq
    exact ⟨i :: address, p :: around, o, .inside hi h⟩

mutual

/-- The mentions of a content model are the names of the elements that stand in it. -/
theorem mem_mentions_iff {n : String} : ∀ p : Particle, n ∈ p.mentions ↔ p.Names n
  | .element m o => by rw [mentions, names_element, List.mem_singleton, eq_comm]
  | .sequence o items => by
      rw [mentions, names_iff_parts (fun _ _ h => Particle.noConfusion h)]
      exact mem_mentionsOf_iff items
  | .choice o items => by
      rw [mentions, names_iff_parts (fun _ _ h => Particle.noConfusion h)]
      exact mem_mentionsOf_iff items
  | .group name o inner => by
      rw [mentions, names_iff_parts (fun _ _ h => Particle.noConfusion h), mem_mentions_iff inner]
      exact ⟨fun h => ⟨inner, List.mem_singleton_self _, h⟩, fun ⟨_, hq, h⟩ => List.mem_singleton.1 hq ▸ h⟩
  | .any => by
      rw [mentions, names_iff_parts (fun _ _ h => Particle.noConfusion h)]
      simp [parts]

theorem mem_mentionsOf_iff {n : String} : ∀ items : List Particle,
    n ∈ mentionsOf items ↔ ∃ q ∈ items, q.Names n
  | [] => by simp [mentionsOf]
  | p :: rest => by
      rw [mentionsOf, List.mem_append, mem_mentions_iff p, mem_mentionsOf_iff rest,
        List.exists_mem_cons_iff]

end

theorem named_iff {p : Particle} : p.Named ↔ p.mentions ≠ [] := by
  constructor
  · rintro ⟨n, hn⟩
    exact List.ne_nil_of_mem ((mem_mentions_iff p).2 hn)
  · intro h
    obtain ⟨n, hn⟩ := List.exists_mem_of_ne_nil _ h
    exact ⟨n, (mem_mentions_iff p).1 hn⟩

instance : DecidablePred Named := fun _ => decidable_of_iff _ named_iff.symm

end Particle

/-! ## Outermost choices -/

/-- A choice inside a particle: its address, what is around it from the outermost, its own bounds
and its alternatives. -/
structure ChoiceNode where
  address : List ℕ
  around : List Particle
  own : Occurs
  items : List Particle

namespace ChoiceNode

/-- The same choice seen from a particle around it. -/
def within (c : ChoiceNode) (p : Particle) (i : ℕ) : ChoiceNode :=
  { c with address := i :: c.address, around := p :: c.around }

/-- The minimums of the choice and of all that is around it, multiplied. -/
def least (c : ChoiceNode) : ℕ := (c.around.map (·.bounds.min.val)).prod * c.own.min.val

/-- The bounds of a group reference whose content is the choice. -/
def reference? (c : ChoiceNode) : Option Occurs :=
  match c.around.getLast? with
  | some (.group _ o _) => some o
  | _ => none

/-- The maximum of the choice, multiplied by that of a reference to it. -/
noncomputable def most (c : ChoiceNode) : ℕ∞ :=
  c.own.most * ((c.reference?.map Occurs.most).getD 1)

end ChoiceNode

namespace Particle

/-- A choice inside a particle that lies in no other one. -/
structure Outermost (p : Particle) (c : ChoiceNode) : Prop where
  leads : p.Leads c.address c.around (.choice c.own c.items)
  outer : ∀ q ∈ c.around, ¬q.IsChoice

mutual

/-- The outermost choices of a content model, in document order. -/
def outerChoices : Particle → List ChoiceNode
  | .element _ _ => []
  | .any => []
  | .choice own items => [⟨[], [], own, items⟩]
  | .sequence o items => outerChoicesOf (.sequence o items) 0 items
  | .group name o inner => (outerChoices inner).map (·.within (.group name o inner) 0)

/-- Those of parts that begin with the `i`th of `p`. -/
def outerChoicesOf (p : Particle) (i : ℕ) : List Particle → List ChoiceNode
  | [] => []
  | q :: rest => (outerChoices q).map (·.within p i) ++ outerChoicesOf p (i + 1) rest

end

theorem mem_outerChoicesOf {p : Particle} {c : ChoiceNode} {items : List Particle} {i : ℕ} :
    c ∈ outerChoicesOf p i items ↔
      ∃ (k : ℕ) (q : Particle), items[k]? = some q ∧ ∃ c' ∈ q.outerChoices, c'.within p (i + k) = c := by
  induction items generalizing i with
  | nil => simp [outerChoicesOf]
  | cons q rest ih =>
      rw [outerChoicesOf, List.mem_append, List.mem_map, ih]
      constructor
      · rintro (⟨c', hc', rfl⟩ | ⟨k, r, hr, c', hc', rfl⟩)
        · exact ⟨0, q, rfl, c', hc', rfl⟩
        · exact ⟨k + 1, r, hr, c', hc', by rw [Nat.add_assoc, Nat.add_comm 1]⟩
      · rintro ⟨k, r, hr, c', hc', rfl⟩
        cases k with
        | zero =>
            cases hr
            exact .inl ⟨c', hc', rfl⟩
        | succ k => exact .inr ⟨k, r, hr, c', hc', by rw [Nat.add_assoc, Nat.add_comm 1]⟩

theorem mem_outerChoices_inside {p : Particle} (hp : ¬p.IsChoice) {c : ChoiceNode} :
    c ∈ p.outerChoices ↔ ∃ (k : ℕ) (q : Particle), p.parts[k]? = some q ∧
      ∃ c' ∈ q.outerChoices, c'.within p k = c := by
  cases p with
  | element m o => simp [outerChoices, parts]
  | any => simp [outerChoices, parts]
  | choice own items => exact absurd trivial hp
  | sequence o items =>
      rw [outerChoices, mem_outerChoicesOf]
      simp only [Nat.zero_add, parts]
  | group name o inner =>
      rw [outerChoices, List.mem_map]
      constructor
      · rintro ⟨c', hc', rfl⟩
        exact ⟨0, inner, rfl, c', hc', rfl⟩
      · rintro ⟨k, q, hq, c', hc', rfl⟩
        cases k with
        | zero =>
            cases hq
            exact ⟨c', hc', rfl⟩
        | succ k => cases hq

theorem outermost_of_mem (address : List ℕ) : ∀ (p : Particle) (c : ChoiceNode),
    c.address = address → c ∈ p.outerChoices → p.Outermost c := by
  induction address with
  | nil =>
      intro p c haddress hc
      by_cases hp : p.IsChoice
      · cases p with
        | choice own items =>
            rw [outerChoices, List.mem_singleton] at hc
            subst hc
            exact ⟨.here, fun q hq => absurd hq List.not_mem_nil⟩
        | _ => exact absurd hp id
      · obtain ⟨k, q, -, c', -, rfl⟩ := (mem_outerChoices_inside hp).1 hc
        cases haddress
  | cons i rest ih =>
      intro p c haddress hc
      by_cases hp : p.IsChoice
      · cases p with
        | choice own items =>
            rw [outerChoices, List.mem_singleton] at hc
            subst hc
            cases haddress
        | _ => exact absurd hp id
      · obtain ⟨k, q, hq, c', hc', rfl⟩ := (mem_outerChoices_inside hp).1 hc
        obtain ⟨hleads, houter⟩ := ih q c' (List.cons.inj haddress).2 hc'
        refine ⟨.inside hq hleads, fun r hr => ?_⟩
        obtain rfl | hr := List.mem_cons.1 hr
        · exact hp
        · exact houter r hr

theorem Leads.mem_outerChoices {p r : Particle} {address : List ℕ} {around : List Particle}
    (h : p.Leads address around r) {own : Occurs} {items : List Particle}
    (hr : r = .choice own items) (houter : ∀ q ∈ around, ¬q.IsChoice) :
    ⟨address, around, own, items⟩ ∈ p.outerChoices := by
  induction h with
  | here =>
      subst hr
      exact List.mem_singleton.2 rfl
  | inside hq _ ih =>
      have hp := houter _ List.mem_cons_self
      exact (mem_outerChoices_inside hp).2
        ⟨_, _, hq, _, ih hr fun q hq => houter q (List.mem_cons_of_mem _ hq), rfl⟩

theorem mem_outerChoices_iff {p : Particle} {c : ChoiceNode} :
    c ∈ p.outerChoices ↔ p.Outermost c :=
  ⟨outermost_of_mem c.address p c rfl, fun h => h.leads.mem_outerChoices rfl h.outer⟩

mutual

/-- The outermost choices are listed in document order. -/
theorem pairwise_outerChoices : ∀ p : Particle,
    p.outerChoices.Pairwise fun a b => a.address < b.address
  | .element _ _ => .nil
  | .any => .nil
  | .choice own items => List.pairwise_singleton _ _
  | .sequence o items => pairwise_outerChoicesOf (.sequence o items) 0 items
  | .group name o inner => by
      rw [outerChoices, List.pairwise_map]
      exact (pairwise_outerChoices inner).imp fun h => List.cons_lt_cons_iff.2 (.inr ⟨rfl, h⟩)

theorem pairwise_outerChoicesOf (p : Particle) (i : ℕ) : ∀ items : List Particle,
    (outerChoicesOf p i items).Pairwise fun a b => a.address < b.address
  | [] => .nil
  | q :: rest => by
      rw [outerChoicesOf, List.pairwise_append, List.pairwise_map]
      refine ⟨(pairwise_outerChoices q).imp fun h => List.cons_lt_cons_iff.2 (.inr ⟨rfl, h⟩),
        pairwise_outerChoicesOf p (i + 1) rest, fun a ha b hb => ?_⟩
      obtain ⟨a', -, rfl⟩ := List.mem_map.1 ha
      obtain ⟨k, r, -, b', -, rfl⟩ := mem_outerChoicesOf.1 hb
      exact List.cons_lt_cons_iff.2 (.inl (by omega))

end

/-! ## What is recorded of an outermost choice -/

end Particle

theorem Occurs.times_min (a outer : Occurs) :
    (a.times outer).min = Count.clamp (a.min.val * outer.min.val) := rfl

namespace ChoiceNode

/-- The own bounds of the choice, multiplied by those of a reference to it. -/
def limits (c : ChoiceNode) : Occurs :=
  match c.reference? with
  | some o => c.own.times o
  | none => c.own

/-- What is recorded of a choice inside compositors whose minimums come to `enclosing`. -/
def site (enclosing : Count) (c : ChoiceNode) : ChoiceSite :=
  ⟨Count.clamp (enclosing.val * c.least), c.limits.max, c.items⟩

theorem reference?_within {c : ChoiceNode} {p : Particle} {i : ℕ} (h : c.around ≠ []) :
    (c.within p i).reference? = c.reference? := by
  unfold reference? within
  rw [List.getLast?_cons_of_ne_nil h]

theorem reference?_within_sequence {c : ChoiceNode} {o : Occurs} {items : List Particle} {i : ℕ} :
    (c.within (.sequence o items) i).reference? = c.reference? := by
  by_cases h : c.around = []
  · unfold reference? within
    rw [h]
    rfl
  · exact reference?_within h

theorem site_within {c : ChoiceNode} {p : Particle} {i : ℕ} {enclosing : Count}
    (h : (c.within p i).reference? = c.reference?) :
    (c.within p i).site enclosing = c.site (enclosing.mul p.bounds.min) := by
  have hleast : (c.within p i).least = p.bounds.min.val * c.least := by
    simp only [least, within, List.map_cons, List.prod_cons, Nat.mul_assoc]
  have hlimits : (c.within p i).limits = c.limits := by
    unfold limits
    rw [h]
    rfl
  unfold site
  rw [hleast, hlimits, Particle.clamp_mul_assoc]
  rfl

theorem clamps (c : ChoiceNode) :
    Clamps ⟨Count.clamp c.least, c.limits.max⟩ c.least c.most := by
  refine ⟨rfl, ?_⟩
  unfold limits most
  cases c.reference? with
  | none => simpa using (Clamps.self c.own).max_eq
  | some o => exact ((Clamps.self c.own).times o).max_eq

end ChoiceNode

namespace Particle

theorem around_ne_nil {p : Particle} (hp : ¬p.IsChoice) {c : ChoiceNode} (hc : c ∈ p.outerChoices) :
    c.around ≠ [] := by
  obtain ⟨k, q, -, c', -, rfl⟩ := (mem_outerChoices_inside hp).1 hc
  exact List.cons_ne_nil _ _

mutual

/-- The recorded sites are those of the outermost choices. -/
theorem choiceSites_eq (enclosing : Count) : ∀ p : Particle,
    p.choiceSites enclosing = p.outerChoices.map (ChoiceNode.site enclosing)
  | .element _ _ => rfl
  | .any => rfl
  | .choice own items => by
      simp only [choiceSites, outerChoices, List.map_cons, List.map_nil, ChoiceNode.site,
        ChoiceNode.least, ChoiceNode.limits, ChoiceNode.reference?, List.getLast?_nil, Count.mul,
        List.prod_nil, Nat.one_mul, Nat.mul_comm own.min.val]
  | .sequence o items => by
      rw [choiceSites, outerChoices]
      exact choiceSitesOf_eq enclosing o items 0 items
  | .group name o inner => by
      have ih := choiceSites_eq (enclosing.mul o.min) inner
      by_cases hinner : inner.IsChoice
      · cases inner with
        | choice own items =>
            simp only [choiceSites, outerChoices, List.map_cons, List.map_nil, ChoiceNode.site,
              ChoiceNode.least, ChoiceNode.limits, ChoiceNode.reference?, ChoiceNode.within,
              List.getLast?_singleton, List.prod_cons, List.prod_nil, Nat.mul_one, bounds]
            rw [Occurs.times_min, clamp_mul]
            simp only [Nat.mul_comm]
        | _ => exact absurd hinner id
      · rw [choiceSites_group enclosing fun own items h => hinner (by rw [h]; trivial), ih, outerChoices,
          List.map_map]
        refine List.map_congr_left fun c hc => ?_
        exact (ChoiceNode.site_within (p := .group name o inner)
          (ChoiceNode.reference?_within (around_ne_nil hinner hc))).symm

theorem choiceSitesOf_eq (enclosing : Count) (o : Occurs) (all : List Particle) (i : ℕ) :
    ∀ items : List Particle, choiceSitesOf (enclosing.mul o.min) items =
      (outerChoicesOf (.sequence o all) i items).map (ChoiceNode.site enclosing)
  | [] => by simp only [choiceSitesOf, outerChoicesOf, List.map_nil]
  | q :: rest => by
      rw [choiceSitesOf, outerChoicesOf, List.map_append, choiceSites_eq _ q,
        choiceSitesOf_eq enclosing o all (i + 1) rest, List.map_map]
      refine congrArg (· ++ _) (List.map_congr_left fun c _ => ?_)
      exact (ChoiceNode.site_within ChoiceNode.reference?_within_sequence).symm

end

end Particle

/-! ## The groups of a content model -/

/-- A group is about a choice: its bounds are those of the choice with what is around it, as far as
counts go; its members are the elements inside, and its branches are the alternatives with an
element inside, numbered in order. -/
structure ChoiceGroup.Describes (g : ChoiceGroup) (c : ChoiceNode) : Prop where
  bounds : Clamps ⟨g.minOccurs, g.maxOccurs⟩ c.least c.most
  members : ∀ n, n ∈ g.allElements ↔ ∃ q ∈ c.items, q.Names n
  branches : List.Forall₂ (fun b q => ∀ n, n ∈ b.elements ↔ Particle.Names q n) g.branches
    (c.items.filter fun q => q.Named)
  ids : g.branches.map Branch.branchId =
    (List.range g.branches.length).map fun i => "branch_" ++ toString i

theorem filter_named (items : List Particle) :
    (items.filter fun q => decide q.Named) = items.filter fun q => !q.mentions.isEmpty := by
  refine List.filter_congr fun q _ => ?_
  rw [Bool.eq_iff_iff, decide_eq_true_iff, Particle.named_iff]
  simp

theorem branches_describe (items : List Particle) :
    List.Forall₂ (fun (b : Branch) q => ∀ n, n ∈ b.elements ↔ Particle.Names q n)
      (branchesOf items) (items.filter fun q => q.Named) := by
  have hnames : List.Forall₂ (fun names q => ∀ n : String, n ∈ names ↔ Particle.Names q n)
      ((branchesOf items).map Branch.elements) (items.filter fun q => q.Named) := by
    rw [elements_branchesOf, filter_named, List.forall₂_map_left_iff]
    refine List.forall₂_same.2 fun q _ n => ?_
    rw [Text.mem_nameSet, Particle.mem_mentions_iff]
  exact List.forall₂_map_left_iff.1 hnames

theorem branchesOf_eq_nil_iff {items : List Particle} :
    branchesOf items = [] ↔ ¬∃ q ∈ items, q.Named := by
  rw [← List.length_eq_zero_iff, (branches_describe items).length_eq, List.length_eq_zero_iff,
    List.filter_eq_nil_iff]
  simp

/-- The group of an outermost choice. -/
def ChoiceNode.group (typeName : String) (c : ChoiceNode) (number : ℕ) : ChoiceGroup :=
  ⟨groupIdOf typeName number, Count.clamp c.least, c.limits.max, branchesOf c.items⟩

theorem ChoiceNode.describes_group (c : ChoiceNode) (number : ℕ) :
    (c.group typeName number).Describes c where
  bounds := c.clamps
  members n := by
    rw [mem_allElements, ← Particle.mem_mentionsOf_iff]
    exact mem_branchesOf
  branches := branches_describe c.items
  ids := branchIds_branchesOf c.items

namespace Particle

/-- A name below a choice is below one that lies in no other. -/
theorem exists_outermost {p r : Particle} {address : List ℕ} {around : List Particle}
    (h : p.Leads address around r) {q : Particle} (hq : q ∈ around) (hchoice : q.IsChoice) {n : String}
    {o : Occurs} (hr : r = .element n o) : ∃ c, p.Outermost c ∧ ∃ q ∈ c.items, q.Names n := by
  induction h with
  | here => exact absurd hq List.not_mem_nil
  | @inside p q' r i address around hq' h ih =>
      by_cases hp : p.IsChoice
      · cases p with
        | choice own items =>
            refine ⟨⟨[], [], own, items⟩, ⟨.here, fun q hq => absurd hq List.not_mem_nil⟩, ?_⟩
            exact ⟨q', List.mem_of_getElem? hq', address, around, o, hr ▸ h⟩
        | _ => exact absurd hp id
      · have hq : q ∈ around := (List.mem_cons.1 hq).resolve_left fun e => hp (e ▸ hchoice)
        obtain ⟨c, ⟨hleads, houter⟩, hnames⟩ := ih hq hr
        refine ⟨c.within p i, ⟨.inside hq' hleads, fun q hq => ?_⟩, hnames⟩
        obtain rfl | hq := List.mem_cons.1 hq
        · exact hp
        · exact houter q hq

theorem Leads.trans {p q r : Particle} {a b : List ℕ} {around between : List Particle}
    (h : p.Leads a around q) (h' : q.Leads b between r) :
    p.Leads (a ++ b) (around ++ between) r := by
  induction h with
  | here => exact h'
  | inside hq _ ih => exact .inside hq (ih h')

/-- The groups that a walk over a content model collects are those of the outermost choices with an
element inside, in document order. They are numbered from the number at hand, and the walk leaves the
number after the last. So a name has a group exactly if it stands somewhere below a choice. -/
theorem collect_exact (typeName : String) (p : Particle) (start : ℕ) :
    ∃ (nodes : List ChoiceNode) (groups : List ChoiceGroup),
      nodes.Pairwise (fun a b => a.address < b.address) ∧
      (∀ c, c ∈ nodes ↔ p.Outermost c ∧ ∃ q ∈ c.items, q.Named) ∧
      (p.collect typeName .one).run start = (groups, start + nodes.length) ∧
      choiceGroups typeName p start = groups ∧
      groups.map ChoiceGroup.groupId =
        (List.range' start nodes.length).map (fun i => typeName ++ ":choice_" ++ toString i) ∧
      List.Forall₂ ChoiceGroup.Describes groups nodes ∧
      (∀ n, n ∈ p.elementNames ↔ p.Names n) ∧
      ∀ n, (∃ g ∈ groups, g.contains n = true) ↔
        ∃ address around o, p.Leads address around (.element n o) ∧ ∃ q ∈ around, q.IsChoice := by
  have hnodes : ∀ c, c ∈ p.outerChoices.filter (fun c => !(branchesOf c.items).isEmpty) ↔
      p.Outermost c ∧ ∃ q ∈ c.items, q.Named := by
    intro c
    rw [List.mem_filter, mem_outerChoices_iff, Bool.not_eq_true', ← Bool.not_eq_true,
      List.isEmpty_iff, branchesOf_eq_nil_iff, not_not]
  have hgroups : choiceGroups typeName p start =
      (p.outerChoices.filter fun c => !(branchesOf c.items).isEmpty).mapIdx
        fun k c => c.group typeName (start + k) := by
    rw [choiceGroups, numberGroups_eq, choiceSites_eq, List.filter_map]
    refine List.ext_getElem? fun k => ?_
    rw [List.getElem?_mapIdx, List.getElem?_map, List.getElem?_mapIdx, Option.map_map]
    refine congrArg (Option.map · _) (funext fun c => ?_)
    simp [ChoiceNode.site, ChoiceNode.group, Count.one]
  have hlength := congrArg List.length hgroups
  rw [List.length_mapIdx] at hlength
  refine ⟨_, _, (pairwise_outerChoices p).filter _, hnodes, ?_, rfl, ?_, ?_,
    fun n => List.mem_eraseDups.trans (mem_mentions_iff p), fun n => ?_⟩
  · have hnumbers : Numbers typeName start (p.choiceSites .one) (p.collect typeName .one) :=
      numbers_collect .one p start
    obtain ⟨hrun, hnext⟩ := hnumbers
    rw [hrun] at hnext
    exact Prod.ext hrun (hnext.trans (congrArg (start + ·) hlength))
  · rw [hgroups]
    refine List.ext_getElem (by simp) fun k hk hk' => ?_
    simp [ChoiceNode.group, groupIdOf]
  · rw [hgroups]
    refine List.forall₂_iff_get.2 ⟨List.length_mapIdx, fun k hk hk' => ?_⟩
    simp only [List.get_eq_getElem, List.getElem_mapIdx]
    exact ChoiceNode.describes_group _ _
  · rw [hgroups]
    constructor
    · rintro ⟨g, hg, hn⟩
      obtain ⟨k, hk, rfl⟩ := List.mem_mapIdx.1 hg
      obtain ⟨houter, -⟩ := (hnodes _).1 (List.getElem_mem hk)
      obtain ⟨q, hq, hnames⟩ :=
        (mem_mentionsOf_iff _).1 (mem_branchesOf.1 (ChoiceGroup.contains_iff.1 hn))
      obtain ⟨address, around, o, hleads⟩ :=
        (names_iff_parts (p := .choice _ _) (fun _ _ h => Particle.noConfusion h)).2 ⟨q, hq, hnames⟩
      cases hleads with
      | inside hi hleads =>
          exact ⟨_, _, o, houter.leads.trans (.inside hi hleads), _,
            List.mem_append_right _ List.mem_cons_self, trivial⟩
    · rintro ⟨address, around, o, hleads, q, hq, hchoice⟩
      obtain ⟨c, houter, r, hr, hnames⟩ := exists_outermost hleads hq hchoice rfl
      obtain ⟨k, hk, hc⟩ := List.mem_iff_getElem.1 ((hnodes c).2 ⟨houter, r, hr, n, hnames⟩)
      refine ⟨_, List.mem_mapIdx.2 ⟨k, hk, rfl⟩, ?_⟩
      rw [hc, ChoiceGroup.contains_iff]
      exact mem_branchesOf.2 ((mem_mentionsOf_iff _).2 ⟨r, hr, hnames⟩)

end Particle

end GrammarProfile.Grammar
