import GrammarProfile.Grammar.Model
import GrammarProfile.Proofs.Names
import GrammarProfile.Proofs.OrderedMap
import GrammarProfile.Proofs.Permitted

/-!
The bounds that a content model gives to its children are exact, as long as they are numbers that
a count can hold.
-/
namespace GrammarProfile.Grammar

/-! ## Bounds as unlimited numbers -/

@[simp] theorem clamp_val (c : Count) : Count.clamp c.val = c := by
  cases c with
  | mk n h => simp [Count.clamp, Nat.min_eq_left h]

theorem clamp_of_le {n : ℕ} (h : n ≤ Count.limit) : (Count.clamp n).val = n := Nat.min_eq_left h

theorem clamp_add (a b : ℕ) : (Count.clamp a).add (Count.clamp b) = Count.clamp (a + b) := by
  simp only [Count.add, Count.clamp, Count.mk.injEq]
  omega

theorem clamp_mul (a : ℕ) (c : Count) : (Count.clamp a).mul c = Count.clamp (a * c.val) := by
  simp only [Count.mul, Count.clamp, Count.mk.injEq]
  rcases Nat.le_total a 4294967295 with ha | ha
  · rw [Nat.min_eq_left ha]
  · rw [Nat.min_eq_right ha]
    rcases Nat.eq_zero_or_pos c.val with hc | hc
    · rw [hc, Nat.mul_zero, Nat.mul_zero]
    · rw [Nat.min_eq_right (Nat.le_mul_of_pos_right _ hc),
        Nat.min_eq_right (Nat.le_trans ha (Nat.le_mul_of_pos_right _ hc))]

theorem clamp_min (a b : ℕ) : (Count.clamp a).min (Count.clamp b) = Count.clamp (min a b) := by
  unfold Count.min
  split <;> simp only [Count.clamp, Count.mk.injEq] at * <;> omega

theorem clamp_max (a b : ℕ) : (Count.clamp a).max (Count.clamp b) = Count.clamp (max a b) := by
  unfold Count.max
  split <;> simp only [Count.clamp, Count.mk.injEq] at * <;> omega

/-- Bounds that hold given numbers as far as counts go. -/
structure Clamps (o : Occurs) (low : ℕ) (high : ℕ∞) : Prop where
  min_eq : o.min = Count.clamp low
  max_eq : (high = ⊤ ∧ o.max = none) ∨ ∃ n : ℕ, high = n ∧ o.max = some (Count.clamp n)

namespace Clamps

variable {a b o : Occurs} {low low' : ℕ} {high high' : ℕ∞}

theorem never : Clamps .never 0 0 := ⟨rfl, .inr ⟨0, rfl, rfl⟩⟩

theorem self (o : Occurs) : Clamps o o.min.val o.most := by
  refine ⟨(clamp_val _).symm, ?_⟩
  cases hm : o.max with
  | none => exact .inl ⟨by rw [Occurs.most, hm], rfl⟩
  | some m => exact .inr ⟨m.val, by rw [Occurs.most, hm], by rw [clamp_val]⟩

theorem add (ha : Clamps a low high) (hb : Clamps b low' high') :
    Clamps (a.add b) (low + low') (high + high') := by
  obtain ⟨hmin, hmax⟩ := ha
  obtain ⟨hmin', hmax'⟩ := hb
  refine ⟨by rw [Occurs.add, hmin, hmin', clamp_add], ?_⟩
  rcases hmax with ⟨rfl, hmax⟩ | ⟨n, rfl, hmax⟩
  · exact .inl ⟨top_add _, by simp only [Occurs.add, hmax]⟩
  · rcases hmax' with ⟨rfl, hmax'⟩ | ⟨n', rfl, hmax'⟩
    · exact .inl ⟨add_top _, by simp only [Occurs.add, hmax, hmax']⟩
    · exact .inr ⟨n + n', by push_cast; rfl, by simp only [Occurs.add, hmax, hmax', clamp_add]⟩

theorem widest (ha : Clamps a low high) (hb : Clamps b low' high') :
    Clamps (a.widest b) (min low low') (max high high') := by
  obtain ⟨hmin, hmax⟩ := ha
  obtain ⟨hmin', hmax'⟩ := hb
  refine ⟨by rw [Occurs.widest, hmin, hmin', clamp_min], ?_⟩
  rcases hmax with ⟨rfl, hmax⟩ | ⟨n, rfl, hmax⟩
  · exact .inl ⟨max_eq_left le_top, by simp only [Occurs.widest, hmax]⟩
  · rcases hmax' with ⟨rfl, hmax'⟩ | ⟨n', rfl, hmax'⟩
    · exact .inl ⟨max_eq_right le_top, by simp only [Occurs.widest, hmax, hmax']⟩
    · exact .inr ⟨max n n', rfl, by simp only [Occurs.widest, hmax, hmax', clamp_max]⟩

/-- A maximum of zero on one side wins over no maximum on the other, as zero does in products. -/
theorem times (ha : Clamps a low high) (outer : Occurs) :
    Clamps (a.times outer) (low * outer.min.val) (high * outer.most) := by
  obtain ⟨hmin, hmax⟩ := ha
  refine ⟨by rw [Occurs.times, hmin, clamp_mul], ?_⟩
  cases ho : outer.max with
  | none =>
      have htop : outer.most = ⊤ := by rw [Occurs.most, ho]
      rw [htop]
      rcases hmax with ⟨rfl, hmax⟩ | ⟨n, rfl, hmax⟩
      · exact .inl ⟨ENat.top_mul ENat.top_ne_zero, by simp only [Occurs.times, hmax, ho]⟩
      · rcases Nat.eq_zero_or_pos n with rfl | hn
        · refine .inr ⟨0, by simp, ?_⟩
          simp [Occurs.times, hmax, ho, Count.clamp]
        · have hne : (Count.clamp n).val ≠ 0 := by
            simp only [Count.clamp]
            omega
          refine .inl ⟨ENat.mul_top (by exact_mod_cast hn.ne'), ?_⟩
          simp [Occurs.times, hmax, ho, hne]
  | some m =>
      have hcast : outer.most = (m.val : ℕ∞) := by rw [Occurs.most, ho]
      rw [hcast]
      rcases hmax with ⟨rfl, hmax⟩ | ⟨n, rfl, hmax⟩
      · by_cases hm : m.val = 0
        · refine .inr ⟨0, by rw [hm]; simp, ?_⟩
          simp only [Occurs.times, hmax, ho, if_pos hm]
          rw [← hm, clamp_val]
        · refine .inl ⟨ENat.top_mul (by exact_mod_cast hm), ?_⟩
          simp only [Occurs.times, hmax, ho, if_neg hm]
      · exact .inr ⟨n * m.val, by push_cast; rfl,
          by simp only [Occurs.times, hmax, ho, clamp_mul]⟩

/-- Bounds are determined by the unlimited numbers that they hold. -/
theorem eq (ha : Clamps a low high) (hb : Clamps b low' high') (hlow : low = low')
    (hhigh : high = high') : a = b := by
  subst hlow hhigh
  obtain ⟨hmin, hmax⟩ := ha
  obtain ⟨hmin', hmax'⟩ := hb
  have hsame : a.max = b.max := by
    rcases hmax with ⟨rfl, hmax⟩ | ⟨n, rfl, hmax⟩
    · rcases hmax' with ⟨-, hmax'⟩ | ⟨n', hn', -⟩
      · rw [hmax, hmax']
      · exact absurd hn' (ENat.top_ne_natCast n')
    · rcases hmax' with ⟨hn, -⟩ | ⟨n', hn', hmax'⟩
      · exact absurd hn (ENat.natCast_ne_top n)
      · rw [hmax, hmax', ENat.natCast_inj.1 hn']
  obtain ⟨lo, hi⟩ := a
  obtain ⟨lo', hi'⟩ := b
  rw [Occurs.mk.injEq]
  exact ⟨hmin.trans hmin'.symm, hsame⟩

end Clamps

theorem Occurs.never_times (a : Occurs) : never.times a = never :=
  Clamps.eq (Clamps.never.times a) Clamps.never (Nat.zero_mul _) (zero_mul _)

theorem Occurs.times_once (a : Occurs) : a.times once = a :=
  Clamps.eq ((Clamps.self a).times once) (.self a) (Nat.mul_one _) (mul_one _)

/-! ## Tallies -/

namespace Tally

/-- The bounds of a name, which is never there if it is not mentioned. -/
def bound (t : Tally) (name : String) : Occurs := (t.get? name).getD .never

/-- A tally holds the names of a list in order, each with the bounds given for it. -/
structure Tracks (t : Tally) (names : List String) (low : String → ℕ) (high : String → ℕ∞) :
    Prop where
  keys : OrderedMap.keys t = names.eraseDups
  bound : ∀ name, Clamps (t.bound name) (low name) (high name)

theorem add_never (o : Occurs) : o.add .never = o :=
  Clamps.eq ((Clamps.self o).add .never) (.self o) (Nat.add_zero _) (add_zero _)

theorem never_add (o : Occurs) : Occurs.never.add o = o :=
  Clamps.eq (Clamps.never.add (.self o)) (.self o) (Nat.zero_add _) (zero_add _)

/-- One step of merging: the bounds of a name add to those that are there. -/
def mergeOne (t : Tally) (p : String × Occurs) : Tally :=
  OrderedMap.insert t p.1 (match t.get? p.1 with
    | some o => o.add p.2
    | none => p.2)

theorem merge_eq_foldl (a b : Tally) : merge a b = b.pairs.foldl mergeOne a := rfl

theorem bound_mergeOne (t : Tally) (p : String × Occurs) (name : String) :
    (mergeOne t p).bound name =
      if name = p.1 then (t.bound name).add p.2 else t.bound name := by
  unfold bound mergeOne
  rw [OrderedMap.get?_insert]
  by_cases h : name = p.1
  · subst h
    cases t.get? p.1 with
    | none => simp [never_add]
    | some o => simp
  · simp [h]

theorem keys_mergeOne (t : Tally) (p : String × Occurs) :
    (mergeOne t p).keys = t.keys ++ [p.1].filter fun n => !t.keys.contains n := by
  unfold mergeOne
  rw [OrderedMap.keys_insert]
  by_cases h : p.1 ∈ t.keys <;> simp [h]

theorem bound_foldl_mergeOne (pairs : List (String × Occurs)) (h : (pairs.map Prod.fst).Nodup)
    (t : Tally) (name : String) :
    (pairs.foldl mergeOne t).bound name =
      (t.bound name).add ((pairs.lookup name).getD .never) := by
  induction pairs generalizing t with
  | nil => exact (add_never _).symm
  | cons p rest ih =>
      obtain ⟨hp, hrest⟩ := List.nodup_cons.1 h
      rw [List.foldl_cons, ih hrest, bound_mergeOne, lookup_cons_ite]
      by_cases hn : name = p.1
      · have hnone : rest.lookup name = none := lookup_eq_none_iff.2 (hn ▸ hp)
        rw [if_pos hn, if_pos hn, hnone, Option.getD_none, Option.getD_some, add_never]
      · rw [if_neg hn, if_neg hn]

theorem keys_foldl_mergeOne (pairs : List (String × Occurs)) (h : (pairs.map Prod.fst).Nodup)
    (t : Tally) :
    (pairs.foldl mergeOne t).keys =
      t.keys ++ (pairs.map Prod.fst).filter fun n => !t.keys.contains n := by
  induction pairs generalizing t with
  | nil => simp
  | cons p rest ih =>
      obtain ⟨hp, hrest⟩ := List.nodup_cons.1 h
      have hsame : (rest.map Prod.fst).filter (fun n => !(mergeOne t p).keys.contains n) =
          (rest.map Prod.fst).filter fun n => !t.keys.contains n := by
        refine List.filter_congr fun n hn => ?_
        have hne : n ≠ p.1 := fun e => hp (e ▸ hn)
        rw [keys_mergeOne]
        by_cases hk : p.1 ∈ t.keys <;> simp [hk, hne]
      rw [List.foldl_cons, ih hrest, hsame, keys_mergeOne, List.append_assoc, List.map_cons,
        ← List.filter_append, List.singleton_append]

variable {a b t : Tally} {xs ys : List String} {low low' : String → ℕ} {high high' : String → ℕ∞}

theorem Tracks.merge (ha : Tracks a xs low high) (hb : Tracks b ys low' high') :
    Tracks (Tally.merge a b) (xs ++ ys) (fun n => low n + low' n) (fun n => high n + high' n) := by
  refine ⟨?_, fun name => ?_⟩
  · have hkeys : b.pairs.map Prod.fst = ys.eraseDups := hb.keys
    rw [merge_eq_foldl, keys_foldl_mergeOne _ b.distinct, Text.eraseDups_append, hkeys, ha.keys]
    congr 1
    exact List.filter_congr fun n _ => by simp
  · rw [merge_eq_foldl, bound_foldl_mergeOne _ b.distinct]
    exact (ha.bound name).add (hb.bound name)

theorem tracks_empty : Tracks OrderedMap.empty [] (fun _ => 0) (fun _ => 0) :=
  ⟨rfl, fun _ => Clamps.never⟩

theorem tracks_single (name : String) (o : Occurs) :
    Tracks (OrderedMap.empty.insert name o) [name] (fun n => if name = n then o.min.val else 0)
      (fun n => if name = n then o.most else 0) := by
  refine ⟨rfl, fun n => ?_⟩
  unfold bound
  rw [OrderedMap.get?_insert]
  by_cases h : n = name
  · subst h
    simpa using Clamps.self o
  · have h' : name ≠ n := fun e => h e.symm
    rw [if_neg h, if_neg h', if_neg h']
    exact Clamps.never

theorem bound_scale (t : Tally) (outer : Occurs) (name : String) :
    (t.scale outer).bound name = (t.bound name).times outer := by
  unfold bound scale
  rw [OrderedMap.get?_map]
  cases t.get? name with
  | none => exact outer.never_times.symm
  | some o => rfl

theorem Tracks.scale (ht : Tracks t xs low high) (outer : Occurs) :
    Tracks (t.scale outer) xs (fun n => low n * outer.min.val) (fun n => high n * outer.most) := by
  refine ⟨(OrderedMap.keys_map _ t).trans ht.keys, fun name => ?_⟩
  rw [bound_scale]
  exact (ht.bound name).times outer

theorem widestOf_cons (name : String) (t : Tally) (rest : List Tally) :
    widestOf name (t :: rest) = rest.foldl (fun o v => o.widest (v.bound name)) (t.bound name) := by
  cases rest <;> rfl

theorem widestOf_absent {name : String} {branches : List Tally}
    (h : ∀ t ∈ branches, t.bound name = .never) : widestOf name branches = .never := by
  cases branches with
  | nil => rfl
  | cons t rest =>
      rw [widestOf_cons, h t List.mem_cons_self]
      have hrest : ∀ u ∈ rest, u.bound name = .never := fun u hu => h u (List.mem_cons_of_mem _ hu)
      clear h
      induction rest with
      | nil => rfl
      | cons u rest ih =>
          rw [List.foldl_cons, hrest u List.mem_cons_self]
          exact ih fun v hv => hrest v (List.mem_cons_of_mem _ hv)

theorem alternatives_pairs (branches : List Tally) :
    OrderedMap.pairs (alternatives branches) = (branches.flatMap OrderedMap.keys).eraseDups.map
      fun name => (name, widestOf name branches) := by
  apply OrderedMap.pairs_ofList
  rw [List.map_map]
  simpa [Function.comp_def] using Text.nodup_eraseDups (branches.flatMap OrderedMap.keys)

theorem keys_alternatives (branches : List Tally) :
    OrderedMap.keys (alternatives branches) = (branches.flatMap OrderedMap.keys).eraseDups := by
  rw [OrderedMap.keys, alternatives_pairs, List.map_map]
  simp [Function.comp_def]

theorem bound_alternatives (branches : List Tally) (name : String) :
    (alternatives branches).bound name = widestOf name branches := by
  unfold bound
  by_cases h : name ∈ (branches.flatMap OrderedMap.keys).eraseDups
  · have hsome : OrderedMap.get? (alternatives branches) name = some (widestOf name branches) := by
      rw [OrderedMap.get?_eq_some_iff, alternatives_pairs]
      exact List.mem_map.2 ⟨name, h, rfl⟩
    rw [hsome, Option.getD_some]
  · have hnone : OrderedMap.get? (alternatives branches) name = none := by
      rw [OrderedMap.get?_eq_none_iff, keys_alternatives]
      exact h
    rw [hnone, Option.getD_none]
    refine (widestOf_absent fun t ht => ?_).symm
    have hkey : name ∉ OrderedMap.keys t := fun hk =>
      h (List.mem_eraseDups.2 (List.mem_flatMap.2 ⟨t, ht, hk⟩))
    rw [bound, OrderedMap.get?_eq_none_iff.2 hkey, Option.getD_none]

end Tally

/-! ## Content models -/

namespace Particle

/-- A tally records the unlimited bounds of a content model. -/
def Recorded (p : Particle) (t : Tally) : Prop :=
  t.Tracks p.mentions (fun n => p.fewest n) fun n => p.greatest n

section Items

variable {items : List Particle} {tallies : List Tally}

theorem recorded_foldl_merge (h : List.Forall₂ Recorded items tallies) {t : Tally}
    {xs : List String} {low : String → ℕ} {high : String → ℕ∞} (ht : t.Tracks xs low high) :
    (tallies.foldl Tally.merge t).Tracks (xs ++ mentionsOf items)
      (fun n => low n + fewestEach n items) fun n => high n + greatestEach n items := by
  induction h generalizing t xs low high with
  | nil => simpa [mentionsOf, fewestEach, greatestEach] using ht
  | cons hp _ ih =>
      simpa [mentionsOf, fewestEach, greatestEach, Nat.add_assoc, add_assoc] using
        ih (ht.merge hp)

theorem recorded_keys (h : List.Forall₂ Recorded items tallies) :
    (tallies.flatMap OrderedMap.keys).eraseDups = (mentionsOf items).eraseDups := by
  induction h with
  | nil => rfl
  | @cons p t ps ts hp _ ih =>
      have hidem : p.mentions.eraseDups.eraseDups = p.mentions.eraseDups :=
        Text.eraseDups_of_nodup (Text.nodup_eraseDups _)
      rw [List.flatMap_cons, mentionsOf, Text.eraseDups_append, Text.eraseDups_append, ih, hp.keys,
        hidem]
      congr 1
      exact List.filter_congr fun n _ => by simp

theorem recorded_foldl_widest (h : List.Forall₂ Recorded items tallies) (name : String)
    {o : Occurs} {low : ℕ} {high : ℕ∞} (ho : Clamps o low high) :
    Clamps (tallies.foldl (fun o v => o.widest (v.bound name)) o)
      (if items.isEmpty then low else min low (fewestSome name items))
      (max high (greatestSome name items)) := by
  induction h generalizing o low high with
  | nil => simpa [greatestSome] using ho
  | @cons p t ps ts hp hrest ih =>
      have hstep := ih (ho.widest (hp.bound name))
      rw [List.foldl_cons, fewestSome, greatestSome, ← max_assoc]
      cases ps with
      | nil => simpa using hstep
      | cons q ps => simpa [Nat.min_assoc] using hstep

theorem recorded_widestOf (h : List.Forall₂ Recorded items tallies) (name : String) :
    Clamps (Tally.widestOf name tallies) (fewestSome name items) (greatestSome name items) := by
  cases h with
  | nil => exact Clamps.never
  | @cons p t ps ts hp hrest =>
      rw [Tally.widestOf_cons, fewestSome, greatestSome]
      exact recorded_foldl_widest hrest name (hp.bound name)

end Items

mutual

/-- The tally of a content model records its unlimited bounds, cut off where counts end. -/
theorem recorded : ∀ p : Particle, p.Recorded p.occurrences
  | .element name o => by
      simpa only [Recorded, mentions, occurrences, fewest, greatest] using
        Tally.tracks_single name o
  | .sequence o items => by
      have hmerged := recorded_foldl_merge (recordedOf items) Tally.tracks_empty
      simpa only [Recorded, mentions, occurrences, fewest, greatest, List.nil_append, Nat.zero_add,
        zero_add] using hmerged.scale o
  | .choice o items => by
      have hall := recordedOf items
      have hchoice : (Tally.alternatives (occurrencesOf items)).Tracks (mentionsOf items)
          (fun n => fewestSome n items) fun n => greatestSome n items := by
        refine ⟨(Tally.keys_alternatives _).trans (recorded_keys hall), fun name => ?_⟩
        rw [Tally.bound_alternatives]
        exact recorded_widestOf hall name
      simpa only [Recorded, mentions, occurrences, fewest, greatest] using hchoice.scale o
  | .group _ o inner => by
      simpa only [Recorded, mentions, occurrences, fewest, greatest] using
        (recorded inner).scale o
  | .any => by
      simpa only [Recorded, mentions, occurrences, fewest, greatest] using Tally.tracks_empty

theorem recordedOf : ∀ items : List Particle, List.Forall₂ Recorded items (occurrencesOf items)
  | [] => by
      simpa only [occurrencesOf] using List.Forall₂.nil
  | p :: rest => by
      simpa only [occurrencesOf] using List.Forall₂.cons (recorded p) (recordedOf rest)

end

/-- No bound that adds up or multiplies goes beyond what a count can hold. -/
def WithinLimit (p : Particle) : Prop :=
  ∀ name ∈ p.mentions, p.fewest name ≤ Count.limit ∧
    (p.greatest name ≠ ⊤ → p.greatest name ≤ (Count.limit : ℕ))

/-- Bounds of a name that are met: no permitted sequence has fewer or more, one has as few and one
as many, or as many as one likes where there is no maximum. -/
structure Exact (p : Particle) (name : String) (o : Occurs) : Prop where
  min_le : ∀ w, p.Permits w → o.min.val ≤ w.count name
  le_max : ∀ m, o.max = some m → ∀ w, p.Permits w → w.count name ≤ m.val
  min_met : ∃ w, p.Permits w ∧ w.count name = o.min.val
  max_met : ∀ m, o.max = some m → ∃ w, p.Permits w ∧ w.count name = m.val
  unbounded : o.max = none → ∀ k, ∃ w, p.Permits w ∧ k ≤ w.count name

theorem exact_of_tight {p : Particle} {name : String} {o : Occurs}
    (h : Tight p.Permits name o.min.val o.most) : p.Exact name o := by
  refine ⟨h.low_le, fun m hm w hw => ?_, h.low_met, fun m hm => ?_, fun hnone k => ?_⟩
  · exact Occurs.le_most_iff.1 (h.le_high w hw) m hm
  · have hmost : (m.val : ℕ∞) ≤ o.most := by rw [Occurs.most, hm]
    obtain ⟨w, hw, hcount⟩ := h.high_met m.val hmost
    exact ⟨w, hw, Nat.le_antisymm (Occurs.le_most_iff.1 (h.le_high w hw) m hm) hcount⟩
  · have hmost : o.most = ⊤ := by rw [Occurs.most, hnone]
    exact h.high_met k (by rw [hmost]; exact le_top)

/-- Within the limit of counts, the recorded bounds are the unlimited ones. -/
theorem exact_of_get? {p : Particle} (hp : p.WellFormed) (hlimit : p.WithinLimit) {name : String}
    {o : Occurs} (ho : OrderedMap.get? p.occurrences name = some o) : p.Exact name o := by
  obtain ⟨hkeys, hbound⟩ := recorded p
  have hclamps := hbound name
  rw [Tally.bound, ho, Option.getD_some] at hclamps
  have hname : name ∈ p.mentions := by
    have hkey : name ∈ OrderedMap.keys p.occurrences :=
      OrderedMap.get?_isSome.1 (by rw [ho]; rfl)
    rw [hkeys] at hkey
    exact List.mem_eraseDups.1 hkey
  obtain ⟨hlow, hhigh⟩ := hlimit name hname
  have hmin : o.min.val = p.fewest name := by rw [hclamps.min_eq, clamp_of_le hlow]
  have hmost : o.most = p.greatest name := by
    rcases hclamps.max_eq with ⟨htop, hmax⟩ | ⟨n, hn, hmax⟩
    · rw [htop, Occurs.most, hmax]
    · have hle : n ≤ Count.limit := by
        have := hhigh (by rw [hn]; exact ENat.natCast_ne_top n)
        rw [hn] at this
        exact_mod_cast this
      rw [hn, Occurs.most, hmax]
      exact congrArg _ (clamp_of_le hle)
  apply exact_of_tight
  rw [hmin, hmost]
  exact tight name p hp

/-- The bounds of a content model are exact: they are given for the elements it mentions, in
order, and are met. A child counts as required when every permitted sequence holds it. -/
theorem occurrences_exact (p : Particle) (hp : p.WellFormed) (hlimit : p.WithinLimit) :
    OrderedMap.keys p.occurrences = p.elementNames ∧
      (∀ name o, OrderedMap.get? p.occurrences name = some o → p.Exact name o) ∧
      ∀ groups, ∀ c ∈ Child.ofContent groups p,
        (c.required = true ↔ ∀ w, p.Permits w → c.name ∈ w) := by
  refine ⟨(recorded p).keys, fun name o => exact_of_get? hp hlimit, fun groups c hc => ?_⟩
  obtain ⟨⟨name, o⟩, hmem, rfl⟩ := List.mem_map.1 hc
  have hexact := exact_of_get? hp hlimit (OrderedMap.get?_eq_some_iff.2 hmem)
  simp only [Child.required, decide_eq_true_eq]
  constructor
  · intro hreq w hw
    exact List.count_pos_iff.1 (Nat.lt_of_lt_of_le hreq (hexact.min_le w hw))
  · intro hall
    obtain ⟨w, hw, hcount⟩ := hexact.min_met
    rw [← hcount]
    exact List.count_pos_iff.2 (hall w hw)

/-- A number that may be left out, then blocks of which there is at least one. -/
def numberedBlocks : Particle :=
  .sequence .once [.element "num" ⟨Count.zero, some Count.one⟩,
    .choice ⟨Count.one, none⟩
      [.element "paragraph" .once, .group "blocks" .once (.element "p" .once)]]

theorem numberedBlocks_exact :
    numberedBlocks.WellFormed ∧ numberedBlocks.WithinLimit ∧
      numberedBlocks.elementNames = ["num", "paragraph", "p"] ∧
      numberedBlocks.Exact "num" ⟨Count.zero, some Count.one⟩ ∧
      numberedBlocks.Exact "p" ⟨Count.zero, none⟩ := by
  have hwell : numberedBlocks.WellFormed := by
    simp [numberedBlocks, WellFormed, AllWellFormed, Occurs.Ordered, Occurs.once, Count.zero,
      Count.one]
  have hlimit : numberedBlocks.WithinLimit := by
    intro name hname
    simp only [numberedBlocks, mentions, mentionsOf, List.append_nil, List.cons_append,
      List.nil_append, List.mem_cons, List.not_mem_nil, or_false] at hname
    rcases hname with rfl | rfl | rfl <;>
      simp [numberedBlocks, fewest, fewestEach, fewestSome, greatest, greatestEach, greatestSome,
        Occurs.once, Count.zero, Count.one, Occurs.most, Count.limit]
  obtain ⟨hkeys, hexact, _⟩ := occurrences_exact numberedBlocks hwell hlimit
  exact ⟨hwell, hlimit, hkeys ▸ rfl, hexact _ _ rfl, hexact _ _ rfl⟩

end Particle

end GrammarProfile.Grammar
