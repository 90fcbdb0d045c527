import GrammarProfile.Proofs.Verdict

/-!
The categories of rules report independently of each other. No finding of one category repeats a
finding of another, so it does not matter which of them reports first.
-/
namespace GrammarProfile.Validation

open GrammarProfile.Profile

/-! ## Repeated findings -/

section Repeats

variable {a b c d : Diagnostic} {seen found : List Diagnostic}

@[simp] theorem sameFinding_refl (d : Diagnostic) : sameFinding d d = true :=
  sameFinding_iff.2 ⟨rfl, rfl, rfl⟩

theorem sameFinding_comm (a b : Diagnostic) : sameFinding a b = sameFinding b a := by
  rw [Bool.eq_iff_iff, sameFinding_iff, sameFinding_iff]
  constructor
  · exact fun ⟨hrule, hpath, hmessage⟩ => ⟨hrule.symm, hpath.symm, hmessage.symm⟩
  · exact fun ⟨hrule, hpath, hmessage⟩ => ⟨hrule.symm, hpath.symm, hmessage.symm⟩

theorem sameFinding_trans (hab : sameFinding a b = true) (hbc : sameFinding b c = true) :
    sameFinding a c = true := by
  rw [sameFinding_iff] at hab hbc ⊢
  exact ⟨hab.1.trans hbc.1, hab.2.1.trans hbc.2.1, hab.2.2.trans hbc.2.2⟩

/-- The finding is the first of all those with its rule, path and message. -/
def FirstOfKind (found : List Diagnostic) (d : Diagnostic) : Prop :=
  found.find? (sameFinding d) = some d

theorem FirstOfKind.mem (h : FirstOfKind found d) : d ∈ found := List.mem_of_find?_eq_some h

theorem firstOfKind_append :
    FirstOfKind (seen ++ found) d ↔ FirstOfKind seen d ∨
      (∀ k ∈ seen, sameFinding d k = false) ∧ FirstOfKind found d := by
  unfold FirstOfKind
  rw [List.find?_append, Option.or_eq_some_iff, List.find?_eq_none]
  simp only [Bool.not_eq_true]

/-- What is kept is the first of its kind, and of a kind that was not seen before. -/
theorem mem_dropRepeats_iff : d ∈ dropRepeats seen found ↔
    (∀ k ∈ seen, sameFinding d k = false) ∧ FirstOfKind found d := by
  induction found generalizing seen with
  | nil => simp [dropRepeats, FirstOfKind]
  | cons first rest ih =>
      unfold dropRepeats
      have hfirst : FirstOfKind (first :: rest) d ↔
          if sameFinding d first = true then first = d else FirstOfKind rest d := by
        unfold FirstOfKind
        rw [List.find?_cons]
        cases sameFinding d first <;> simp
      rw [hfirst]
      split
      · next hseen =>
          -- A finding of the kind of `first` was seen, so `d` is of another kind.
          rw [ih]
          refine and_congr_right fun hnew => ?_
          obtain ⟨k, hk, hsame⟩ := List.any_eq_true.1 hseen
          rw [if_neg]
          intro hd
          exact absurd (sameFinding_trans hd hsame) (by simp [hnew k hk])
      · next hseen =>
          have hnew : ∀ k ∈ seen, sameFinding first k = false := by simpa using hseen
          rw [List.mem_cons, ih, List.forall_mem_cons]
          by_cases hd : sameFinding d first = true
          · rw [if_pos hd, hd]
            constructor
            · rintro (rfl | ⟨⟨hfalse, _⟩, _⟩)
              · exact ⟨hnew, rfl⟩
              · cases hfalse
            · exact fun h => .inl h.2.symm
          · rw [if_neg hd]
            constructor
            · rintro (rfl | ⟨⟨_, hseen⟩, hrest⟩)
              · exact absurd (sameFinding_refl d) hd
              · exact ⟨hseen, hrest⟩
            · exact fun h => .inr ⟨⟨by simpa using hd, h.1⟩, h.2⟩

theorem pairwise_dropRepeats :
    (dropRepeats seen found).Pairwise fun a b => sameFinding a b = false := by
  induction found generalizing seen with
  | nil => exact .nil
  | cons first rest ih =>
      unfold dropRepeats
      split
      · exact ih
      · refine List.pairwise_cons.2 ⟨fun k hk => ?_, ih⟩
        rw [sameFinding_comm]
        exact (mem_dropRepeats_iff.1 hk).1 first List.mem_cons_self

end Repeats

/-! ## Categories -/

section Categories

variable {s : Subject} {settings : Settings} {minimum : Severity} {categories : List Category}
  {c : Category} {d k : Diagnostic}

/-- A rule belongs to one category, and its name begins with the name of this category. -/
theorem category_unique {c' : Category} (hd : d ∈ c.check s) (hk : k ∈ c'.check s)
    (h : sameFinding d k = true) : c = c' := by
  have hname : d.category = k.category := by
    unfold Diagnostic.category
    rw [(sameFinding_iff.1 h).1]
  rw [(listed_check c s).category hd, (listed_check c' s).category hk] at hname
  revert hname
  cases c <;> cases c' <;> decide

theorem firstOfKind_flatMap_iff : FirstOfKind (categories.flatMap fun c => c.check s) d ↔
    ∃ c ∈ categories, FirstOfKind (c.check s) d := by
  induction categories with
  | nil => simp [FirstOfKind]
  | cons first rest ih =>
      rw [List.flatMap_cons, firstOfKind_append, ih]
      constructor
      · rintro (h | ⟨_, c, hc, h⟩)
        · exact ⟨first, List.mem_cons_self, h⟩
        · exact ⟨c, List.mem_cons_of_mem _ hc, h⟩
      · rintro ⟨c, hc, h⟩
        rcases List.mem_cons.1 hc with rfl | hc
        · exact .inl h
        · by_cases hsame : ∃ k ∈ first.check s, sameFinding d k = true
          · obtain ⟨k, hk, hsame⟩ := hsame
            obtain rfl := category_unique h.mem hk hsame
            exact .inl h
          · exact .inr ⟨fun k hk => by simpa using fun hd => hsame ⟨k, hk, hd⟩, c, hc, h⟩

/-- Whatever is serious enough is reported, perhaps by a finding that it repeats. -/
theorem exists_mem_validate_of_mem (hc : c ∈ settings.categories) (hd : d ∈ c.check s)
    (hminimum : d.severity.atLeast settings.minimum = true) :
    ∃ k ∈ validate settings s, k.severity = d.severity ∧ sameFinding k d = true := by
  have hfound : d ∈ settings.categories.flatMap fun c => c.check s :=
    List.mem_flatMap.2 ⟨c, hc, hd⟩
  unfold validate
  dsimp only
  split
  · obtain ⟨k, hk, hsame⟩ := dropRepeats_covers [] _ hfound
    replace hk := hk.resolve_left List.not_mem_nil
    obtain ⟨c', _, hk'⟩ := List.mem_flatMap.1 (dropRepeats_subset _ _ hk)
    have hseverity : k.severity = d.severity := by
      rw [graded_check c' s k hk', graded_check c s d hd, hsame.1]
    exact ⟨k, List.mem_filter.2 ⟨hk, by rwa [hseverity]⟩, hseverity, sameFinding_iff.2 hsame⟩
  · exact ⟨d, List.mem_filter.2 ⟨hfound, hminimum⟩, rfl, sameFinding_refl d⟩

theorem mem_validate (h : d ∈ validate settings s) :
    d.severity.atLeast settings.minimum = true ∧ ∃ c ∈ settings.categories, d ∈ c.check s := by
  unfold validate at h
  obtain ⟨hd, hminimum⟩ := List.mem_filter.1 h
  refine ⟨hminimum, List.mem_flatMap.1 ?_⟩
  split at hd
  · exact dropRepeats_subset _ _ hd
  · exact hd

theorem Category.name_injective : Function.Injective Category.name := by
  intro a b
  cases a <;> cases b <;> decide

theorem eq_of_sameFinding {rule : String} (h : sameFinding d k = true)
    (hd : d = s.report .error rule d.path d.message)
    (hk : k = s.report .error rule k.path k.message) : d = k := by
  obtain ⟨_, hpath, hmessage⟩ := sameFinding_iff.1 h
  rw [hd, hk, hpath, hmessage]

/-- Of a rule whose findings are errors that stand where their paths stand, none is lost to
repetition: what its category finds is reported. -/
theorem mem_validate_iff_mem_check (hc : c ∈ settings.categories) (hcategory : d.category = c.name)
    (hplaced : ∀ k ∈ c.check s, k.ruleId = d.ruleId →
      k = s.report .error d.ruleId k.path k.message) :
    d ∈ validate settings s ↔ d ∈ c.check s := by
  constructor
  · intro h
    obtain ⟨_, c', _, hd⟩ := mem_validate h
    have hname := ((listed_check c' s).category hd).symm.trans hcategory
    rwa [Category.name_injective hname] at hd
  · intro hd
    have hself := hplaced d hd rfl
    have hminimum : d.severity.atLeast settings.minimum = true := by
      rw [hself, report_severity]
      cases settings.minimum <;> rfl
    obtain ⟨k, hk, _, hsame⟩ := exists_mem_validate_of_mem hc hd hminimum
    obtain ⟨_, c', _, hk'⟩ := mem_validate hk
    obtain rfl := category_unique hk' hd hsame
    rwa [eq_of_sameFinding hsame (hplaced k hk' (sameFinding_iff.1 hsame).1) hself] at hk

/-- What is reported when several categories look at a profile: the findings of all of them that
are serious enough, each rule, path and message once. -/
structure Combines (s : Subject) (minimum : Severity) (categories : List Category)
    (found : List Diagnostic) : Prop where
  mem_iff : ∀ d, d ∈ found ↔
    d.severity.atLeast minimum = true ∧ ∃ c ∈ categories, FirstOfKind (c.check s) d
  covers : ∀ c ∈ categories, ∀ d ∈ c.check s, d.severity.atLeast minimum = true →
    ∃ k ∈ found, k.severity = d.severity ∧ sameFinding k d = true
  once : found.Pairwise fun a b => sameFinding a b = false

theorem combines_validate (s : Subject) (minimum : Severity) (categories : List Category) :
    Combines s minimum categories (validate ⟨minimum, true, categories⟩ s) := by
  have hvalidate : validate ⟨minimum, true, categories⟩ s =
      (dropRepeats [] (categories.flatMap fun c => c.check s)).filter fun d =>
        d.severity.atLeast minimum := rfl
  refine ⟨fun d => ?_, fun c hc d hd hminimum => exists_mem_validate_of_mem hc hd hminimum, ?_⟩
  · rw [hvalidate, List.mem_filter, mem_dropRepeats_iff, firstOfKind_flatMap_iff, and_comm]
    simp
  · rw [hvalidate]
    exact pairwise_dropRepeats.filter _

theorem Combines.nodup {found : List Diagnostic} (h : Combines s minimum categories found) :
    found.Nodup := by
  refine h.once.imp fun hne => ?_
  rintro rfl
  rw [sameFinding_refl] at hne
  cases hne

theorem atLeast_trans {low high severity : Severity} (h : high.atLeast low = true)
    (hs : severity.atLeast high = true) : severity.atLeast low = true :=
  decide_eq_true ((of_decide_eq_true h).trans (of_decide_eq_true hs))

/-- Categories report independently: which findings are reported does not depend on the order or
the repetition of the categories, and a higher minimum only drops the less serious ones. -/
theorem validate_independent (s : Subject) (minimum : Severity) (categories : List Category) :
    Combines s minimum categories (validate ⟨minimum, true, categories⟩ s) ∧
    (∀ others : List Category, (∀ c, c ∈ categories ↔ c ∈ others) →
      (validate ⟨minimum, true, categories⟩ s).Perm (validate ⟨minimum, true, others⟩ s)) ∧
    ∀ higher : Severity, higher.atLeast minimum = true →
      validate ⟨higher, true, categories⟩ s =
        (validate ⟨minimum, true, categories⟩ s).filter fun d => d.severity.atLeast higher := by
  have hcombines := combines_validate s minimum
  refine ⟨hcombines categories, fun others hothers => ?_, fun higher hhigher => ?_⟩
  · rw [List.perm_ext_iff_of_nodup (hcombines categories).nodup (hcombines others).nodup]
    intro d
    rw [(hcombines categories).mem_iff, (hcombines others).mem_iff]
    simp only [hothers]
  · unfold validate
    rw [List.filter_filter]
    refine List.filter_congr fun d _ => ?_
    rw [Bool.eq_iff_iff, Bool.and_eq_true]
    exact (and_iff_left_of_imp (atLeast_trans hhigher)).symm

end Categories

end GrammarProfile.Validation
