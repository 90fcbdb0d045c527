import Mathlib.Data.List.Find
import GrammarProfile.Proofs.EditedEntries

/-!
The children and attributes of an entry in the order of the grammar: under the names of required
parts, under those of optional parts, and then all others as they stood. A second time changes
nothing.
-/
namespace GrammarProfile

/-! ## Stable sorting by keys -/

section Sorting

variable {α κ : Type} {le : κ → κ → Bool} {key : α → κ} {l : List α}

theorem eq_filter_append_filter {p : α → Bool}
    (h : l.Pairwise fun a b => p b = true → p a = true) :
    l = l.filter p ++ l.filter fun a => !p a := by
  induction l with
  | nil => rfl
  | cons a rest ih =>
      obtain ⟨hfirst, hrest⟩ := List.pairwise_cons.1 h
      by_cases ha : p a = true
      · have hrecall := ih hrest
        rw [List.filter_cons_of_pos ha, List.filter_cons_of_neg (by simp [ha]), List.cons_append,
          ← hrecall]
      · have hnone : rest.filter p = [] :=
          List.filter_eq_nil_iff.2 fun b hb hpb => ha (hfirst b hb hpb)
        have hall : rest.filter (fun a => !p a) = rest :=
          List.filter_eq_self.2 fun b hb => by simpa using fun hpb => ha (hfirst b hb hpb)
        rw [List.filter_cons_of_neg ha, List.filter_cons_of_pos (by simp [ha]), hnone, hall,
          List.nil_append]

variable [DecidableEq κ]

/-- A list that is sorted by keys has the items of each key together, in the order of the keys. -/
theorem eq_flatMap_of_sorted {keys : List κ} (hkeys : keys.Pairwise fun a b => le b a = false)
    (hself : ∀ a, le a a = true) (hall : ∀ a ∈ l, key a ∈ keys)
    (h : l.Pairwise fun a b => le (key a) (key b) = true) :
    l = keys.flatMap fun k => l.filter fun a => key a = k := by
  induction keys generalizing l with
  | nil =>
      rw [List.eq_nil_iff_forall_not_mem.2 fun a ha => List.not_mem_nil (hall a ha)]
      rfl
  | cons k ks ih =>
      obtain ⟨hfirst, hrest⟩ := List.pairwise_cons.1 hkeys
      -- Nothing stands before an item of the first key but items of this key.
      have hsplit : l = (l.filter fun a => key a = k) ++ l.filter fun a => !decide (key a = k) := by
        refine eq_filter_append_filter (h.imp_of_mem fun {a b} ha _ hab hb => ?_)
        have hb : key b = k := of_decide_eq_true hb
        rcases List.mem_cons.1 (hall a ha) with hk | hk
        · exact decide_eq_true hk
        · rw [hb, hfirst _ hk] at hab
          cases hab
      have hothers := ih (l := l.filter fun a => !decide (key a = k)) hrest
        (fun a ha => by
          obtain ⟨ha, hne⟩ := List.mem_filter.1 ha
          exact (List.mem_cons.1 (hall a ha)).resolve_left (by simpa using hne))
        (h.sublist List.filter_sublist)
      have hsame : ∀ k' ∈ ks, (l.filter fun a => !decide (key a = k)).filter
          (fun a => key a = k') = l.filter fun a => key a = k' := by
        intro k' hk'
        rw [List.filter_filter]
        refine List.filter_congr fun a _ => ?_
        by_cases ha : key a = k'
        · have hne : k' ≠ k := by
            rintro rfl
            exact absurd ((hfirst k' hk').symm.trans (hself k')) (by decide)
          simp [ha, hne]
        · simp [ha]
      rw [List.flatMap_cons, ← List.flatMap_congr hsame, ← hothers]
      exact hsplit

/-- Sorting keeps the order of the items of one key. -/
theorem filter_mergeSort (htrans : ∀ a b c, le a b = true → le b c = true → le a c = true)
    (htotal : ∀ a b, (le a b || le b a) = true) (k : κ) :
    (l.mergeSort fun a b => le (key a) (key b)).filter (fun a => key a = k) =
      l.filter fun a => key a = k := by
  have hself : le k k = true := by simpa using htotal k k
  have hequal : (l.filter fun a => key a = k).Pairwise fun a b => le (key a) (key b) = true := by
    refine List.pairwise_of_forall_mem_list fun a ha b hb => ?_
    have ha : key a = k := of_decide_eq_true (List.mem_filter.1 ha).2
    have hb : key b = k := of_decide_eq_true (List.mem_filter.1 hb).2
    rw [ha, hb, hself]
  have hsub := List.sublist_mergeSort (fun a b c => htrans (key a) (key b) (key c))
    (fun a b => htotal (key a) (key b)) hequal List.filter_sublist
  have hfiltered := hsub.filter fun a => key a = k
  rw [List.filter_filter] at hfiltered
  simp only [Bool.and_self] at hfiltered
  refine (hfiltered.eq_of_length ?_).symm
  exact ((List.mergeSort_perm _ _).filter _).length_eq.symm

/-- What is sorted by keys are the items of the first key, of the second one and so on. -/
theorem mergeSort_eq_flatMap (htrans : ∀ a b c, le a b = true → le b c = true → le a c = true)
    (htotal : ∀ a b, (le a b || le b a) = true) {keys : List κ}
    (hkeys : keys.Pairwise fun a b => le b a = false) (hall : ∀ a ∈ l, key a ∈ keys) :
    (l.mergeSort fun a b => le (key a) (key b)) =
      keys.flatMap fun k => l.filter fun a => key a = k := by
  have hsorted := List.pairwise_mergeSort (fun a b c => htrans (key a) (key b) (key c))
    (fun a b => htotal (key a) (key b)) l
  rw [eq_flatMap_of_sorted hkeys (fun a => by simpa using htotal a a)
    (fun a ha => hall a (List.mem_mergeSort.1 ha)) hsorted]
  exact List.flatMap_congr fun k _ => filter_mergeSort htrans htotal k

end Sorting

/-- Without repetitions names stand in the order in which they stand first. -/
theorem Text.pairwise_eraseDups (names : List String) :
    names.eraseDups.Pairwise fun a b => names.idxOf a < names.idxOf b := by
  induction names with
  | nil => exact .nil
  | cons a rest ih =>
      have herase : (a :: rest).eraseDups = a :: rest.eraseDups.filter fun b => !b == a := by
        rw [List.eraseDups_cons, Text.eraseDups_filter]
      have hlater : ∀ {b}, b ≠ a → (a :: rest).idxOf b = rest.idxOf b + 1 := by
        intro b hb
        exact List.idxOf_cons_ne _ hb.symm
      have hne : ∀ {b}, b ∈ rest.eraseDups.filter (fun b => !b == a) → b ≠ a := by
        intro b hb
        simpa using (List.mem_filter.1 hb).2
      rw [herase, List.pairwise_cons]
      refine ⟨fun b hb => ?_, (ih.filter _).imp_of_mem fun {b c} hb hc hbc => ?_⟩
      · rw [List.idxOf_cons_self, hlater (hne hb)]
        exact Nat.succ_pos _
      · rw [hlater (hne hb), hlater (hne hc)]
        exact Nat.succ_lt_succ hbc

namespace Cascade

open GrammarProfile.Grammar (Element Model)
open GrammarProfile.Profile (choiceKey)
open GrammarProfile.Yaml (Value Pairs)
open GrammarProfile.Yaml.Value (Rearranged)

/-! ## Ranks -/

namespace Rank

theorem le_iff {a b : Rank} :
    a.le b = true ↔ a.group < b.group ∨ a.group = b.group ∧ a.position ≤ b.position := by
  simp [le]

theorem le_trans (a b c : Rank) (hab : a.le b = true) (hbc : b.le c = true) :
    a.le c = true := by
  rw [le_iff] at *
  omega

theorem le_total (a b : Rank) : (a.le b || b.le a) = true := by
  rw [Bool.or_eq_true, le_iff, le_iff]
  omega

theorem le_eq_false_iff {a b : Rank} :
    a.le b = false ↔ b.group < a.group ∨ b.group = a.group ∧ b.position < a.position := by
  rw [← Bool.not_eq_true, le_iff]
  omega

end Rank

/-- The children of an element, each with whether the grammar requires it. -/
def childParts (e : Element) : List (String × Bool) := e.children.map fun c => (c.name, c.required)

/-- The attributes of an element, each with whether the grammar requires it. -/
def attributeParts (e : Element) : List (String × Bool) :=
  e.attributes.map fun a => (a.name, a.required)

/-- The names of the parts that are required, or of those that are not, in order. A name that is
given twice counts where it is given first. -/
def namesOf (required : Bool) (parts : List (String × Bool)) : List String :=
  (parts.map Prod.fst).eraseDups.filter fun n => parts.lookup n == some required

/-- The pairs under the names of required parts in the order of the parts, then those under the
names of optional parts, and then all others as they stand. -/
def arranged (parts : List (String × Bool)) (pairs : Pairs) : Pairs :=
  ((namesOf true parts ++ namesOf false parts).flatMap fun n =>
    pairs.filter fun p => p.1.scalarText? == some n) ++
      pairs.filter fun p => !p.1.scalarText?.any fun n => (parts.map Prod.fst).contains n

/-- The rank of a name among parts. -/
def partRank (parts : List (String × Bool)) (n : String) : Rank :=
  match parts.lookup n with
  | some required => .ofPart ((parts.map Prod.fst).idxOf n) required
  | none => .none

section Parts

variable {parts : List (String × Bool)} {n m : String} {required : Bool}

theorem find?_zipIdx (parts : List (String × Bool)) (n : String) (start : Nat) :
    (parts.zipIdx start).find? (fun p => p.1.1 == n) =
      (parts.lookup n).map fun required =>
        ((n, required), start + (parts.map Prod.fst).idxOf n) := by
  induction parts generalizing start with
  | nil => rfl
  | cons p rest ih =>
      obtain ⟨name, required⟩ := p
      rw [List.zipIdx_cons, List.find?_cons, lookup_cons_ite, List.map_cons]
      by_cases h : name = n
      · subst h
        simp
      · have hne : (name == n) = false := by simpa using h
        have hne' : ¬n = name := fun heq => h heq.symm
        rw [hne, ih, if_neg hne', List.idxOf_cons_ne _ h]
        refine congrArg (fun f => (rest.lookup n).map f) (funext fun required => ?_)
        rw [Nat.add_right_comm, Nat.add_assoc]

theorem partRank_eq (parts : List (String × Bool)) (n : String) :
    (match parts.zipIdx.find? fun p => p.1.1 == n with
      | some (p, i) => Rank.ofPart i p.2
      | none => Rank.none) = partRank parts n := by
  rw [find?_zipIdx, partRank]
  cases parts.lookup n with
  | none => rfl
  | some required => simp

theorem childRank_eq (e : Element) : childRank e = partRank (childParts e) := by
  funext n
  rw [← partRank_eq, childParts, List.zipIdx_map, List.find?_map, childRank]
  have hsame : ((fun p : (String × Bool) × Nat => p.1.1 == n) ∘
      Prod.map (fun c : Grammar.Child => (c.name, c.required)) id) = fun c => c.1.name == n := rfl
  rw [hsame]
  cases e.children.zipIdx.find? fun c => c.1.name == n <;> rfl

theorem attributeRank_eq (e : Element) : attributeRank e = partRank (attributeParts e) := by
  funext n
  rw [← partRank_eq, attributeParts, List.zipIdx_map, List.find?_map, attributeRank]
  have hsame : ((fun p : (String × Bool) × Nat => p.1.1 == n) ∘
      Prod.map (fun a : Grammar.Attribute => (a.name, a.required)) id) =
        fun a => a.1.name == n := rfl
  rw [hsame]
  cases e.attributes.zipIdx.find? fun a => a.1.name == n <;> rfl

theorem mem_namesOf : n ∈ namesOf required parts ↔ parts.lookup n = some required := by
  rw [namesOf, List.mem_filter, List.mem_eraseDups, beq_iff_eq]
  refine and_iff_right_of_imp fun h => ?_
  by_contra hn
  rw [lookup_eq_none_iff.2 hn] at h
  cases h

theorem partRank_of_mem (h : n ∈ namesOf required parts) :
    partRank parts n = .ofPart ((parts.map Prod.fst).idxOf n) required := by
  rw [partRank, mem_namesOf.1 h]

theorem partRank_eq_none_iff : partRank parts n = .none ↔ n ∉ parts.map Prod.fst := by
  rw [← lookup_eq_none_iff, partRank]
  cases parts.lookup n with
  | none => simp
  | some required => cases required <;> simp [Rank.ofPart, Rank.none]

/-- Different parts have different ranks. -/
theorem partRank_inj (hn : n ∈ parts.map Prod.fst) (h : partRank parts m = partRank parts n) :
    m = n := by
  have hm : m ∈ parts.map Prod.fst := by
    by_contra hm
    exact absurd hn (partRank_eq_none_iff.1 (h.symm.trans (partRank_eq_none_iff.2 hm)))
  have hsome : ∀ {k}, k ∈ parts.map Prod.fst →
      (partRank parts k).position = (parts.map Prod.fst).idxOf k := by
    intro k hk
    cases hlookup : parts.lookup k with
    | none => exact absurd hk (lookup_eq_none_iff.1 hlookup)
    | some required => rw [partRank, hlookup]; rfl
  have hposition := congrArg Rank.position h
  rw [hsome hm, hsome hn] at hposition
  exact (List.idxOf_inj hm).1 hposition

/-- The names of the parts are ranked in the order in which they are arranged, before all others. -/
theorem pairwise_partRank (parts : List (String × Bool)) :
    ((namesOf true parts ++ namesOf false parts).map (partRank parts) ++ [Rank.none]).Pairwise
      fun a b => b.le a = false := by
  have hnames : ∀ required, (namesOf required parts).Pairwise fun a b =>
      (partRank parts b).le (partRank parts a) = false := by
    intro required
    have hpositions := (Text.pairwise_eraseDups (parts.map Prod.fst)).filter fun n =>
      parts.lookup n == some required
    refine hpositions.imp_of_mem fun {a b} ha hb hab => ?_
    rw [partRank_of_mem ha, partRank_of_mem hb, Rank.le_eq_false_iff]
    exact .inr ⟨rfl, hab⟩
  have hsections : ∀ a ∈ namesOf true parts, ∀ b ∈ namesOf false parts,
      (partRank parts b).le (partRank parts a) = false := by
    intro a ha b hb
    rw [partRank_of_mem ha, partRank_of_mem hb, Rank.le_eq_false_iff]
    exact .inl Nat.zero_lt_one
  have hothers : ∀ a ∈ namesOf true parts ++ namesOf false parts,
      Rank.none.le (partRank parts a) = false := by
    intro a ha
    rcases List.mem_append.1 ha with ha | ha
    · rw [partRank_of_mem ha, Rank.le_eq_false_iff]
      exact .inl Nat.zero_lt_two
    · rw [partRank_of_mem ha, Rank.le_eq_false_iff]
      exact .inl Nat.one_lt_two
  refine List.pairwise_append.2 ⟨List.pairwise_map.2 ?_, List.pairwise_singleton _ _, ?_⟩
  · exact List.pairwise_append.2 ⟨hnames true, hnames false, hsections⟩
  · intro r hr other hother
    obtain ⟨a, ha, rfl⟩ := List.mem_map.1 hr
    rw [List.mem_singleton.1 hother]
    exact hothers a ha

theorem mem_namesOf_append :
    n ∈ namesOf true parts ++ namesOf false parts ↔ n ∈ parts.map Prod.fst := by
  rw [List.mem_append, mem_namesOf, mem_namesOf, ← not_iff_not, ← lookup_eq_none_iff]
  cases parts.lookup n with
  | none => simp
  | some required => cases required <;> simp

/-- Sorting by rank arranges pairs as the parts are listed. -/
theorem sortByRank_eq_arranged (parts : List (String × Bool)) (pairs : Pairs) :
    sortByRank (partRank parts) pairs = arranged parts pairs := by
  have hkeyed : ∀ p : Value × Value, (p.1.scalarText?.map (partRank parts)).getD .none ∈
      (namesOf true parts ++ namesOf false parts).map (partRank parts) ++ [Rank.none] := by
    intro p
    cases p.1.scalarText? with
    | none => exact List.mem_append_right _ List.mem_cons_self
    | some n =>
        by_cases hn : n ∈ parts.map Prod.fst
        · exact List.mem_append_left _ (List.mem_map_of_mem (mem_namesOf_append.2 hn))
        · exact List.mem_append_right _ (List.mem_singleton.2 (partRank_eq_none_iff.2 hn))
  unfold sortByRank arranged
  rw [mergeSort_eq_flatMap Rank.le_trans Rank.le_total (pairwise_partRank parts)
    fun p _ => hkeyed p, List.flatMap_append, List.flatMap_map, List.flatMap_singleton]
  refine congrArg₂ _ (List.flatMap_congr fun n hn => ?_) ?_
  · refine List.filter_congr fun p _ => ?_
    have hmem := mem_namesOf_append.1 hn
    rw [Bool.eq_iff_iff, decide_eq_true_eq, beq_iff_eq]
    cases p.1.scalarText? with
    | none => exact iff_of_false (fun h => partRank_eq_none_iff.1 h.symm hmem) nofun
    | some m =>
        rw [Option.map_some, Option.getD_some, Option.some.injEq]
        exact ⟨partRank_inj hmem, fun h => by rw [h]⟩
  · refine List.filter_congr fun p _ => ?_
    rw [Bool.eq_iff_iff, decide_eq_true_eq]
    cases p.1.scalarText? with
    | none => exact iff_of_true rfl rfl
    | some m =>
        rw [Option.map_some, Option.getD_some, partRank_eq_none_iff]
        simp

end Parts

/-! ## Children and attributes -/

section Sections

variable {grammar : Model} {name : String} {e : Element} {children attributes : Pairs}

@[simp] theorem sortByRank_sortByRank (rank : String → Rank) (pairs : Pairs) :
    sortByRank rank (sortByRank rank pairs) = sortByRank rank pairs := by
  refine List.mergeSort_of_pairwise (List.pairwise_mergeSort (fun a b c => ?_) (fun a b => ?_) pairs)
  · exact Rank.le_trans _ _ _
  · exact Rank.le_total _ _

theorem editMapping_editMapping {f : Pairs → Pairs} (h : ∀ pairs, f (f pairs) = f pairs)
    (v : Value) : editMapping f (editMapping f v) = editMapping f v := by
  cases v with
  | mapping pairs => exact congrArg Value.mapping (h pairs)
  | _ => rfl

theorem reorderAttributes_eq (he : grammar.element? name = some e) (attributes : Pairs) :
    reorderAttributes grammar name attributes = arranged (attributeParts e) attributes := by
  unfold reorderAttributes
  rw [he, ← sortByRank_eq_arranged, ← attributeRank_eq]

/-- An element that the grammar does not know has no order. -/
theorem reorder_of_unknown (h : grammar.element? name = none) (children attributes : Pairs) :
    reorderChildren grammar name children = children ∧
      reorderAttributes grammar name attributes = attributes := by
  unfold reorderChildren reorderAttributes
  rw [h]
  exact ⟨rfl, rfl⟩

theorem isChoiceKey_eq (h : children.Keyed) {p : Value × Value} (hp : p ∈ children) :
    isChoiceKey p.1 = Pairs.isKey choiceKey p.1 := by
  obtain ⟨n, hn⟩ := h.textual p hp
  rw [hn, Bool.eq_iff_iff, Pairs.isKey_iff]
  simp [isChoiceKey, Value.string?, Value.untagged]

/-- The one choice among some children is what is found under its key. -/
theorem getLast?_choice (h : children.Keyed) :
    (children.filter fun p => isChoiceKey p.1).getLast? =
      (Pairs.get? children choiceKey).map fun v => (Value.string choiceKey, v) := by
  have hget : Pairs.get? children choiceKey =
      (children.filter fun p => isChoiceKey p.1).head?.map Prod.snd := by
    rw [List.head?_filter, Pairs.get?, List.find?_congr fun p hp => isChoiceKey_eq h hp]
  have hstring : ∀ p ∈ children.filter fun p => isChoiceKey p.1, p.1 = .string choiceKey := by
    intro p hp
    obtain ⟨hp, hchoice⟩ := List.mem_filter.1 hp
    exact Pairs.isKey_iff.1 ((isChoiceKey_eq h hp).symm.trans hchoice)
  have hone := length_choices_le_one h
  rw [hget]
  generalize children.filter (fun p => isChoiceKey p.1) = choices at hstring hone
  cases choices with
  | nil => rfl
  | cons p rest =>
      cases rest with
      | nil =>
          obtain ⟨key, v⟩ := p
          obtain rfl : key = .string choiceKey := hstring (key, v) List.mem_cons_self
          rfl
      | cons q rest => exact absurd hone (by simp)

/-- The children of an element and, at the end, its choice. -/
theorem reorderChildren_eq_arranged (he : grammar.element? name = some e) (h : children.Keyed) :
    reorderChildren grammar name children =
      arranged (childParts e) (Pairs.erase children choiceKey) ++
        ((Pairs.get? children choiceKey).map fun v =>
          (Value.string choiceKey, editMapping (arranged (childParts e)) v)).toList := by
  have hplain : (children.filter fun p => !isChoiceKey p.1) = Pairs.erase children choiceKey :=
    List.filter_congr fun p hp => by rw [isChoiceKey_eq h hp]
  have hsort : sortByRank (childRank e) = arranged (childParts e) := by
    rw [childRank_eq]
    exact funext (sortByRank_eq_arranged _)
  have hkey : isChoiceKey (.string choiceKey) = true := by decide
  rw [reorderChildren_eq he, getLast?_choice h, hplain, hsort]
  refine congrArg _ ?_
  cases Pairs.get? children choiceKey with
  | none => rfl
  | some v =>
      rw [Option.map_some, Option.map_some, Option.toList_some, Option.toList_some,
        List.map_singleton, sortedChoice, if_pos hkey, hsort]

/-- Children in order stay where they are. -/
theorem reorderChildren_twice (grammar : Model) (name : String) (children : Pairs) :
    reorderChildren grammar name (reorderChildren grammar name children) =
      reorderChildren grammar name children := by
  cases he : grammar.element? name with
  | none => rw [(reorder_of_unknown he children []).1, (reorder_of_unknown he children []).1]
  | some e =>
      rw [reorderChildren_eq he, reorderChildren_eq he]
      generalize hplain : sortByRank (childRank e) (children.filter fun p => !isChoiceKey p.1) =
        plain
      generalize hchoice : ((children.filter fun p => isChoiceKey p.1).getLast?.toList.map fun p =>
        (p.1, sortedChoice (childRank e) p)) = choice
      have hnone : ∀ p ∈ plain, isChoiceKey p.1 = false := by
        rw [← hplain]
        intro p hp
        simpa using (List.mem_filter.1 ((sortByRank_perm _ _).mem_iff.1 hp)).2
      have hall : ∀ p ∈ choice, isChoiceKey p.1 = true ∧ sortedChoice (childRank e) p = p.2 := by
        rw [← hchoice]
        intro p hp
        obtain ⟨q, hq, rfl⟩ := List.mem_map.1 hp
        have hkey := (List.mem_filter.1 (List.mem_of_getLast? (Option.mem_toList.1 hq))).2
        refine ⟨hkey, ?_⟩
        unfold sortedChoice
        rw [if_pos hkey, if_pos hkey]
        exact editMapping_editMapping (sortByRank_sortByRank _) _
      have hlast : choice.getLast?.toList = choice := by
        refine toList_getLast? ?_
        rw [← hchoice, List.length_map]
        cases (children.filter fun p => isChoiceKey p.1).getLast? <;> simp
      have hfirst : (plain ++ choice).filter (fun p => !isChoiceKey p.1) = plain := by
        rw [List.filter_append, List.filter_eq_self.2 fun p hp => by rw [hnone p hp]; rfl,
          List.filter_eq_nil_iff.2 fun p hp => by rw [(hall p hp).1]; decide, List.append_nil]
      have hsecond : (plain ++ choice).filter (fun p => isChoiceKey p.1) = choice := by
        rw [List.filter_append, List.filter_eq_nil_iff.2 fun p hp => by rw [hnone p hp]; decide,
          List.filter_eq_self.2 fun p hp => (hall p hp).1, List.nil_append]
      have hsorted : sortByRank (childRank e) plain = plain := by
        rw [← hplain, sortByRank_sortByRank]
      have hkept : (choice.map fun p => (p.1, sortedChoice (childRank e) p)) = choice := by
        nth_rewrite 2 [← List.map_id choice]
        exact List.map_congr_left fun p hp => by rw [(hall p hp).2]; rfl
      rw [hfirst, hsecond, hsorted, hlast, hkept]

theorem reorderAttributes_twice (grammar : Model) (name : String) (attributes : Pairs) :
    reorderAttributes grammar name (reorderAttributes grammar name attributes) =
      reorderAttributes grammar name attributes := by
  unfold reorderAttributes
  split
  · rfl
  · exact sortByRank_sortByRank _ _

/-- Children and attributes are arranged as the grammar lists them, what is required first and what
it does not know last; the choice comes after all other children, with its members arranged in the
same way. All pairs are kept, a second time changes nothing, and for an unknown element nothing
changes at all. -/
theorem reorder_arranges (grammar : Model) (name : String) (hchildren : children.Keyed)
    (attributes : Pairs) :
    (∀ e, grammar.element? name = some e →
      reorderChildren grammar name children =
        arranged (childParts e) (Pairs.erase children choiceKey) ++
          ((Pairs.get? children choiceKey).map fun v =>
            (Value.string choiceKey, editMapping (arranged (childParts e)) v)).toList ∧
      reorderAttributes grammar name attributes = arranged (attributeParts e) attributes) ∧
    Rearranged (.mapping children) (.mapping (reorderChildren grammar name children)) ∧
    (reorderAttributes grammar name attributes).Perm attributes ∧
    reorderChildren grammar name (reorderChildren grammar name children) =
      reorderChildren grammar name children ∧
    reorderAttributes grammar name (reorderAttributes grammar name attributes) =
      reorderAttributes grammar name attributes ∧
    (grammar.hasElement name = false → reorderChildren grammar name children = children ∧
      reorderAttributes grammar name attributes = attributes) := by
  refine ⟨fun e he => ?_, ?_, ?_, ?_, ?_, fun hunknown => ?_⟩
  · exact ⟨reorderChildren_eq_arranged he hchildren, reorderAttributes_eq he attributes⟩
  · exact (rearranged_reorderChildren_iff children).2 fun _ => length_choices_le_one hchildren
  · exact reorderAttributes_perm grammar name attributes
  · exact reorderChildren_twice grammar name children
  · exact reorderAttributes_twice grammar name attributes
  · refine reorder_of_unknown (Option.eq_none_iff_forall_ne_some.2 fun e he => ?_) _ _
    rw [Model.hasElement_iff.2 ⟨e, he⟩] at hunknown
    cases hunknown

/-- A chapter has a part and may have a title and a note. -/
def chapterGrammar : Model where
  elements := ⟨[("chapter", ⟨"chapter", "Chapter", none, [],
    [⟨"title", .zero, some .one, []⟩, ⟨"part", .one, none, []⟩, ⟨"note", .zero, none, []⟩],
    [⟨"lang", false, none, none, none, none⟩, ⟨"id", true, none, none, none, none⟩], [], ""⟩)],
    List.nodup_singleton _⟩
  enums := ∅
  root := none

def chapterChildren : Pairs :=
  [(.string "z", .null), (.string choiceKey, .mapping [(.string "y", .null), (.string "note", .null),
    (.string "part", .null)]), (.string "note", .null), (.string "a", .null),
    (.string "part", .string "1..*"), (.string "title", .null)]

theorem reorder_chapter : chapterChildren.Keyed ∧
    reorderChildren chapterGrammar "chapter" chapterChildren =
      [(.string "part", .string "1..*"), (.string "title", .null), (.string "note", .null),
        (.string "z", .null), (.string "a", .null), (.string choiceKey,
          .mapping [(.string "part", .null), (.string "note", .null), (.string "y", .null)])] ∧
    reorderAttributes chapterGrammar "chapter"
        [(.string "x", .null), (.string "lang", .null), (.string "id", .null)] =
      [(.string "id", .null), (.string "lang", .null), (.string "x", .null)] := by
  have hkeyed : chapterChildren.Keyed := by
    refine ⟨?_, by decide⟩
    simp [chapterChildren]
  obtain ⟨harranged, _⟩ := reorder_arranges chapterGrammar "chapter" hkeyed
    [(.string "x", .null), (.string "lang", .null), (.string "id", .null)]
  obtain ⟨hchildren, hattributes⟩ := harranged _ rfl
  exact ⟨hkeyed, hchildren.trans rfl, hattributes.trans rfl⟩

end Sections

end Cascade

end GrammarProfile
