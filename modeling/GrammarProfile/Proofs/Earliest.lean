import GrammarProfile.Proofs.Cycles
import GrammarProfile.Proofs.Order

/-!
Where no name is below itself, an arrangement is the first in the dictionary of all orders that
put parents before their children.
-/
namespace GrammarProfile

theorem Text.nameSet_of_sorted {names : List String} (h : names.Pairwise (· < ·)) :
    nameSet names = names := by
  have hnodup : names.Nodup := by
    refine h.imp fun hab => ?_
    rintro rfl
    exact String.lt_irrefl _ hab
  rw [nameSet, eraseDups_of_nodup hnodup]
  refine List.mergeSort_of_pairwise (h.imp fun hab => ?_)
  exact nameLE_iff.2 (String.not_lt.1 fun hba => String.lt_irrefl _ (String.lt_trans hab hba))

namespace Cascade

open GrammarProfile.Grammar (Model)
open GrammarProfile.Profile (choiceKey)
open GrammarProfile.Yaml (Value Pairs)
open Relation (TransGen)

/-- An order of names in which none stands before one of its parents; a root without parents comes
first. -/
structure Arranged (root : Option String) (names : List String) (parent : String → String → Prop)
    (order : List String) : Prop where
  perm : order.Perm names
  parents : order.Pairwise fun a b => ¬parent b a
  head : ∀ r, root = some r → r ∈ names → (∀ a, ¬parent a r) → order.head? = some r

/-- The first of these orders, compared name by name and these by code points. -/
structure Earliest (root : Option String) (names : List String) (parent : String → String → Prop)
    (order : List String) : Prop extends Arranged root names parent order where
  least : ∀ other, Arranged root names parent other →
    order = other ∨ List.Lex (· < ·) order other

section Relabel

variable {root : Option String} {names names' order : List String}
  {parent parent' : String → String → Prop}

theorem Arranged.congr (hnames : names.Perm names') (hparent : ∀ a b, parent a b ↔ parent' a b)
    (h : Arranged root names parent order) : Arranged root names' parent' order := by
  refine ⟨h.perm.trans hnames, h.parents.imp fun hab hba => hab ((hparent _ _).2 hba), ?_⟩
  intro r hr hin hfree
  exact h.head r hr (hnames.mem_iff.2 hin) fun a ha => hfree a ((hparent _ _).1 ha)

theorem Earliest.congr (hnames : names.Perm names') (hparent : ∀ a b, parent a b ↔ parent' a b)
    (h : Earliest root names parent order) : Earliest root names' parent' order := by
  refine ⟨h.toArranged.congr hnames hparent, fun other hother => h.least other ?_⟩
  exact hother.congr hnames.symm fun a b => (hparent a b).symm

theorem Arranged.of_none (h : Arranged none names parent order)
    (hroot : ∀ r, root = some r → r ∈ names → (∀ a, ¬parent a r) → order.head? = some r) :
    Arranged root names parent order := ⟨h.perm, h.parents, hroot⟩

theorem Arranged.to_none (h : Arranged root names parent order) :
    Arranged none names parent order := ⟨h.perm, h.parents, nofun⟩

end Relabel

/-! ## Names that wait for their parents -/

/-- Waiting names of which none is below itself. -/
structure Orderly (waiting : List Waiting) : Prop extends Queued waiting where
  acyclic : ∀ n, ¬TransGen (Awaits waiting) n n

section Orderly

variable {waiting : List Waiting} {order rest : List String} {n : String}

theorem Orderly.after_place (h : Orderly waiting) (n : String) : Orderly (place n waiting) :=
  ⟨h.toQueued.after_place n, fun m hm =>
    h.acyclic m (TransGen.mono (fun _ _ hab => (awaits_place_iff.1 hab).1) m m hm)⟩

/-- Where none is below itself, some name has no parents. -/
theorem Orderly.exists_free (h : Orderly waiting) (hne : waiting ≠ []) :
    ∃ w ∈ waiting, w.parents = [] := by
  by_contra hnone
  obtain ⟨first, hfirst⟩ := List.exists_mem_of_ne_nil waiting hne
  obtain ⟨c, hc, _⟩ := h.belowCycle (fun w hw hnil => hnone ⟨w, hw, hnil⟩) first.name
    (List.mem_map_of_mem hfirst)
  exact h.acyclic c hc

theorem Orderly.free_iff (h : Orderly waiting) {w : Waiting} (hw : w ∈ waiting) :
    (∀ a, ¬Awaits waiting a w.name) ↔ w.parents = [] := by
  constructor
  · intro hfree
    exact List.eq_nil_iff_forall_not_mem.2 fun a ha => hfree a ⟨w, hw, rfl, ha⟩
  · exact h.not_awaits hw

/-- Some name without parents comes first, and then an order of the others. -/
theorem Orderly.arranged_cons_iff (h : Orderly waiting) :
    Arranged none (waiting.map (·.name)) (Awaits waiting) (n :: rest) ↔
      (n ∈ waiting.map (·.name) ∧ ∀ a, ¬Awaits waiting a n) ∧
        Arranged none ((place n waiting).map (·.name)) (Awaits (place n waiting)) rest := by
  constructor
  · intro harranged
    have hn := harranged.perm.mem_iff.1 List.mem_cons_self
    obtain ⟨hfirst, hrest⟩ := List.pairwise_cons.1 harranged.parents
    refine ⟨⟨hn, fun a ha => ?_⟩, ?_, ?_, nofun⟩
    · rcases List.mem_cons.1 (harranged.perm.mem_iff.2 (h.closed a n ha)) with rfl | hin
      · exact h.acyclic a (.single ha)
      · exact hfirst a hin ha
    · rw [names_place]
      exact (harranged.perm.trans (perm_place h.nodup hn).symm).cons_inv
    · exact hrest.imp fun hab hba => hab (awaits_place_iff.1 hba).1
  · rintro ⟨⟨hn, hfree⟩, hrest⟩
    have hperm := hrest.perm
    rw [names_place] at hperm
    have hne : ∀ a ∈ rest, a ≠ n := by
      intro a ha
      simpa using (List.mem_filter.1 (hperm.mem_iff.1 ha)).2
    refine ⟨(hperm.cons n).trans (perm_place h.nodup hn), ?_, nofun⟩
    refine List.pairwise_cons.2 ⟨fun b _ => hfree b, ?_⟩
    refine hrest.parents.imp_of_mem fun ha hb hab hba => hab ?_
    exact awaits_place_iff.2 ⟨hba, hne _ hb, hne _ ha⟩

/-- The first name found to have no parents is the least of those that have none. -/
theorem Orderly.le_of_find? (h : Orderly waiting) {w v : Waiting}
    (hfind : waiting.find? (fun w => w.parents.isEmpty) = some w) (hv : v ∈ waiting)
    (hfree : v.parents = []) : w.name = v.name ∨ w.name < v.name := by
  obtain ⟨_, before, after, rfl, hbefore⟩ := List.find?_eq_some_iff_append.1 hfind
  rcases List.mem_append.1 hv with hv | hv
  · have := hbefore v hv
    simp [hfree] at this
  · rcases List.mem_cons.1 hv with rfl | hv
    · exact .inl rfl
    · have hsorted := h.sorted
      rw [List.map_append, List.map_cons] at hsorted
      have hafter := (List.pairwise_cons.1 (List.pairwise_append.1 hsorted).2.1).1
      exact .inr (hafter v.name (List.mem_map_of_mem hv))

/-- By induction on the names still to be placed: placing one keeps the others orderly, and any
other order has to begin with a name without parents, too. -/
theorem Orderly.earliest_arrange {fuel : ℕ} (h : Orderly waiting) (hfuel : waiting.length ≤ fuel) :
    Earliest none (waiting.map (·.name)) (Awaits waiting) (arrange fuel waiting) := by
  induction fuel generalizing waiting with
  | zero =>
      obtain rfl := List.length_eq_zero_iff.1 (Nat.le_zero.1 hfuel)
      refine ⟨⟨.refl _, .nil, nofun⟩, fun other hother => .inl ?_⟩
      exact (List.perm_nil.1 hother.perm).symm
  | succ fuel ih =>
      unfold arrange
      split
      · next w hfind =>
          have hw := List.mem_of_find?_eq_some hfind
          have hname := List.mem_map_of_mem (f := (·.name)) hw
          have hfree : w.parents = [] := by simpa using List.find?_some hfind
          have hlength := length_place h.nodup hname
          have hrest := ih (h.after_place w.name) (by omega)
          refine ⟨h.arranged_cons_iff.2 ⟨⟨hname, (h.free_iff hw).2 hfree⟩, hrest.toArranged⟩, ?_⟩
          intro other hother
          cases other with
          | nil =>
              rw [← hother.perm.mem_iff] at hname
              exact absurd hname List.not_mem_nil
          | cons m more =>
              obtain ⟨⟨hm, hfirst⟩, hmore⟩ := h.arranged_cons_iff.1 hother
              obtain ⟨v, hv, rfl⟩ := List.mem_map.1 hm
              rcases h.le_of_find? hfind hv ((h.free_iff hv).1 hfirst) with heq | hlt
              · rw [← heq] at hmore ⊢
                rcases hrest.least more hmore with rfl | hlex
                · exact .inl rfl
                · exact .inr (.cons hlex)
              · exact .inr (.rel hlt)
      · next hfind =>
          have hnil : waiting = [] := by
            by_contra hne
            obtain ⟨w, hw, hfree⟩ := h.exists_free hne
            have := List.find?_eq_none.1 hfind w hw
            simp [hfree] at this
          subst hnil
          refine ⟨⟨.refl _, .nil, nofun⟩, fun other hother => .inl ?_⟩
          exact (List.perm_nil.1 hother.perm).symm

end Orderly

/-! ## Edges -/

/-- An edge between two of the names, the parent first. -/
def Leads (edges : List (String × List String)) (a b : String) : Prop :=
  b ∈ edges.map Prod.fst ∧ ∃ listed, (a, listed) ∈ edges ∧ b ∈ listed

section Edges

variable {edges : List (String × List String)} {root : Option String}

theorem awaits_waitingOf_iff {a b : String} : Awaits (waitingOf edges) a b ↔ Leads edges a b := by
  unfold Awaits waitingOf Leads
  simp only [List.mem_map, Text.mem_nameSet]
  constructor
  · rintro ⟨_, ⟨name, hname, rfl⟩, rfl, ha⟩
    obtain ⟨⟨_, listed⟩, he, rfl⟩ := List.mem_map.1 ha
    obtain ⟨he, hlisted⟩ := List.mem_filter.1 he
    exact ⟨hname, listed, he, by simpa using hlisted⟩
  · rintro ⟨hname, listed, he, hlisted⟩
    refine ⟨_, ⟨b, hname, rfl⟩, rfl, List.mem_map.2 ⟨(a, listed), ?_, rfl⟩⟩
    exact List.mem_filter.2 ⟨he, by simpa using hlisted⟩

theorem queued_waitingOf (edges : List (String × List String)) : Queued (waitingOf edges) := by
  refine ⟨?_, fun a b hab => ?_⟩
  · rw [names_waitingOf]
    have hnodup := Text.nodup_nameSet (edges.map Prod.fst)
    refine ((Text.pairwise_nameSet _).and hnodup).imp fun hab => ?_
    exact String.not_le.1 fun hba => hab.2 (String.le_antisymm hab.1 hba)
  · obtain ⟨_, listed, he, _⟩ := awaits_waitingOf_iff.1 hab
    rw [names_waitingOf, Text.mem_nameSet]
    exact List.mem_map_of_mem (f := Prod.fst) he

theorem orderly_waitingOf (hacyclic : ∀ n, ¬TransGen (Leads edges) n n) :
    Orderly (waitingOf edges) := by
  have hsame : Awaits (waitingOf edges) = Leads edges := by
    funext a b
    exact propext awaits_waitingOf_iff
  exact ⟨queued_waitingOf edges, by rwa [hsame]⟩

/-- A root without parents is placed ahead of all names; the others follow as they would. -/
theorem earliest_arrangement (hacyclic : ∀ n, ¬TransGen (Leads edges) n n) :
    Earliest root (Text.nameSet (edges.map Prod.fst)) (Leads edges) (arrangement root edges) := by
  have h := orderly_waitingOf hacyclic
  rw [← names_waitingOf]
  refine Earliest.congr (.refl _) (fun a b => awaits_waitingOf_iff) ?_
  have hplain := h.earliest_arrange (Nat.le_refl _)
  unfold arrangement
  generalize waitingOf edges = waiting at h hplain
  cases root with
  | none => exact hplain
  | some r =>
      dsimp only
      by_cases hroot : ∃ w ∈ waiting, w.name = r ∧ w.parents = []
      · obtain ⟨w, hw, rfl, hfree⟩ := hroot
        have hname := List.mem_map_of_mem (f := (·.name)) hw
        have hparents := (h.free_iff hw).2 hfree
        have hlength := length_place h.nodup hname
        have hfuel : (place w.name waiting).length ≤ waiting.length := by omega
        have hrest := (h.after_place w.name).earliest_arrange hfuel
        have hany : (waiting.any fun v => v.name == w.name && v.parents.isEmpty) = true :=
          List.any_eq_true.2 ⟨w, hw, by simp [hfree]⟩
        rw [if_pos hany]
        refine ⟨(h.arranged_cons_iff.2 ⟨⟨hname, hparents⟩, hrest.toArranged⟩).of_none ?_, ?_⟩
        · rintro r hr _ _
          exact hr
        · intro other hother
          obtain ⟨more, rfl⟩ := List.head?_eq_some_iff.1 (hother.head _ rfl hname hparents)
          obtain ⟨_, hmore⟩ := h.arranged_cons_iff.1 hother.to_none
          rcases hrest.least more hmore with rfl | hlex
          · exact .inl rfl
          · exact .inr (.cons hlex)
      · have hany : ¬(waiting.any fun v => v.name == r && v.parents.isEmpty) = true := by
          intro hany
          obtain ⟨w, hw, hr⟩ := List.any_eq_true.1 hany
          exact hroot ⟨w, hw, by simpa using hr⟩
        rw [if_neg hany]
        refine ⟨hplain.toArranged.of_none ?_, fun other hother => hplain.least _ hother.to_none⟩
        intro r hr hin hfree
        obtain rfl := Option.some.inj hr
        obtain ⟨w, hw, rfl⟩ := List.mem_map.1 hin
        exact absurd ⟨w, hw, rfl, (h.free_iff hw).1 hfree⟩ hroot

end Edges

/-! ## Entries of a profile -/

/-- A name is declared in an entry: as a key of its children, or of the choice that stands among
them. Tags around a mapping do not count. -/
def DeclaredIn (entry : Value) (m : String) : Prop :=
  ∃ fields v children, entry.pairs? = some fields ∧ Pairs.get? fields "children" = some v ∧
    v.pairs? = some children ∧ (m ≠ choiceKey ∧ m ∈ Pairs.names children ∨
      ∃ p ∈ children, p.1.scalarText? = some choiceKey ∧
        ∃ members, p.2.pairs? = some members ∧ m ∈ Pairs.names members)

/-- There are entries `a` and `b`, and the former declares the latter. -/
def Declares (elements : Pairs) (a b : String) : Prop :=
  b ∈ Pairs.names elements ∧ ∃ v, Pairs.get? elements a = some v ∧ DeclaredIn v b

section Entries

variable {elements : Pairs} {entry : Value} {a b m : String}

theorem mem_childReferences : m ∈ Tree.childReferences entry ↔ DeclaredIn entry m := by
  unfold Tree.childReferences DeclaredIn
  cases hfields : entry.pairs? with
  | none => simp
  | some fields =>
      cases hv : Pairs.get? fields "children" with
      | none => simp [hv]
      | some v =>
          cases hchildren : v.pairs? with
          | none => simp [hv, hchildren]
          | some children => simp [hv, hchildren, mem_declaredIn]

theorem leads_references_iff (h : elements.Keyed) :
    Leads (Tree.references elements) a b ↔ Declares elements a b := by
  unfold Leads Declares
  rw [map_fst_references]
  refine and_congr_right fun _ => ?_
  simp only [mem_references_iff h, ← mem_childReferences]
  constructor
  · rintro ⟨_, ⟨v, hv, rfl⟩, hb⟩
    exact ⟨v, hv, hb⟩
  · rintro ⟨v, hv, hb⟩
    exact ⟨_, ⟨v, hv, rfl⟩, hb⟩

end Entries

/-- Where the entries declare no cycle, their canonical order is the first of all that put parents
before their children, and the root of the grammar before all if nothing declares it. -/
theorem elementOrder_earliest (grammar : Model) {elements : Pairs} (h : elements.Keyed)
    (hacyclic : ∀ n, ¬TransGen (Declares elements) n n) :
    Earliest grammar.root (Pairs.names elements) (Declares elements)
      (elementOrder grammar elements) := by
  have hleads : Leads (Tree.references elements) = Declares elements := by
    funext a b
    exact propext (leads_references_iff h)
  have hnames : (Text.nameSet ((Tree.references elements).map Prod.fst)).Perm
      (Pairs.names elements) := by
    rw [map_fst_references, Text.nameSet, Text.eraseDups_of_nodup h.distinct]
    exact List.mergeSort_perm _ _
  refine Earliest.congr hnames (fun a b => leads_references_iff h) ?_
  exact earliest_arrangement (by rwa [hleads])

/-- A grammar that says nothing but that its root is a book. -/
def volumeGrammar : Model := ⟨∅, ∅, some "book"⟩

/-- Parts of a book; a part is a child of it and a member of its choice as well. -/
def volumeEntries : Pairs :=
  let children (pairs : Pairs) : Value := .mapping [(.string "children", .mapping pairs)]
  [(.string "text", .null), (.string "part", children [(.string "text", .null)]),
    (.string "appendix", .null),
    (.string "book", children [(.string "part", .null), (.string "cover", .null),
      (.string "choice", .mapping [(.string "part", .null), (.string "index", .null)])]),
    (.string "cover", children [(.string "text", .null)])]

/-- No name is below itself where children have higher ranks than their parents. -/
theorem acyclic_of_rank {parent : String → String → Prop} (rank : String → ℕ)
    (h : ∀ a b, parent a b → rank a < rank b) (n : String) : ¬TransGen parent n n := by
  have hlt : ∀ a b, TransGen parent a b → rank a < rank b := by
    intro a b hab
    induction hab with
    | single hab => exact h _ _ hab
    | tail _ hbc ih => exact ih.trans (h _ _ hbc)
  exact fun hn => Nat.lt_irrefl _ (hlt n n hn)

/-- Names that list others, before those that they list. -/
def volumeLevels : List String := ["book", "cover", "part", "text"]

theorem elementOrder_volume : volumeEntries.Keyed ∧
    (∀ n, ¬TransGen (Declares volumeEntries) n n) ∧
    elementOrder volumeGrammar volumeEntries = ["book", "appendix", "cover", "part", "text"] ∧
    Earliest (some "book") (Pairs.names volumeEntries) (Declares volumeEntries)
      (elementOrder volumeGrammar volumeEntries) := by
  have hkeyed : volumeEntries.Keyed := ⟨by simp [volumeEntries], by decide⟩
  have hacyclic : ∀ n, ¬TransGen (Declares volumeEntries) n n := by
    have hrank : ∀ e ∈ Tree.references volumeEntries, ∀ b ∈ e.2, b ∈ Pairs.names volumeEntries →
        volumeLevels.idxOf e.1 < volumeLevels.idxOf b := by decide
    refine acyclic_of_rank (volumeLevels.idxOf ·) fun a b hab => ?_
    obtain ⟨hb, listed, he, hlisted⟩ := (leads_references_iff hkeyed).2 hab
    exact hrank (a, listed) he b hlisted (by rwa [map_fst_references] at hb)
  have hnames : Text.nameSet ((Tree.references volumeEntries).map Prod.fst) =
      ["appendix", "book", "cover", "part", "text"] := by
    rw [map_fst_references]
    refine (Text.nameSet_congr fun n => ?_).trans (Text.nameSet_of_sorted (by decide))
    simp [volumeEntries, Pairs.names, Value.scalarText?, or_comm, or_left_comm]
  have horder : elementOrder volumeGrammar volumeEntries =
      ["book", "appendix", "cover", "part", "text"] := by
    unfold elementOrder arrangement waitingOf
    rw [hnames]
    rfl
  exact ⟨hkeyed, hacyclic, horder, elementOrder_earliest volumeGrammar hkeyed hacyclic⟩

end Cascade

end GrammarProfile
