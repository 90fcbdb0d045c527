import GrammarProfile.Proofs.Earliest

/-!
Where entries declare cycles, all that lies on a cycle or below one comes last, in code point
order. Every other entry comes before the entries that it declares.
-/
namespace GrammarProfile.Cascade

open GrammarProfile.Grammar (Model)
open GrammarProfile.Yaml (Value Pairs)
open Relation (ReflTransGen)

/-- The first of two names stands before the second. -/
def Precedes (order : List String) (a b : String) : Prop := order.idxOf a < order.idxOf b

/-- Parents come before their children, except below cycles: there the code points decide. -/
def CyclesLast (parent : String → String → Prop) (order : List String) : Prop :=
  ∀ a b, parent a b → (Precedes order a b ↔ ¬BelowCycle parent a ∨ a < b)

section Precedes

variable {order : List String} {a b n : String}

theorem precedes_cons_self (hb : b ≠ n) : Precedes (n :: order) n b := by
  unfold Precedes
  rw [List.idxOf_cons_self, List.idxOf_cons_ne _ hb.symm]
  exact Nat.succ_pos _

theorem precedes_cons_iff (ha : a ≠ n) (hb : b ≠ n) :
    Precedes (n :: order) a b ↔ Precedes order a b := by
  unfold Precedes
  rw [List.idxOf_cons_ne _ ha.symm, List.idxOf_cons_ne _ hb.symm, Nat.succ_lt_succ_iff]

theorem precedes_sorted_iff (h : order.Pairwise (· < ·)) (ha : a ∈ order) (hb : b ∈ order) :
    Precedes order a b ↔ a < b := by
  have hlt : ∀ {x y}, x ∈ order → y ∈ order → Precedes order x y → x < y := by
    intro x y hx hy hxy
    have hsorted := List.pairwise_iff_getElem.1 h _ _ (List.idxOf_lt_length_of_mem hx)
      (List.idxOf_lt_length_of_mem hy) hxy
    rwa [List.getElem_idxOf, List.getElem_idxOf] at hsorted
  refine ⟨hlt ha hb, fun hab => ?_⟩
  rcases Nat.lt_trichotomy (order.idxOf a) (order.idxOf b) with hbefore | hsame | hafter
  · exact hbefore
  · obtain rfl := (List.idxOf_inj ha).1 hsame
    exact absurd hab (String.lt_irrefl a)
  · exact absurd (String.lt_trans hab (hlt hb ha hafter)) (String.lt_irrefl a)

end Precedes

section Queued

variable {waiting : List Waiting} {rest : List String} {w : Waiting}

/-- A name without parents may come first: it is below no cycle, and the others keep their
places. -/
theorem Queued.cyclesLast_cons (h : Queued waiting) (hw : w ∈ waiting) (hfree : w.parents = [])
    (hrest : CyclesLast (Awaits (place w.name waiting)) rest) :
    CyclesLast (Awaits waiting) (w.name :: rest) := by
  have hnone := h.not_awaits hw hfree
  have hplace : Awaits (place w.name waiting) =
      fun a b => Awaits waiting a b ∧ a ≠ w.name ∧ b ≠ w.name := by
    funext a b
    exact propext awaits_place_iff
  intro a b hab
  have hb : b ≠ w.name := by
    rintro rfl
    exact hnone a hab
  by_cases ha : a = w.name
  · subst ha
    refine iff_of_true (precedes_cons_self hb) (.inl fun hbelow => ?_)
    obtain ⟨p, hp⟩ := hbelow.exists_parent
    exact hnone p hp
  · have hstep := hrest a b (awaits_place_iff.2 ⟨hab, ha, hb⟩)
    rw [hplace, belowCycle_without_iff hnone] at hstep
    exact (precedes_cons_iff ha hb).trans hstep

/-- Where every name has parents, all of them lie below cycles. -/
theorem Queued.cyclesLast_of_stuck (h : Queued waiting)
    (hstuck : waiting.find? (fun w => w.parents.isEmpty) = none) :
    CyclesLast (Awaits waiting) (waiting.map (·.name)) := by
  have hbelow := h.belowCycle fun w hw hnil =>
    List.find?_eq_none.1 hstuck w hw (List.isEmpty_iff.2 hnil)
  intro a b hab
  have ha := h.closed a b hab
  obtain ⟨w, hw, hname, _⟩ := hab
  have hb : b ∈ waiting.map (·.name) := hname ▸ List.mem_map_of_mem hw
  rw [precedes_sorted_iff h.sorted ha hb]
  exact (or_iff_right (not_not_intro (hbelow a ha))).symm

theorem Queued.cyclesLast_arrange {fuel : ℕ} (h : Queued waiting)
    (hfuel : waiting.length ≤ fuel) : CyclesLast (Awaits waiting) (arrange fuel waiting) := by
  induction fuel generalizing waiting with
  | zero =>
      obtain rfl := List.length_eq_zero_iff.1 (Nat.le_zero.1 hfuel)
      rintro a b ⟨w, hw, _⟩
      exact absurd hw List.not_mem_nil
  | succ fuel ih =>
      unfold arrange
      split
      · next w hfind =>
          have hw := List.mem_of_find?_eq_some hfind
          have hlength := length_place h.nodup (List.mem_map_of_mem (f := (·.name)) hw)
          refine h.cyclesLast_cons hw (by simpa using List.find?_some hfind) ?_
          exact ih (h.after_place w.name) (by omega)
      · next hstuck => exact h.cyclesLast_of_stuck hstuck

end Queued

/-- A root that is placed first has no parents, so it is below no cycle. -/
theorem cyclesLast_arrangement (root : Option String) (edges : List (String × List String)) :
    CyclesLast (Leads edges) (arrangement root edges) := by
  have hsame : Awaits (waitingOf edges) = Leads edges := by
    funext a b
    exact propext awaits_waitingOf_iff
  have h := queued_waitingOf edges
  rw [← hsame]
  unfold arrangement
  dsimp only
  split
  · exact h.cyclesLast_arrange (Nat.le_refl _)
  · next r =>
      split
      · next hroot =>
          obtain ⟨w, hw, hr⟩ := List.any_eq_true.1 hroot
          obtain ⟨hname, hfree⟩ := Bool.and_eq_true_iff.1 hr
          obtain rfl : w.name = r := by simpa using hname
          have hlength := length_place h.nodup (List.mem_map_of_mem (f := (·.name)) hw)
          refine h.cyclesLast_cons hw (List.isEmpty_iff.1 hfree) ?_
          exact (h.after_place w.name).cyclesLast_arrange (by omega)
      · exact h.cyclesLast_arrange (Nat.le_refl _)

/-- An entry comes before one that it declares exactly if it lies neither on a cycle nor below one,
or if its name is the smaller one. -/
theorem elementOrder_precedes_iff (grammar : Model) {elements : Pairs} (h : elements.Keyed)
    {a b : String} (hab : Declares elements a b) :
    Precedes (elementOrder grammar elements) a b ↔
      ¬BelowCycle (Declares elements) a ∨ a < b := by
  have hleads : Leads (Tree.references elements) = Declares elements := by
    funext a b
    exact propext (leads_references_iff h)
  have hlast := cyclesLast_arrangement grammar.root (Tree.references elements)
  rw [hleads] at hlast
  exact hlast a b hab

/-- Lists have points, and a point has lists again, or content. -/
def nestedEntries : Pairs :=
  let children (names : List String) : Value :=
    .mapping [(.string "children", .mapping (names.map fun n => (.string n, .null)))]
  [(.string "point", children ["content", "list"]), (.string "content", .null),
    (.string "list", children ["point"])]

theorem keyed_nestedEntries : nestedEntries.Keyed := ⟨by simp [nestedEntries], by decide⟩

theorem elementOrder_precedes_nested : nestedEntries.Keyed ∧
    Declares nestedEntries "list" "point" ∧
    (Precedes (elementOrder volumeGrammar nestedEntries) "list" "point" ↔
      ¬BelowCycle (Declares nestedEntries) "list" ∨ "list" < "point") := by
  have hdeclares : Declares nestedEntries "list" "point" :=
    (leads_references_iff keyed_nestedEntries).1 ⟨by decide, ["point"], by decide, by decide⟩
  exact ⟨keyed_nestedEntries, hdeclares,
    elementOrder_precedes_iff volumeGrammar keyed_nestedEntries hdeclares⟩

/-- All three entries have parents, so none is placed before the others. -/
theorem elementOrder_nested (grammar : Model) :
    elementOrder grammar nestedEntries = ["content", "list", "point"] := by
  have hnames : Text.nameSet ((Tree.references nestedEntries).map Prod.fst) =
      ["content", "list", "point"] := by
    rw [map_fst_references]
    refine (Text.nameSet_congr fun n => ?_).trans (Text.nameSet_of_sorted (by decide))
    simp [nestedEntries, Pairs.names, Value.scalarText?, or_comm, or_left_comm]
  have hwaiting : waitingOf (Tree.references nestedEntries) =
      [⟨"content", ["point"]⟩, ⟨"list", ["point"]⟩, ⟨"point", ["list"]⟩] := by
    unfold waitingOf
    rw [hnames]
    rfl
  unfold elementOrder arrangement
  rw [hwaiting]
  cases grammar.root with
  | none => rfl
  | some r => simp [arrange]

/-- Content is on no cycle, but comes before the points that declare it. -/
theorem content_precedes_point : ∃ elements : Pairs, ∃ a b, elements.Keyed ∧
    Declares elements a b ∧ ¬ReflTransGen (Declares elements) b a ∧
      ∀ grammar : Model, ¬Precedes (elementOrder grammar elements) a b := by
  have hleaf : ∀ e ∈ Tree.references nestedEntries, e.1 = "content" → e.2 = [] := by decide
  refine ⟨nestedEntries, "point", "content", keyed_nestedEntries, ?_, fun hback => ?_, ?_⟩
  · exact (leads_references_iff keyed_nestedEntries).1
      ⟨by decide, ["content", "list"], by decide, by decide⟩
  · rcases ReflTransGen.cases_head hback with hsame | ⟨m, hfirst, _⟩
    · exact absurd hsame (by decide)
    · obtain ⟨_, listed, he, hm⟩ := (leads_references_iff keyed_nestedEntries).2 hfirst
      obtain rfl : listed = [] := hleaf _ he rfl
      exact List.not_mem_nil hm
  · intro grammar
    rw [elementOrder_nested, Precedes]
    decide

end GrammarProfile.Cascade
