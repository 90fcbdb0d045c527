import GrammarProfile.Proofs.Pruning
import GrammarProfile.Proofs.Sessions
import GrammarProfile.Proofs.Unreached

/-!
Collapsing two elements gives the same entries in either order. What is left are the entries that a
root reaches past both.
-/
namespace GrammarProfile.Yaml.Pairs

/-- Lists of names in one order are equal if they have the same names. -/
theorem eq_of_sublists {a b whole : List String} (hwhole : whole.Nodup) (ha : a.Sublist whole)
    (hb : b.Sublist whole) (hmem : ∀ n, n ∈ a ↔ n ∈ b) : a = b := by
  induction whole generalizing a b with
  | nil => rw [List.sublist_nil.1 ha, List.sublist_nil.1 hb]
  | cons n rest ih =>
      obtain ⟨hn, hrest⟩ := List.nodup_cons.1 hwhole
      cases ha with
      | cons _ ha =>
          cases hb with
          | cons _ hb => exact ih hrest ha hb hmem
          | cons_cons _ hb => exact absurd (ha.subset ((hmem n).2 List.mem_cons_self)) hn
      | cons_cons _ ha =>
          cases hb with
          | cons _ hb => exact absurd (hb.subset ((hmem n).1 List.mem_cons_self)) hn
          | @cons_cons b _ _ hb =>
              rename_i a
              refine congrArg (n :: ·) (ih hrest ha hb fun m => ?_)
              by_cases hm : m = n
              · subst hm
                exact iff_of_false (fun h => hn (ha.subset h)) fun h => hn (hb.subset h)
              · have hcons := hmem m
                rw [List.mem_cons, List.mem_cons, or_iff_right hm, or_iff_right hm] at hcons
                exact hcons

/-- Mappings with names in one order are equal if they have the same lookups. -/
theorem Keyed.eq_of_get? {a b whole : Pairs} (ha : a.Keyed) (hb : b.Keyed) (hwhole : whole.Keyed)
    (horder : (names a).Sublist (names whole)) (horder' : (names b).Sublist (names whole))
    (h : ∀ n, get? a n = get? b n) : a = b := by
  have hnames : names a = names b := by
    refine eq_of_sublists hwhole.distinct horder horder' fun n => ?_
    rw [ha.mem_names_iff, hb.mem_names_iff, h]
  rw [← ha.filterMap_get?, ← hb.filterMap_get?, hnames]
  exact List.filterMap_congr fun n _ => by rw [h]

end GrammarProfile.Yaml.Pairs

namespace GrammarProfile.Cascade

open GrammarProfile.Grammar (Model)
open GrammarProfile.Profile (Accepted IsEntries Restriction choiceKey)
open GrammarProfile.Yaml (Value Pairs)
open Relation (ReflTransGen)

variable {grammar : Model} {documentTypes : List String} {a b n s : String}
  {elements after : Pairs}

/-- An edge of the graph of the entries that leads to neither of two elements. -/
def LinksPastBoth (a b : String) (elements : Pairs) (x y : String) : Prop :=
  y ≠ a ∧ y ≠ b ∧ Links elements x y

/-- A root other than two elements reaches a name past both of them. -/
def KeptPastBoth (grammar : Model) (documentTypes : List String) (a b : String) (elements : Pairs)
    (n : String) : Prop :=
  ∃ s, Rooted grammar documentTypes elements s ∧ s ≠ a ∧ s ≠ b ∧
    ReflTransGen (LinksPastBoth a b elements) s n

theorem keptPastBoth_comm : KeptPastBoth grammar documentTypes a b elements n ↔
    KeptPastBoth grammar documentTypes b a elements n := by
  have hlinks : LinksPastBoth a b elements = LinksPastBoth b a elements := by
    funext x y
    exact propext and_left_comm
  unfold KeptPastBoth
  rw [hlinks]
  exact exists_congr fun s => and_congr_right fun _ => and_left_comm

namespace Collapsed

variable (h : Collapsed grammar documentTypes a elements after)
include h

theorem not_mem_names : a ∉ Pairs.names after := by
  intro ha
  obtain ⟨_, s, _, hne, path⟩ := (h.kept a).1 ha
  cases path with
  | refl => exact hne rfl
  | tail _ step => exact step.1 rfl

/-- On a path past the element from a root to an entry that is kept, all entries are kept. -/
theorem path_of_kept (hs : Rooted grammar documentTypes elements s) (hne : s ≠ a)
    (hn : n ∈ Pairs.names elements) (path : ReflTransGen (LinksPast a elements) s n) :
    n ∈ Pairs.names after ∧ ReflTransGen (Links after) s n := by
  refine ⟨(h.kept n).2 ⟨hn, s, hs, hne, path⟩, ?_⟩
  induction path with
  | refl => exact .refl
  | @tail m n before step ih =>
      have hm := step.2.mem_names
      have hkept := (h.kept m).2 ⟨hm, s, hs, hne, before⟩
      exact .tail (ih hm) ((h.links m n).2 ⟨hkept, step⟩)

omit h in
/-- An entry that no other entry lists is reached from itself only. -/
theorem eq_of_parentless (hparentless : ∀ m, m ≠ n → ¬Links after m n)
    (path : ReflTransGen (Links after) s n) : s = n := by
  induction path using ReflTransGen.head_induction_on with
  | refl => rfl
  | @head m _ step _ ih =>
      subst ih
      by_contra hne
      exact hparentless m hne step

/-- The roots among the entries that are left are those that there were before. -/
theorem rooted_iff (hn : n ∈ Pairs.names after) :
    Rooted grammar documentTypes after n ↔ Rooted grammar documentTypes elements n := by
  obtain ⟨hin, s, hs, hne, path⟩ := (h.kept n).1 hn
  constructor
  · rintro (htype | hroot | ⟨_, hparentless⟩)
    · exact .inl htype
    · exact .inr (.inl hroot)
    · exact eq_of_parentless hparentless (h.path_of_kept hs hne hin path).2 ▸ hs
  · rintro (htype | hroot | ⟨_, hparentless⟩)
    · exact .inl htype
    · exact .inr (.inl hroot)
    · exact .inr (.inr ⟨hn, fun m hm hlinks => hparentless m hm ((h.links m n).1 hlinks).2.2⟩)

/-- What is left of the entries, and can be reached past a second element from what is a root
then, can be reached past both elements. -/
theorem keptPastBoth_of_path (hn : n ∈ Pairs.names after)
    (hs : Rooted grammar documentTypes after s) (hne : s ≠ b)
    (path : ReflTransGen (LinksPast b after) s n) :
    KeptPastBoth grammar documentTypes a b elements n := by
  have hmem : s ∈ Pairs.names after := by
    rcases path.cases_head with rfl | ⟨_, step, _⟩
    · exact hn
    · exact step.2.mem_names
  refine ⟨s, (h.rooted_iff hmem).1 hs, fun e => h.not_mem_names (e ▸ hmem), hne, ?_⟩
  refine ReflTransGen.mono (fun x y step => ?_) _ _ path
  obtain ⟨_, hya, hlinks⟩ := (h.links x y).1 step.2
  exact ⟨hya, step.1, hlinks⟩

theorem path_of_keptPastBoth (hn : n ∈ Pairs.names elements)
    (hkept : KeptPastBoth grammar documentTypes a b elements n) :
    n ∈ Pairs.names after ∧ ∃ s, Rooted grammar documentTypes after s ∧ s ≠ b ∧
      ReflTransGen (LinksPast b after) s n := by
  obtain ⟨s, hs, hsa, hsb, path⟩ := hkept
  have hall : ∀ m, m ∈ Pairs.names elements → ReflTransGen (LinksPastBoth a b elements) s m →
      m ∈ Pairs.names after ∧ ReflTransGen (LinksPast b after) s m := by
    intro m hm path
    have hpast : ReflTransGen (LinksPast a elements) s m :=
      ReflTransGen.mono (fun _ _ step => ⟨step.1, step.2.2⟩) _ _ path
    refine ⟨(h.kept m).2 ⟨hm, s, hs, hsa, hpast⟩, ?_⟩
    clear hpast
    induction path with
    | refl => exact .refl
    | @tail x y before step ih =>
        have hx := step.2.2.mem_names
        have hkept : x ∈ Pairs.names after := (h.kept x).2 ⟨hx, s, hs, hsa,
          ReflTransGen.mono (fun _ _ step => ⟨step.1, step.2.2⟩) _ _ before⟩
        exact .tail (ih hx) ⟨step.2.1, (h.links x y).2 ⟨hkept, step.1, step.2.2⟩⟩
  obtain ⟨hkept, past⟩ := hall n hn path
  have hmem : s ∈ Pairs.names after := by
    rcases path.cases_head with rfl | ⟨_, step, _⟩
    · exact hkept
    · exact (hall s step.2.2.mem_names .refl).1
  exact ⟨hkept, s, (h.rooted_iff hmem).2 hs, hsb, past⟩

end Collapsed

/-- What is left of some entries when two elements are collapsed one after the other. -/
structure CollapsedTwice (grammar : Model) (documentTypes : List String) (a b : String)
    (elements after : Pairs) : Prop where
  keyed : after.Keyed
  order : (Pairs.names after).Sublist (Pairs.names elements)
  kept : ∀ n, n ∈ Pairs.names after ↔
    n ∈ Pairs.names elements ∧ KeptPastBoth grammar documentTypes a b elements n
  entries : ∀ n v, Pairs.get? after n = some v → ∃ before,
    Pairs.get? elements n = some before ∧ v = stripReference b (stripReference a before)

section Twice

variable (h : IsEntries elements) (ha : a ≠ choiceKey) (hb : b ≠ choiceKey) (hne : a ≠ b)
include h ha hb hne

/-- Where the second of two elements has an entry, too, the entries that are left are those that
can be reached past both. -/
theorem collapsedTwice (hin : b ∈ Pairs.names elements) : CollapsedTwice grammar documentTypes a b elements
    ((Edit.collapse b).entries grammar documentTypes
      (collapseElements grammar a documentTypes elements)) := by
  have hfirst : Collapsed grammar documentTypes a elements _ := collapsed_collapseElements h ha
  generalize hafter : collapseElements grammar a documentTypes elements = after at hfirst ⊢
  have hentries : IsEntries after := by
    refine ⟨hfirst.keyed, fun n v hv => ?_⟩
    obtain ⟨before, hbefore, rfl⟩ := hfirst.entries n v hv
    obtain ⟨fields, children, hentry⟩ := h.entry n before hbefore
    exact isEntry_stripReference ha hentry
  rw [Edit.entries]
  by_cases hcontains : Pairs.contains after b = true
  · rw [if_pos hcontains]
    have hsecond : Collapsed grammar documentTypes b after _ :=
      collapsed_collapseElements hentries hb
    refine ⟨hsecond.keyed, hsecond.order.trans hfirst.order, fun n => ?_, fun n v hv => ?_⟩
    · rw [hsecond.kept]
      constructor
      · rintro ⟨hn, s, hs, hne, path⟩
        exact ⟨hfirst.order.subset hn, hfirst.keptPastBoth_of_path hn hs hne path⟩
      · rintro ⟨hn, hkept⟩
        exact hfirst.path_of_keptPastBoth hn hkept
    · obtain ⟨middle, hmiddle, rfl⟩ := hsecond.entries n v hv
      obtain ⟨before, hbefore, rfl⟩ := hfirst.entries n middle hmiddle
      exact ⟨before, hbefore, rfl⟩
  · -- The second element went with the first one, and nothing that is left lists it.
    rw [if_neg hcontains]
    have hgone : b ∉ Pairs.names after := fun e => hcontains (hentries.keyed.contains_iff.2 e)
    refine ⟨hfirst.keyed, hfirst.order, fun n => ?_, fun n v hv => ?_⟩
    · constructor
      · intro hn
        obtain ⟨hbefore, s, hs, hsa, path⟩ := (hfirst.kept n).1 hn
        obtain ⟨hmem, within⟩ := path_within hn (hfirst.path_of_kept hs hsa hbefore path).2
        have past : ReflTransGen (LinksPast b after) s n :=
          ReflTransGen.mono (fun _ _ step => ⟨fun e => hgone (e ▸ step.1), step.2⟩) _ _ within
        exact ⟨hbefore, hfirst.keptPastBoth_of_path hn ((hfirst.rooted_iff hmem).2 hs)
          (fun e => hgone (e ▸ hmem)) past⟩
      · rintro ⟨hn, hkept⟩
        exact (hfirst.path_of_keptPastBoth hn hkept).1
    · obtain ⟨before, hbefore, rfl⟩ := hfirst.entries n v hv
      obtain ⟨fields, children, hentry⟩ := h.entry n before hbefore
      refine ⟨before, hbefore, (stripReference_of_not_lists ha hb hentry fun hlists => ?_).symm⟩
      have hlinks := (hfirst.links n b).2
        ⟨Pairs.mem_names_of_get? hv, hne.symm, before, hbefore, hlists⟩
      exact hgone ((hfirst.listed n b hlinks).2 hin)

omit hne in
/-- What is left does not depend on the order of the two elements. -/
theorem CollapsedTwice.eq {left right : Pairs}
    (hab : CollapsedTwice grammar documentTypes a b elements left)
    (hba : CollapsedTwice grammar documentTypes b a elements right) : left = right := by
  refine hab.keyed.eq_of_get? hba.keyed h.keyed hab.order hba.order fun n => ?_
  have hmem : n ∈ Pairs.names left ↔ n ∈ Pairs.names right := by
    rw [hab.kept, hba.kept, keptPastBoth_comm]
  cases hv : Pairs.get? left n with
  | none =>
      rw [hab.keyed.get?_eq_none_iff, hmem, ← hba.keyed.get?_eq_none_iff] at hv
      exact hv.symm
  | some v =>
      obtain ⟨w, hw⟩ := hba.keyed.mem_names_iff.1 (hmem.1 (Pairs.mem_names_of_get? hv))
      obtain ⟨before, hbefore, rfl⟩ := hab.entries n v hv
      obtain ⟨other, hother, rfl⟩ := hba.entries n w hw
      obtain rfl := Option.some.inj (hbefore.symm.trans hother)
      obtain ⟨fields, children, hentry⟩ := h.entry n before hbefore
      rw [hw, stripReference_comm ha hb hentry]

/-- Collapsing two elements that have entries leaves the same entries in either order. -/
theorem collapse_entries_comm (hina : a ∈ Pairs.names elements) (hinb : b ∈ Pairs.names elements) :
    (Edit.collapse b).entries grammar documentTypes
        ((Edit.collapse a).entries grammar documentTypes elements) =
      (Edit.collapse a).entries grammar documentTypes
        ((Edit.collapse b).entries grammar documentTypes elements) := by
  have hfirst : ∀ c, c ∈ Pairs.names elements →
      (Edit.collapse c).entries grammar documentTypes elements =
        collapseElements grammar c documentTypes elements :=
    fun c hc => if_pos (h.keyed.contains_iff.2 hc)
  rw [hfirst a hina, hfirst b hinb]
  exact CollapsedTwice.eq h ha hb (collapsedTwice h ha hb hne hinb)
    (collapsedTwice h hb ha hne.symm hina)

end Twice

/-- Two elements of an accepted profile that both have an entry can be collapsed in either order:
the tree is the same, with the same entries in the same order. -/
theorem collapse_comm {grammar : Model} {a b text : String} {r : Restriction}
    (hchoice : grammar.hasElement choiceKey = false) (ha : grammar.hasElement a = true)
    (hb : grammar.hasElement b = true) (hne : a ≠ b)
    (haccepted : (Profile.read text).profile = some r)
    (hina : a ∈ r.elements.keys) (hinb : b ∈ r.elements.keys) :
    ∃ tree, Yaml.read text = .ok tree ∧
      collapse grammar a text = .ok (Tree.render ((Edit.collapse a).apply grammar tree)) ∧
      collapse grammar b text = .ok (Tree.render ((Edit.collapse b).apply grammar tree)) ∧
      (Edit.collapse b).apply grammar ((Edit.collapse a).apply grammar tree) =
        (Edit.collapse a).apply grammar ((Edit.collapse b).apply grammar tree) := by
  obtain ⟨root, fields, elements, h⟩ := Profile.accepted_of_read haccepted
  have hplain : ∀ c, grammar.hasElement c = true → c ≠ choiceKey := by
    rintro c hc rfl
    exact Bool.false_ne_true (hchoice.symm.trans hc)
  have hina' := (h.keys a).1 hina
  have hinb' := (h.keys b).1 hinb
  have htree := h.eq_withEntries (h.elements_of_mem hina')
  have honce : ∀ c, c ∈ Pairs.names elements → grammar.hasElement c = true →
      collapse grammar c text =
        .ok (Tree.render ((Edit.collapse c).apply grammar (.mapping root))) := by
    intro c hc hknown
    rw [collapse_eq_ok h hknown ((h.keys c).2 hc), htree, h.apply_withEntries, Edit.entries,
      if_pos (h.entries.keyed.contains_iff.2 hc)]
    rfl
  refine ⟨.mapping root, h.read, honce a hina' ha, honce b hinb' hb, ?_⟩
  rw [htree, h.apply_withEntries, h.apply_withEntries, h.apply_withEntries, h.apply_withEntries,
    collapse_entries_comm h.entries (hplain a ha) (hplain b hb) hne hina' hinb']

/-- A grammar of paragraphs beside bold text. -/
def paragraphGrammar : Model :=
  ⟨.ofList [("b", ⟨"b", "bold", none, [], [], [], [], ""⟩),
    ("p", ⟨"p", "paragraph", none, [], [], [], [], ""⟩)], ∅, none⟩

theorem collapse_bold_and_paragraph : ∃ r tree, (Profile.read boldProfile).profile = some r ∧
    "b" ∈ r.elements.keys ∧ "p" ∈ r.elements.keys ∧ Yaml.read boldProfile = .ok tree ∧
      collapse paragraphGrammar "b" boldProfile =
        .ok (Tree.render ((Edit.collapse "b").apply paragraphGrammar tree)) ∧
      collapse paragraphGrammar "p" boldProfile =
        .ok (Tree.render ((Edit.collapse "p").apply paragraphGrammar tree)) ∧
      (Edit.collapse "p").apply paragraphGrammar
          ((Edit.collapse "b").apply paragraphGrammar tree) =
        (Edit.collapse "b").apply paragraphGrammar
          ((Edit.collapse "p").apply paragraphGrammar tree) := by
  obtain ⟨r, hr, hb, hp⟩ := read_boldProfile
  obtain ⟨tree, htree⟩ := @collapse_comm paragraphGrammar "b" "p" boldProfile r (by decide)
    (by decide) (by decide) (by decide) hr hb hp
  exact ⟨r, tree, hr, hb, hp, htree⟩

end GrammarProfile.Cascade
