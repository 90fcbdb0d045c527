import GrammarProfile.Proofs.CollapseTwice
import GrammarProfile.Proofs.EditedEntries

/-!
Sessions of edits. Whatever is edited, only the entries of a profile change; and it stays a profile
that is accepted, unless the key for a choice is listed as if it were a document type.
-/
namespace GrammarProfile.Yaml.Pairs

variable {pairs : Pairs} {name : String} {v w : Value}

/-- Pairs with the same keys in the same places, and the same values but for one name. -/
def SameBut (name : String) (before after : Pairs) : Prop :=
  List.Forall₂ (fun p q => p.1 = q.1 ∧ (isKey name p.1 = true ∨ p.2 = q.2)) before after

theorem SameBut.refl (name : String) (pairs : Pairs) : SameBut name pairs pairs :=
  List.forall₂_same.2 fun _ _ => ⟨rfl, .inr rfl⟩

theorem sameBut_set (h : get? pairs name = some w) (v : Value) :
    SameBut name pairs (set name v pairs) := by
  induction pairs with
  | nil => exact absurd h (by simp)
  | cons p rest ih =>
      obtain ⟨key, u⟩ := p
      rw [get?_cons] at h
      by_cases hkey : isKey name key = true
      · rw [set, if_pos hkey]
        exact .cons ⟨rfl, .inl hkey⟩ (SameBut.refl name rest)
      · rw [if_neg hkey] at h
        rw [set, if_neg hkey]
        exact .cons ⟨rfl, .inr rfl⟩ (ih h)

theorem SameBut.different {before after : Pairs} (h : SameBut name before after)
    (hbefore : before.Different) : after.Different := by
  have hkeys : before.map Prod.fst = after.map Prod.fst := by
    induction h with
    | nil => rfl
    | cons hpair _ ih =>
        rw [List.map_cons, List.map_cons, hpair.1, ih (List.pairwise_cons.1 hbefore).2]
  have hpairwise : ∀ pairs : Pairs, pairs.Different ↔
      (pairs.map Prod.fst).Pairwise fun a b => b.same a = false :=
    fun pairs => by rw [List.pairwise_map, Different]
  rw [hpairwise, ← hkeys, ← hpairwise]
  exact hbefore

theorem mem_set {p : Value × Value} (h : p ∈ set name v pairs) : p ∈ pairs ∨ p.2 = v := by
  induction pairs with
  | nil =>
      rw [set, List.mem_singleton] at h
      exact .inr (h ▸ rfl)
  | cons q rest ih =>
      obtain ⟨key, u⟩ := q
      by_cases hkey : isKey name key = true
      · rw [set, if_pos hkey, List.mem_cons] at h
        rcases h with rfl | h
        · exact .inr rfl
        · exact .inl (List.mem_cons_of_mem _ h)
      · rw [set, if_neg hkey, List.mem_cons] at h
        rcases h with rfl | h
        · exact .inl List.mem_cons_self
        · exact (ih h).imp_left (List.mem_cons_of_mem _)

theorem erase_set (name : String) (v : Value) (pairs : Pairs) :
    erase (set name v pairs) name = erase pairs name := by
  have hself : isKey name (.string name) = true := isKey_iff.2 rfl
  unfold erase
  induction pairs with
  | nil => rw [set, List.filter_cons_of_neg (by simp [hself])]
  | cons p rest ih =>
      obtain ⟨key, u⟩ := p
      by_cases hkey : isKey name key = true
      · rw [set, if_pos hkey, List.filter_cons_of_neg (by simp [hkey]),
          List.filter_cons_of_neg (by simp [hkey])]
      · rw [set, if_neg hkey, List.filter_cons_of_pos (by simp [hkey]),
          List.filter_cons_of_pos (by simp [hkey]), ih]

end GrammarProfile.Yaml.Pairs

namespace GrammarProfile.Profile

open GrammarProfile.Cascade (Edit)
open GrammarProfile.Yaml (Value Pairs)

/-- Entries for different names, none of which has a flaw. -/
structure FormedEntries (elements : Pairs) : Prop where
  keyed : elements.Keyed
  entry : ∀ n v, Pairs.get? elements n = some v → FormedEntry n v

theorem FormedEntries.isEntries {elements : Pairs} (h : FormedEntries elements) :
    IsEntries elements := ⟨h.keyed, fun n v hv => (h.entry n v hv).isEntry⟩

/-- Two trees of profiles that differ in the entries only. All keys of the tree stay in their
places and all values but that of `profile` stay what they are, and so do all parts of the profile
other than `elements`. -/
def SameFrame (before after : Value) : Prop :=
  ∃ root root' fields fields' : Pairs, before = .mapping root ∧ after = .mapping root' ∧
    Pairs.SameBut "profile" root root' ∧
    Pairs.get? root "profile" = some (.mapping fields) ∧
    Pairs.get? root' "profile" = some (.mapping fields') ∧
    Pairs.erase fields' "elements" = Pairs.erase fields "elements"

section Entries

variable {root fields elements : Pairs}

/-- With other entries, a profile is read without a flaw exactly if these have none. -/
theorem flaws_ofTree_set (h : fields.Keyed) (hflaws : (Restriction.ofTree fields).flaws = [])
    (helements : elements.Keyed) :
    (Restriction.ofTree (Pairs.set "elements" (.mapping elements) fields)).flaws = [] ↔
      ∀ n v, Pairs.get? elements n = some v → (readEntry n v).flaws = [] := by
  rw [flaws_ofTree (h.set _ _), ← flaws_elements (.mapping helements)]
  constructor
  · exact fun hall => hall _ _ ((Pairs.get?_set _ _ _ _).trans (if_pos rfl))
  · intro hentries n w hw
    rw [Pairs.get?_set] at hw
    split at hw
    · next hn =>
        cases hw
        exact hn ▸ hentries
    · exact (flaws_ofTree h).1 hflaws n w hw

theorem profile_ofValue_of_flaws {index : LineIndex}
    (hprofile : Pairs.get? root "profile" = some (.mapping fields))
    (hflaws : (Restriction.ofTree fields).flaws ≠ []) :
    (Reading.ofValue index (.mapping root)).profile = none := by
  have hpairs : Reading.profilePairs index (.mapping root) = .ok fields := by
    unfold Reading.profilePairs
    dsimp only
    rw [hprofile]
  unfold Reading.ofValue
  rw [hpairs]
  dsimp only
  split
  · next hnone => exact absurd hnone hflaws
  · rfl

end Entries

namespace Accepted

variable {text : String} {r : Restriction} {root fields elements entries : Pairs}
  (h : Accepted text r root fields elements)
include h

theorem sameFrame_root : SameFrame (.mapping root) (.mapping root) :=
  ⟨root, root, fields, fields, rfl, rfl, .refl _ _, h.profile, h.profile, rfl⟩

theorem sameFrame_withEntries (entries : Pairs) :
    SameFrame (.mapping root) (withEntries root fields entries) :=
  ⟨root, _, fields, _, rfl, rfl, Pairs.sameBut_set h.profile _, h.profile,
    (Pairs.get?_set _ _ _ _).trans (if_pos rfl), Pairs.erase_set _ _ _⟩

variable (hread : (Profile.read text).profile = some r)
include hread

theorem formedEntries : FormedEntries elements := by
  refine ⟨h.entries.keyed, fun n v hv => .of_flaws ?_ (h.flaws_readEntry hread n v hv)⟩
  have hroot := (Yaml.distinct_of_read h.read).pairs? rfl
  have hbelow := (hroot.2 _ (Pairs.mem_of_get? h.profile)).pairs? rfl
  exact h.listed.distinct (fun u hu => hbelow.2 _ (Pairs.mem_of_get? hu)) n v hv

omit hread in
theorem distinct_withEntries (hentries : FormedEntries entries) :
    (withEntries root fields entries).Distinct := by
  have hroot := (Yaml.distinct_of_read h.read).pairs? rfl
  have hbelow := (hroot.2 _ (Pairs.mem_of_get? h.profile)).pairs? rfl
  refine .mapping ((Pairs.sameBut_set h.profile _).different hroot.1) fun p hp => ?_
  rcases Pairs.mem_set hp with hp | hp
  · exact hroot.2 p hp
  · rw [hp]
    refine .mapping (h.keyed.set _ _).different fun q hq => ?_
    rcases Pairs.mem_set hq with hq | hq
    · exact hbelow.2 q hq
    · rw [hq]
      exact hentries.keyed.distinct_mapping fun n v hv => (hentries.entry n v hv).distinct

theorem ofValue_root (index : LineIndex) :
    Reading.ofValue index (.mapping root) = ⟨some r, [], index⟩ := by
  obtain ⟨hflaws, hresult⟩ := h.ofTree hread
  rw [ofValue_eq_of_tree h.profile hflaws, hresult]

theorem ofValue_withEntries (hentries : FormedEntries entries) (index : LineIndex) :
    ∃ edited, Reading.ofValue index (withEntries root fields entries) =
      ⟨some edited, [], index⟩ := by
  refine ⟨_, ofValue_eq_of_tree ((Pairs.get?_set _ _ _ _).trans (if_pos rfl)) ?_⟩
  rw [flaws_ofTree_set h.keyed (h.ofTree hread).1 hentries.keyed]
  exact fun n v hv => (hentries.entry n v hv).flaws

theorem profile_ofValue_withEntries {n : String} {v : Value} (hentries : entries.Keyed)
    (hv : Pairs.get? entries n = some v) (hflaws : (readEntry n v).flaws ≠ [])
    (index : LineIndex) :
    (Reading.ofValue index (withEntries root fields entries)).profile = none := by
  refine profile_ofValue_of_flaws ((Pairs.get?_set _ _ _ _).trans (if_pos rfl)) fun hnone => ?_
  exact hflaws ((flaws_ofTree_set h.keyed (h.ofTree hread).1 hentries).1 hnone n v hv)

end Accepted

end GrammarProfile.Profile

namespace GrammarProfile.Cascade

open GrammarProfile.Grammar (Element Model)
open GrammarProfile.Profile
open GrammarProfile.Yaml (Value Pairs)
open Relation (ReflTransGen)

/-! ## One edit -/

/-- A grammar in which nothing has the name that is reserved for a choice, and in which the root is
an element. -/
structure ChoiceFree (grammar : Model) : Prop where
  element : grammar.hasElement choiceKey = false
  children : ∀ e ∈ grammar.elements.values, ∀ c ∈ e.children, c.name ≠ choiceKey
  root : ∀ n, grammar.root = some n → grammar.hasElement n = true

/-- No expansion lists the reserved key below the root. -/
def Unlisted (grammar : Model) (documentTypes : List String) (elements : Pairs) : Prop :=
  grammar.root = none ∨ choiceKey ∉ documentTypes ∨ choiceKey ∉ Pairs.names elements

section Steps

variable {grammar : Model} {o : ExpandOptions} {documentTypes : List String} {element n : String}
  {elements : Pairs}

theorem ChoiceFree.ne (h : ChoiceFree grammar) (hn : grammar.hasElement n = true) :
    n ≠ choiceKey := by
  rintro rfl
  exact Bool.false_ne_true (h.element.symm.trans hn)

theorem Unlisted.of_sublist {after : Pairs} (h : Unlisted grammar documentTypes elements)
    (hnames : Pairs.names after ⊆ Pairs.names elements) : Unlisted grammar documentTypes after :=
  h.imp_right fun h => h.imp_right fun h hin => h (hnames hin)

variable (grammar documentTypes) in
theorem formedEntries_collapse (h : FormedEntries elements) (hname : element ≠ choiceKey) :
    FormedEntries ((Edit.collapse element).entries grammar documentTypes elements) ∧
      Pairs.names ((Edit.collapse element).entries grammar documentTypes elements) ⊆
        Pairs.names elements := by
  rw [Edit.entries]
  split
  · have hafter : Collapsed grammar documentTypes element elements _ :=
      collapsed_collapseElements h.isEntries hname
    refine ⟨⟨hafter.keyed, fun n v hv => ?_⟩, hafter.order.subset⟩
    obtain ⟨before, hbefore, rfl⟩ := hafter.entries n v hv
    exact formedEntry_stripReference (h.entry n before hbefore) hname
  · exact ⟨h, fun _ hn => hn⟩

variable (grammar documentTypes) in
theorem formedEntries_reorder (h : FormedEntries elements) :
    FormedEntries (Edit.reorder.entries grammar documentTypes elements) ∧
      Pairs.names (Edit.reorder.entries grammar documentTypes elements) ⊆
        Pairs.names elements := by
  have hkeyed := h.keyed.map fun p => reorderEntry grammar p.1 p.2
  rw [Edit.entries]
  refine ⟨⟨keyed_orderElements grammar hkeyed, fun n v hv => ?_⟩, fun n hn => ?_⟩
  · rw [get?_orderElements grammar hkeyed,
      Pairs.get?_map (fun p => reorderEntry grammar p.1 p.2)] at hv
    obtain ⟨before, hbefore, rfl⟩ := Option.map_eq_some_iff.1 hv
    exact formedEntry_reorderEntry (h.entry n before hbefore) grammar
  · rw [names_orderElements grammar hkeyed, (elementOrder_perm grammar hkeyed).mem_iff,
      Pairs.names_map fun p => reorderEntry grammar p.1 p.2] at hn
    exact hn

theorem formedEntry_completed {v w : Option Value} (hfree : ChoiceFree grammar)
    (hv : ∀ u, v = some u → FormedEntry n u) (h : Completed grammar o element n v w) :
    ∀ u, w = some u → FormedEntry n u := by
  cases h with
  | @mandatory e _ w _ he hw =>
      rintro u hu
      obtain rfl := Option.some.inj hu
      have hmem := OrderedMap.mem_values_of_get? he
      exact formedEntry_completes hv (hfree.children e hmem) hw
  | other _ => exact hv

theorem formedEntries_expand (hfree : ChoiceFree grammar) (h : FormedEntries elements)
    (hunlisted : Unlisted grammar documentTypes elements) :
    FormedEntries ((Edit.expand o element).entries grammar documentTypes elements) ∧
      Unlisted grammar documentTypes
        ((Edit.expand o element).entries grammar documentTypes elements) := by
  have hafter := expanded_expandElements grammar o documentTypes element h.isEntries
  have hmandatory : ¬Mandatory grammar element choiceKey := fun hm => hfree.ne hm.1 rfl
  rw [Edit.entries]
  refine ⟨⟨hafter.keyed, fun n v hv => ?_⟩, ?_⟩
  · by_cases hn : grammar.root = some n
    · obtain ⟨present, completed, w, hpresent, hcompleted, hlists, hw⟩ := hafter.root n hn
      cases hw.symm.trans hv
      refine formedEntry_listsTypes (formedEntry_completed hfree (h.entry n) hcompleted)
        (fun hchoice => ?_) hlists
      obtain ⟨htype, hentry⟩ := (hpresent choiceKey).1 hchoice
      rcases hunlisted with hnone | hnot | hnot
      · cases hnone.symm.trans hn
      · exact hnot htype
      · exact hentry.elim hnot hmandatory
    · exact formedEntry_completed hfree (h.entry n) (hafter.entries n hn) v hv
  · refine hunlisted.imp_right fun hor => hor.imp_right fun hnot hin => ?_
    rcases (hafter.mem_names h.isEntries).1 hin with hroot | hin | hm
    · exact hfree.ne (hfree.root _ hroot) rfl
    · exact hnot hin
    · exact hmandatory hm

/-- An edit of entries without a flaw leaves none, as long as the reserved key is not listed. -/
theorem formedEntries_edit (hfree : ChoiceFree grammar) (h : FormedEntries elements)
    (hunlisted : Unlisted grammar documentTypes elements) {edit : Edit}
    (hknown : edit.Known grammar) :
    FormedEntries (edit.entries grammar documentTypes elements) ∧
      Unlisted grammar documentTypes (edit.entries grammar documentTypes elements) := by
  cases edit with
  | expand o element => exact formedEntries_expand hfree h hunlisted
  | collapse element =>
      obtain ⟨hformed, hnames⟩ :=
        formedEntries_collapse grammar documentTypes h (hfree.ne hknown)
      exact ⟨hformed, hunlisted.of_sublist hnames⟩
  | reorder =>
      obtain ⟨hformed, hnames⟩ := formedEntries_reorder grammar documentTypes h
      exact ⟨hformed, hunlisted.of_sublist hnames⟩

end Steps

/-! ## Sessions -/

/-- The tree after some edits. -/
def Edit.applyAll (grammar : Model) (edits : List Edit) (tree : Value) : Value :=
  edits.foldl (Edit.apply grammar) tree

section Runs

variable {grammar : Model} {text : String} {r : Restriction} {root fields elements : Pairs}

/-- What a session may have made of the tree of an accepted profile. -/
inductive Reached (grammar : Model) (r : Restriction) (root fields : Pairs) : Value → Prop
  | start : Reached grammar r root fields (.mapping root)
  | edited {entries : Pairs} (h : FormedEntries entries)
      (hunlisted : Unlisted grammar r.documentTypes entries) :
      Reached grammar r root fields (withEntries root fields entries)

theorem reached_apply (hfree : ChoiceFree grammar) (h : Accepted text r root fields elements)
    (hread : (Profile.read text).profile = some r)
    (hunlisted : Unlisted grammar r.documentTypes elements) {tree : Value} {edit : Edit}
    (hknown : edit.Known grammar) (htree : Reached grammar r root fields tree) :
    Reached grammar r root fields (edit.apply grammar tree) := by
  cases htree with
  | start =>
      obtain ⟨hformed, hstill⟩ := formedEntries_edit hfree (h.formedEntries hread) hunlisted hknown
      rcases h.apply_root grammar edit with hsame | hedited
      · rw [hsame]
        exact .start
      · rw [hedited]
        exact .edited hformed hstill
  | edited hentries hlisted =>
      obtain ⟨hformed, hstill⟩ := formedEntries_edit hfree hentries hlisted hknown
      rw [h.apply_withEntries]
      exact .edited hformed hstill

theorem reached_applyAll (hfree : ChoiceFree grammar) (h : Accepted text r root fields elements)
    (hread : (Profile.read text).profile = some r)
    (hunlisted : Unlisted grammar r.documentTypes elements) {edits : List Edit}
    (hknown : ∀ edit ∈ edits, edit.Known grammar) {tree : Value}
    (htree : Reached grammar r root fields tree) :
    Reached grammar r root fields (Edit.applyAll grammar edits tree) := by
  induction edits generalizing tree with
  | nil => exact htree
  | cons edit rest ih =>
      refine ih (fun e he => hknown e (List.mem_cons_of_mem _ he)) ?_
      exact reached_apply hfree h hread hunlisted (hknown edit List.mem_cons_self) htree

/-- Edits of any elements leave the frame of a profile as it is. -/
theorem sameFrame_applyAll (h : Accepted text r root fields elements) (edits : List Edit) :
    SameFrame (.mapping root) (Edit.applyAll grammar edits (.mapping root)) := by
  have hall : ∀ edits : List Edit,
      Edit.applyAll grammar edits (.mapping root) = .mapping root ∨
        ∃ entries, Edit.applyAll grammar edits (.mapping root) =
          withEntries root fields entries := by
    intro edits
    induction edits using List.reverseRecOn with
    | nil => exact .inl rfl
    | append_singleton rest edit ih =>
        have hlast : Edit.applyAll grammar (rest ++ [edit]) (.mapping root) =
            edit.apply grammar (Edit.applyAll grammar rest (.mapping root)) := List.foldl_append
        rw [hlast]
        rcases ih with hsame | ⟨entries, hentries⟩
        · rw [hsame]
          exact (h.apply_root grammar edit).imp_right fun e => ⟨_, e⟩
        · rw [hentries, h.apply_withEntries]
          exact .inr ⟨_, rfl⟩
  rcases hall edits with hsame | ⟨entries, hentries⟩
  · rw [hsame]
    exact h.sameFrame_root
  · rw [hentries]
    exact h.sameFrame_withEntries entries

/-! ## The reserved key as a document type -/

/-- An element that gets a new entry as the root lists all document types that are there. -/
theorem label_of_new_root {o : ExpandOptions} {documentTypes : List String} {n : String}
    {after : Pairs} (hfree : ChoiceFree grammar) (hroot : grammar.root = some n)
    (h : Expanded grammar o documentTypes n elements after)
    (hnew : Pairs.get? elements n = none) (htype : choiceKey ∈ documentTypes)
    (hin : choiceKey ∈ Pairs.names elements) :
    ∃ v fields children, Pairs.get? after n = some v ∧ IsSection (some v) fields ∧
      IsSection (Pairs.get? fields "children") children ∧
      Pairs.get? children choiceKey = some (.string documentTypeLabel) := by
  obtain ⟨present, completed, v, hpresent, hcompleted, hlists, hv⟩ := h.root n hroot
  have hmandatory : Mandatory grammar n n := ⟨hfree.root n hroot, .refl⟩
  rw [hnew] at hcompleted
  cases hcompleted with
  | other hnot => exact absurd hmandatory hnot
  | @mandatory e _ w _ he hw =>
      obtain ⟨before, hbefore, htakes⟩ := hw.takes .missing
      obtain ⟨inner, hinner, hget⟩ := htakes.children.exists_section .missing
      obtain ⟨fields, hfields, hgains⟩ := hlists.takes hbefore
      obtain ⟨children, hchildren, hget'⟩ := hgains.children.exists_section hinner
      refine ⟨v, fields, children, hv, hfields, hchildren, ?_⟩
      have hwanted := wantedChild_choiceKey (hfree.children e (OrderedMap.mem_values_of_get? he))
      have hlisted : choiceKey ∈ present := (hpresent _).2 ⟨htype, .inl hin⟩
      rw [hget', hget, hwanted, wantedType, if_pos hlisted]
      rfl

theorem flaws_of_label {n label : String} {v : Value} {fields children : Pairs}
    (hentry : IsSection (some v) fields)
    (hchildren : IsSection (Pairs.get? fields "children") children)
    (hlabel : Pairs.get? children choiceKey = some (.string label)) :
    (readEntry n v).flaws ≠ [] := by
  intro hflaws
  rw [readEntry_section hentry] at hflaws
  have hfields : ∀ k w, Pairs.get? fields k = some w →
      (Shape.elementField (entryPath n) .empty k w).flaws = [] :=
    (Shape.flaws_foldPairs Shape.flaws_elementField hentry.keyed _).1 hflaws
  cases hw : Pairs.get? fields "children" with
  | none =>
      rw [hw] at hchildren
      cases hchildren
      cases hlabel
  | some w =>
      rw [hw] at hchildren
      have hchild := (flaws_children (entryPath n) hchildren).1 (hfields _ w hw) _ _ hlabel
      exact absurd hchild (List.cons_ne_nil _ _)

/-- Where the reserved key is a document type with an entry, the root can be made to list it: by
removing the root and adding it again. -/
theorem rejected_of_listed (hfree : ChoiceFree grammar) (h : Accepted text r root fields elements)
    (hread : (Profile.read text).profile = some r) {n : String} (hroot : grammar.root = some n)
    (htype : choiceKey ∈ r.documentTypes) (hin : choiceKey ∈ Pairs.names elements)
    (o : ExpandOptions) (index : LineIndex) :
    (Reading.ofValue index (Edit.applyAll grammar [.collapse n, .expand o n]
      (.mapping root))).profile = none := by
  have hname := hfree.ne (hfree.root n hroot)
  rw [h.eq_withEntries (h.elements_of_mem hin)]
  have hrun : Edit.applyAll grammar [.collapse n, .expand o n] (withEntries root fields elements) =
      withEntries root fields ((Edit.expand o n).entries grammar r.documentTypes
        ((Edit.collapse n).entries grammar r.documentTypes elements)) := by
    rw [← h.apply_withEntries, ← h.apply_withEntries]
    rfl
  obtain ⟨hformed, _⟩ :=
    formedEntries_collapse grammar r.documentTypes (h.formedEntries hread) hname
  -- The collapse leaves the document type, and it leaves no root.
  have hleft : choiceKey ∈ Pairs.names ((Edit.collapse n).entries grammar r.documentTypes elements) ∧
      Pairs.get? ((Edit.collapse n).entries grammar r.documentTypes elements) n = none := by
    rw [Edit.entries]
    split
    · have hafter : Collapsed grammar r.documentTypes n elements _ :=
        collapsed_collapseElements h.entries hname
      refine ⟨(hafter.kept _).2 ⟨hin, _, .inl htype, hname.symm, .refl⟩, ?_⟩
      exact hafter.keyed.get?_eq_none_iff.2 hafter.not_mem_names
    · next hnot => exact ⟨hin, Pairs.contains_eq_false_iff.1 (Bool.eq_false_iff.2 hnot)⟩
  have hexpanded := expanded_expandElements grammar o r.documentTypes n hformed.isEntries
  obtain ⟨v, inner, children, hv, hsection, hchildren, hlabel⟩ :=
    label_of_new_root hfree hroot hexpanded hleft.2 htype hleft.1
  rw [hrun]
  exact h.profile_ofValue_withEntries hread hexpanded.keyed hv
    (flaws_of_label hsection hchildren hlabel) index

end Runs

/-- Sessions of edits leave the frame of an accepted profile as it is, and all of them end with
another accepted profile unless the grammar has a root and the reserved key is the name of a
document type that has an entry. -/
theorem session_accepted_iff {grammar : Model} {text : String} {r : Restriction}
    (hfree : ChoiceFree grammar) (haccepted : (Profile.read text).profile = some r) :
    ∃ tree, Yaml.read text = .ok tree ∧
      (∀ edits, SameFrame tree (Edit.applyAll grammar edits tree)) ∧
      ((∀ edits : List Edit, (∀ edit ∈ edits, edit.Known grammar) →
          (Edit.applyAll grammar edits tree).Distinct ∧ ∀ index, ∃ edited,
            Reading.ofValue index (Edit.applyAll grammar edits tree) =
              ⟨some edited, [], index⟩) ↔
        (grammar.root = none ∨ choiceKey ∉ r.documentTypes ∨ choiceKey ∉ r.elements.keys)) := by
  obtain ⟨root, fields, elements, h⟩ := Profile.accepted_of_read haccepted
  refine ⟨_, h.read, sameFrame_applyAll h, ?_⟩
  rw [h.keys]
  constructor
  · intro hall
    by_contra hlisted
    obtain ⟨hroot, hlisted⟩ := not_or.1 hlisted
    obtain ⟨htype, hin⟩ := not_or.1 hlisted
    obtain ⟨n, hn⟩ := Option.ne_none_iff_exists'.1 hroot
    have hknown : ∀ edit ∈ [Edit.collapse n, .expand .standard n], edit.Known grammar := by
      intro edit hedit
      rcases List.mem_cons.1 hedit with rfl | hedit
      · exact hfree.root n hn
      · obtain rfl := List.mem_singleton.1 hedit
        exact hfree.root n hn
    obtain ⟨edited, hedited⟩ := (hall _ hknown).2 .empty
    have hrejected := rejected_of_listed hfree h haccepted hn (not_not.1 htype) (not_not.1 hin)
      .standard .empty
    rw [hedited] at hrejected
    cases hrejected
  · intro hunlisted edits hknown
    have hreached := reached_applyAll hfree h haccepted hunlisted hknown .start
    generalize Edit.applyAll grammar edits (.mapping root) = tree at hreached ⊢
    cases hreached with
    | start => exact ⟨Yaml.distinct_of_read h.read, fun index => ⟨r, h.ofValue_root haccepted index⟩⟩
    | edited hentries _ =>
        exact ⟨h.distinct_withEntries hentries, h.ofValue_withEntries haccepted hentries⟩

theorem choiceFree_bookGrammar : ChoiceFree bookGrammar := by
  refine ⟨by decide, by decide, fun n hn => ?_⟩
  obtain rfl : "book" = n := Option.some.inj hn
  decide

theorem session_book : ∃ r tree, (Profile.read bookProfile).profile = some r ∧
    Yaml.read bookProfile = .ok tree ∧
    (∀ edits, SameFrame tree (Edit.applyAll bookGrammar edits tree)) ∧
    ∀ edits : List Edit, (∀ edit ∈ edits, edit.Known bookGrammar) →
      (Edit.applyAll bookGrammar edits tree).Distinct ∧ ∀ index, ∃ edited,
        Reading.ofValue index (Edit.applyAll bookGrammar edits tree) =
          ⟨some edited, [], index⟩ := by
  obtain ⟨r, hr, _, htypes⟩ := read_bookProfile
  obtain ⟨tree, htree, hframe, haccepted⟩ := session_accepted_iff choiceFree_bookGrammar hr
  exact ⟨r, tree, hr, htree, hframe, haccepted.2 (.inr (.inl htypes))⟩

/-- A profile whose only document type has the reserved name. -/
def reservedProfile : String :=
  "profile: \x7bdocumentTypes: [choice], elements: \x7bchoice: \x7d\x7d"

/-- Once the root has an entry it lists the reserved key as a child, which no profile may. -/
theorem session_lists_choice : ∃ r tree, ChoiceFree bookGrammar ∧
    (Profile.read reservedProfile).profile = some r ∧ Yaml.read reservedProfile = .ok tree ∧
    (Edit.expand .standard "book").Known bookGrammar ∧ (Edit.collapse "book").Known bookGrammar ∧
    ∀ index, (Reading.ofValue index (Edit.applyAll bookGrammar
      [.collapse "book", .expand .standard "book"] tree)).profile = none := by
  obtain ⟨r, hr, hboth⟩ : ∃ r, (Profile.read reservedProfile).profile = some r ∧
      (r.documentTypes.contains choiceKey && r.elements.contains choiceKey) = true :=
    Profile.exists_profile rfl (by decide +kernel)
  obtain ⟨htype, hin⟩ := Bool.and_eq_true_iff.1 hboth
  obtain ⟨root, fields, elements, h⟩ := Profile.accepted_of_read hr
  have hin := (h.keys choiceKey).1 (OrderedMap.contains_iff.1 hin)
  exact ⟨r, _, choiceFree_bookGrammar, hr, h.read, by decide, by decide,
    rejected_of_listed choiceFree_bookGrammar h hr rfl (by simpa using htype) hin .standard⟩

end GrammarProfile.Cascade
