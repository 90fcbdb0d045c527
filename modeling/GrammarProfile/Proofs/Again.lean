import GrammarProfile.Proofs.Edits
import GrammarProfile.Proofs.Expand

/-!
Expanding an element again. A second expansion finds nothing to add, unless the root is listed as a
document type and the first one has just given it its entry.
-/
namespace GrammarProfile.Yaml.Pairs

theorem Keyed.update_eq_self {pairs : Pairs} {name : String} {f : Value → Value}
    (h : pairs.Keyed) (hf : ∀ v, get? pairs name = some v → f v = v) :
    Pairs.update name f pairs = pairs := by
  unfold Pairs.update
  nth_rewrite 2 [← List.map_id pairs]
  refine List.map_congr_left fun p hp => ?_
  obtain ⟨key, v⟩ := p
  split
  · next hkey =>
      obtain rfl := isKey_iff.1 hkey
      rw [hf v (h.get?_eq_some_iff.2 hp)]
      rfl
  · rfl

/-- The pairs are what is found under their names, in order. -/
theorem Keyed.filterMap_get? {pairs : Pairs} (h : pairs.Keyed) :
    (names pairs).filterMap (fun n => (get? pairs n).map fun v => (Value.string n, v)) = pairs := by
  induction h using Keyed.induction with
  | nil => rfl
  | cons n v rest hn hrest ih =>
      have hothers : ∀ m ∈ names rest,
          ((get? ((.string n, v) :: rest) m).map fun w => (Value.string m, w)) =
            (get? rest m).map fun w => (Value.string m, w) := by
        intro m hm
        have hne : m ≠ n := fun e => hn (e ▸ hm)
        rw [get?_cons_string, if_neg hne]
      rw [names_cons, List.filterMap_cons, List.filterMap_congr hothers, ih, get?_cons_string,
        if_pos rfl]
      rfl

end GrammarProfile.Yaml.Pairs

namespace GrammarProfile.Cascade

open GrammarProfile.Grammar (Element Model)
open GrammarProfile.Profile (Accepted IsSection IsEntries Restriction withEntries)
open GrammarProfile.Yaml (Value Pairs)

/-! ## Sections that lack nothing -/

/-- A section has the names of all additions, if there are any. -/
def Supplied (name : String) (additions : List (String × Value)) (fields : Pairs) : Prop :=
  additions = [] ∨ ∃ inner, Pairs.get? fields name = some (.mapping inner) ∧
    ∀ p ∈ additions, Pairs.contains inner p.1 = true

section Supply

variable {name : String} {additions : List (String × Value)} {fields after pairs : Pairs}
  {wanted : String → Option Value}

theorem addMissing_of_contains (h : ∀ p ∈ additions, Pairs.contains pairs p.1 = true) :
    addMissing additions pairs = pairs := by
  induction additions with
  | nil => rfl
  | cons p rest ih =>
      obtain ⟨n, v⟩ := p
      rw [addMissing_cons, if_pos (h (n, v) List.mem_cons_self)]
      exact ih fun q hq => h q (List.mem_cons_of_mem _ hq)

theorem Supplied.addToSection_eq (h : Supplied name additions fields) (hkeyed : fields.Keyed) :
    addToSection name additions fields = fields := by
  cases additions with
  | nil => rfl
  | cons p rest =>
      obtain hnil | ⟨inner, hinner, hall⟩ := h
      · cases hnil
      · have hopened : opened name fields = fields := by
          unfold opened
          rw [hinner]
        rw [addToSection_cons, hopened]
        refine hkeyed.update_eq_self fun v hv => ?_
        obtain rfl : Value.mapping inner = v := Option.some.inj (hinner.symm.trans hv)
        rw [Value.editPairs, addMissing_of_contains hall]

theorem Fills.contains {v w : Option Value} {n : String} (h : Fills wanted v w)
    (hn : wanted n ≠ none) :
    ∃ inner, w = some (.mapping inner) ∧ Pairs.contains inner n = true := by
  cases h with
  | same hnone => exact absurd (hnone n) hn
  | @gains before inner _ _ hgains =>
      obtain ⟨u, hu⟩ := Option.ne_none_iff_exists'.1 hn
      refine ⟨inner, rfl, ?_⟩
      rw [Pairs.contains_iff, hgains.get?, hu]
      cases Pairs.get? before n <;> exact ⟨_, rfl⟩

/-- A section that was missing has nothing but what is wanted. -/
theorem Fills.not_contains {inner : Pairs} {n : String}
    (h : Fills wanted none (some (.mapping inner))) (hn : wanted n = none) :
    Pairs.contains inner n = false := by
  cases h with
  | gains _ hbefore hgains =>
      cases hbefore
      rw [Pairs.contains_eq_false_iff, hgains.get?, hn]
      rfl

theorem Fills.supplied {v : Option Value} (h : Fills wanted v (Pairs.get? fields name))
    (hwanted : ∀ p ∈ additions, wanted p.1 ≠ none) : Supplied name additions fields := by
  generalize hw : Pairs.get? fields name = w at h
  cases additions with
  | nil => exact .inl rfl
  | cons q rest =>
      obtain ⟨inner, rfl, _⟩ := h.contains (hwanted q List.mem_cons_self)
      refine .inr ⟨inner, hw, fun p hp => ?_⟩
      obtain ⟨_, hsame, hcontains⟩ := h.contains (hwanted p hp)
      cases hsame
      exact hcontains

theorem Supplied.congr (h : Supplied name additions fields)
    (hsame : Pairs.get? after name = Pairs.get? fields name) : Supplied name additions after := by
  unfold Supplied
  rw [hsame]
  exact h

theorem Supplied.grow (h : Supplied name additions fields)
    (hfills : Fills wanted (Pairs.get? fields name) (Pairs.get? after name)) :
    Supplied name additions after := by
  generalize hv : Pairs.get? fields name = v at hfills
  generalize hw : Pairs.get? after name = w at hfills
  cases hfills with
  | same _ => exact h.congr (hw.trans hv.symm)
  | gains _ hbefore hgains =>
      refine h.imp_right fun ⟨inner, hinner, hall⟩ => ⟨_, hw, fun p hp => ?_⟩
      rw [← hv, hinner] at hbefore
      cases hbefore
      obtain ⟨u, hu⟩ := Pairs.contains_iff.1 (hall p hp)
      rw [Pairs.contains_iff, hgains.get?, hu]
      exact ⟨u, rfl⟩

end Supply

/-! ## Entries that lack nothing -/

/-- The pairs of an entry have all that an element needs. -/
structure Supplies (o : ExpandOptions) (e : Element) (fields : Pairs) : Prop where
  attributes : Supplied "attributes" (neededAttributes o e) fields
  children : Supplied "children" (neededChildren e) fields

section Entry

variable {grammar : Model} {o : ExpandOptions} {e : Element} {element n : String}
  {v w : Value} {fields elements : Pairs}

theorem lookup_ne_none_of_mem {additions : List (String × Value)} {p : String × Value}
    (hp : p ∈ additions) : additions.lookup p.1 ≠ none := by
  rw [Ne, lookup_eq_none_iff, not_not]
  exact List.mem_map_of_mem hp

theorem wantedAttribute_ne_none {p : String × Value} (hp : p ∈ neededAttributes o e) :
    wantedAttribute o e p.1 ≠ none := lookup_neededAttributes o e p.1 ▸ lookup_ne_none_of_mem hp

theorem wantedChild_ne_none {p : String × Value} (hp : p ∈ neededChildren e) :
    wantedChild e p.1 ≠ none := lookup_neededChildren e p.1 ▸ lookup_ne_none_of_mem hp

theorem Supplies.completeEntry_eq (h : Supplies o e fields) (hv : IsSection (some v) fields) :
    completeEntry o e v = v := by
  cases hv with
  | null =>
      have hattributes : neededAttributes o e = [] := h.attributes.resolve_right nofun
      have hchildren : neededChildren e = [] := h.children.resolve_right nofun
      unfold completeEntry
      dsimp only
      rw [hattributes, hchildren]
      rfl
  | mapping hkeyed =>
      unfold completeEntry
      dsimp only
      rw [Value.editPairs, h.attributes.addToSection_eq hkeyed,
        h.children.addToSection_eq hkeyed]

theorem Completes.supplies {before : Option Value} (h : Completes o e before w)
    (hbefore : Sectioned before fields) :
    ∃ after, IsSection (some w) after ∧ Supplies o e after := by
  cases h with
  | bare hattributes hchildren =>
      refine ⟨fields, ?_, .inl ?_, .inl ?_⟩
      · have hentry := hbefore.entry
        cases hentry with
        | missing => exact .null
        | null => exact .null
        | mapping hkeyed => exact .mapping hkeyed
      · exact List.eq_nil_iff_forall_not_mem.2 fun p hp =>
          wantedAttribute_ne_none hp (hattributes p.1)
      · exact List.eq_nil_iff_forall_not_mem.2 fun p hp =>
          wantedChild_ne_none hp (hchildren p.1)
  | filled _ _ hkeyed hattributes hchildren _ =>
      exact ⟨_, .mapping hkeyed, hattributes.supplied fun _ => wantedAttribute_ne_none,
        hchildren.supplied fun _ => wantedChild_ne_none⟩

/-- All that is mandatory has an entry that lacks nothing. -/
def Finished (grammar : Model) (o : ExpandOptions) (element : String) (elements : Pairs) : Prop :=
  ∀ n e, Mandatory grammar element n → grammar.element? n = some e →
    ∃ w fields, Pairs.get? elements n = some w ∧ IsSection (some w) fields ∧ Supplies o e fields

theorem Finished.get?_completedEntries (h : Finished grammar o element elements) (n : String) :
    Pairs.get? (completedEntries grammar o element elements) n = Pairs.get? elements n := by
  unfold completedEntries
  by_cases hn : n ∈ grammar.requiredClosure element
  · have hmandatory : Mandatory grammar element n := Model.mem_requiredClosure_iff.1 hn
    obtain ⟨e, he⟩ := Model.hasElement_iff.1 hmandatory.1
    obtain ⟨w, fields, hw, hsection, hsupplies⟩ := h n e hmandatory he
    rw [get?_foldl_ensureName (Model.requiredClosure_nodup grammar element) hn he, hw,
      Option.getD_some, hsupplies.completeEntry_eq hsection]
  · exact get?_foldl_ensureName_of_notMem hn

end Entry

theorem orderElements_congr (grammar : Model) {a b : Pairs} (ha : a.Keyed) (hb : b.Keyed)
    (h : ∀ n, Pairs.get? a n = Pairs.get? b n) :
    orderElements grammar a = orderElements grammar b := by
  rw [orderElements_eq grammar ha, orderElements_eq grammar hb, elementOrder_congr grammar ha hb h]
  exact List.filterMap_congr fun n _ => by rw [h]

/-- Entries that are in order stay where they are. -/
theorem orderElements_eq_self (grammar : Model) {elements : Pairs} (h : elements.Keyed)
    (horder : Pairs.names elements = elementOrder grammar elements) :
    orderElements grammar elements = elements := by
  rw [orderElements_eq grammar h, ← horder]
  exact h.filterMap_get?

/-! ## The root -/

/-- The value of an entry with these pairs, null if there are none. -/
def entryValue (fields : Pairs) : Value := if fields.isEmpty then .null else .mapping fields

theorem isSection_entryValue {fields : Pairs} (h : fields.Keyed) :
    IsSection (some (entryValue fields)) fields := by
  unfold entryValue
  cases fields with
  | nil => exact .null
  | cons p rest => exact .mapping h

theorem isSection_of_lists {present : List String} {completed : Option Value} {v : Value}
    (h : ListsTypes present completed v) : ∃ fields after, IsSection completed fields ∧
      FillsSection "children"
        (fun n => if n ∈ present then some (.string documentTypeLabel) else none) fields after ∧
      IsSection (some v) after ∧ v = entryValue after := by
  obtain ⟨fields, after, hfields, hfills, rfl⟩ := h
  exact ⟨fields, after, hfields, hfills, isSection_entryValue hfills.keyed, rfl⟩

section Expansion

variable {grammar : Model} {o : ExpandOptions} {documentTypes : List String}
  {element root n : String} {elements after fields : Pairs}

theorem ensureRoot_eq (documentTypes : List String) (hroot : grammar.root = some root)
    (h : IsSection (Pairs.get? elements root) fields) :
    ensureRoot grammar documentTypes elements = (.string root, entryValue
      (addToSection "children" ((documentTypes.filter (Pairs.contains elements)).map fun dt =>
        (dt, .string documentTypeLabel)) fields)) :: Pairs.erase elements root := by
  unfold ensureRoot
  rw [hroot]
  dsimp only
  generalize Pairs.get? elements root = v at h ⊢
  cases h <;> rfl

theorem Expanded.sectioned (h : Expanded grammar o documentTypes element elements after)
    (helements : IsEntries elements) (n : String) :
    ∃ fields, IsSection (Pairs.get? after n) fields := by
  obtain ⟨fields, hfields⟩ := sectioned_get? helements n
  by_cases hn : grammar.root = some n
  · obtain ⟨_, _, v, _, _, hlists, hv⟩ := h.root n hn
    obtain ⟨_, inner, _, _, hinner, _⟩ := isSection_of_lists hlists
    exact ⟨inner, hv ▸ hinner⟩
  · obtain ⟨inner, hinner⟩ := (h.entries n hn).sectioned hfields
    exact ⟨inner, hinner.entry⟩

theorem Completed.supplies {e : Element} {before completed : Option Value}
    (h : Completed grammar o element n before completed) (hbefore : Sectioned before fields)
    (hmandatory : Mandatory grammar element n) (he : grammar.element? n = some e) :
    ∃ w inner, completed = some w ∧ IsSection (some w) inner ∧ Supplies o e inner := by
  cases h with
  | @mandatory d _ w _ hd hw =>
      obtain rfl : d = e := Option.some.inj (hd.symm.trans he)
      obtain ⟨inner, hinner, hsupplies⟩ := hw.supplies hbefore
      exact ⟨w, inner, rfl, hinner, hsupplies⟩
  | other hnot => exact absurd hmandatory hnot

theorem Expanded.finished (h : Expanded grammar o documentTypes element elements after)
    (helements : IsEntries elements) : Finished grammar o element after := by
  intro n e hmandatory he
  obtain ⟨fields, hfields⟩ := sectioned_get? helements n
  by_cases hn : grammar.root = some n
  · obtain ⟨_, _, v, _, hcompleted, hlists, hv⟩ := h.root n hn
    obtain ⟨w, inner, rfl, hinner, hsupplies⟩ := hcompleted.supplies hfields hmandatory he
    obtain ⟨before, filled, hbefore, hfills, hfilled, _⟩ := isSection_of_lists hlists
    obtain rfl := hinner.unique hbefore
    exact ⟨v, filled, hv, hfilled, hsupplies.attributes.congr (hfills.others _ (by decide)),
      hsupplies.children.grow hfills.filled⟩
  · obtain ⟨w, inner, hw, hinner, hsupplies⟩ := (h.entries n hn).supplies hfields hmandatory he
    exact ⟨w, inner, hw, hinner, hsupplies⟩

/-- Expanding again changes at most the entry of the root. -/
theorem Expanded.again (h : Expanded grammar o documentTypes element elements after)
    (helements : IsEntries elements) : expandElements grammar o element documentTypes after =
      orderElements grammar (ensureRoot grammar documentTypes
        (completedEntries grammar o element after)) ∧
      (completedEntries grammar o element after).Keyed ∧
      ∀ n, Pairs.get? (completedEntries grammar o element after) n = Pairs.get? after n :=
  ⟨rfl, keyed_completedEntries h.keyed, (h.finished helements).get?_completedEntries⟩

theorem Expanded.again_of_no_root (h : Expanded grammar o documentTypes element elements after)
    (helements : IsEntries elements) (hroot : grammar.root = none) :
    expandElements grammar o element documentTypes after = after := by
  obtain ⟨hagain, hkeyed, hget⟩ := h.again helements
  rw [hagain, ensureRoot_of_none hroot, orderElements_congr grammar hkeyed h.keyed hget]
  exact orderElements_eq_self grammar h.keyed h.order

/-- With the entry of the root as it is, nothing changes. -/
theorem Expanded.again_eq_iff (h : Expanded grammar o documentTypes element elements after)
    (helements : IsEntries elements) (hroot : grammar.root = some root)
    (hfields : IsSection (Pairs.get? after root) fields) :
    expandElements grammar o element documentTypes after = after ↔
      Pairs.get? after root = some (entryValue (addToSection "children"
        ((documentTypes.filter (Pairs.contains after)).map fun dt =>
          (dt, .string documentTypeLabel)) fields)) := by
  obtain ⟨hagain, hkeyed, hget⟩ := h.again helements
  -- The second run finds the entries of the first one, so it adds to the same section of the root.
  have hcontains : Pairs.contains (completedEntries grammar o element after) =
      Pairs.contains after := by
    funext n
    rw [Bool.eq_iff_iff, Pairs.contains_iff, Pairs.contains_iff, hget]
  have hsection : IsSection (Pairs.get? (completedEntries grammar o element after) root) fields :=
    hget root ▸ hfields
  have hensured := ensureRoot_eq documentTypes hroot hsection
  rw [hcontains] at hensured
  rw [hagain, hensured]
  generalize entryValue _ = value
  have hrooted := keyed_cons_erase hkeyed root value
  constructor
  · intro hsame
    rw [← hsame, get?_orderElements grammar hrooted, get?_cons_erase, if_pos rfl]
  · intro hvalue
    have hlookups : ∀ n, Pairs.get? ((.string root, value) ::
        Pairs.erase (completedEntries grammar o element after) root) n = Pairs.get? after n := by
      intro n
      rw [get?_cons_erase, hget]
      by_cases hn : n = root
      · rw [if_pos hn, hn, hvalue]
      · rw [if_neg hn]
    rw [orderElements_congr grammar hrooted h.keyed hlookups]
    exact orderElements_eq_self grammar h.keyed h.order

theorem Expanded.mem_names (h : Expanded grammar o documentTypes element elements after)
    (helements : IsEntries elements) : n ∈ Pairs.names after ↔
      grammar.root = some n ∨ n ∈ Pairs.names elements ∨ Mandatory grammar element n := by
  rw [h.keyed.mem_names_iff, helements.keyed.mem_names_iff]
  simp only [← Option.isSome_iff_exists]
  by_cases hn : grammar.root = some n
  · obtain ⟨_, _, v, _, _, _, hv⟩ := h.root n hn
    rw [hv]
    exact iff_of_true rfl (.inl hn)
  · rw [or_iff_right hn]
    exact (h.entries n hn).isSome_iff

/-- A root that was there lists all document types that are there afterwards. -/
theorem Expanded.again_of_root (h : Expanded grammar o documentTypes element elements after)
    (helements : IsEntries elements) (hroot : grammar.root = some root)
    (hthere : root ∈ documentTypes →
      root ∈ Pairs.names elements ∨ Mandatory grammar element root) :
    expandElements grammar o element documentTypes after = after := by
  obtain ⟨present, _, v, hpresent, _, hlists, hv⟩ := h.root root hroot
  obtain ⟨before, fields, _, hfills, hfields, hvalue⟩ := isSection_of_lists hlists
  rw [h.again_eq_iff helements hroot (hv ▸ hfields), hv, hvalue]
  have hsupplied : Supplied "children" ((documentTypes.filter (Pairs.contains after)).map fun dt =>
      (dt, Value.string documentTypeLabel)) fields := by
    refine hfills.filled.supplied fun p hp => ?_
    obtain ⟨dt, hdt, rfl⟩ := List.mem_map.1 hp
    obtain ⟨hlisted, hcontains⟩ := List.mem_filter.1 hdt
    have hmem : dt ∈ present := by
      refine (hpresent dt).2 ⟨hlisted, ?_⟩
      rcases (h.mem_names helements).1 (h.keyed.contains_iff.1 hcontains) with e | hdt
      · obtain rfl : root = dt := Option.some.inj (hroot.symm.trans e)
        exact hthere hlisted
      · exact hdt
    rw [if_pos hmem]
    exact Option.some_ne_none _
  rw [hsupplied.addToSection_eq hfills.keyed]

/-- A root that is given its entry has not listed itself, and does so the next time. -/
theorem Expanded.again_ne_of_root (h : Expanded grammar o documentTypes element elements after)
    (helements : IsEntries elements) (hroot : grammar.root = some root)
    (hlisted : root ∈ documentTypes) (hnew : root ∉ Pairs.names elements)
    (hnot : ¬Mandatory grammar element root) :
    expandElements grammar o element documentTypes after ≠ after := by
  obtain ⟨present, completed, v, hpresent, hcompleted, hlists, hv⟩ := h.root root hroot
  obtain ⟨before, fields, hbefore, hfills, hfields, hvalue⟩ := isSection_of_lists hlists
  rw [Ne, h.again_eq_iff helements hroot (hv ▸ hfields), hv, hvalue, Option.some.injEq]
  intro hsame
  have hunlisted : root ∉ present := fun hmem => by
    rcases ((hpresent root).1 hmem).2 with hin | hmandatory
    · exact hnew hin
    · exact hnot hmandatory
  have hnone : completed = none := by
    have hcompleted := hcompleted.isSome_iff
    rw [Option.isSome_iff_exists, Option.isSome_iff_exists, ← helements.keyed.mem_names_iff]
      at hcompleted
    rw [Option.eq_none_iff_forall_ne_some]
    exact fun w hw => (hcompleted.1 ⟨w, hw⟩).elim hnew hnot
  subst hnone
  cases hbefore
  have hadditions : ((documentTypes.filter (Pairs.contains after)).map fun dt =>
      (dt, Value.string documentTypeLabel)).lookup root = some (.string documentTypeLabel) := by
    have hin : Pairs.contains after root = true :=
      Pairs.contains_iff.2 ⟨v, hv⟩
    rw [lookup_map_names, if_pos (List.mem_filter.2 ⟨hlisted, hin⟩)]
  obtain ⟨children, hchildren⟩ := hfills.filled.isSection .missing
  -- The second run lists the root among its own children, where the first one did not.
  have hsecond := fillsSection_addToSection ((documentTypes.filter (Pairs.contains after)).map
    fun dt => (dt, Value.string documentTypeLabel)) hfills.keyed hchildren
  have hsame : addToSection "children" _ fields = fields :=
    (isSection_entryValue hsecond.keyed).unique (hsame ▸ isSection_entryValue hfills.keyed)
  have hfilled := hsecond.filled
  rw [hsame] at hfilled
  obtain ⟨inner, hinner, hcontains⟩ := hfilled.contains (n := root) (by simp [hadditions])
  have hfirst := hfills.filled
  rw [hinner] at hfirst
  exact absurd hcontains (Bool.eq_false_iff.1 (hfirst.not_contains (if_neg hunlisted)))

theorem Expanded.again_eq_self_iff (h : Expanded grammar o documentTypes element elements after)
    (helements : IsEntries elements) :
    expandElements grammar o element documentTypes after = after ↔
      ∀ n, grammar.root = some n → n ∈ documentTypes →
        n ∈ Pairs.names elements ∨ Mandatory grammar element n := by
  cases hroot : grammar.root with
  | none => exact iff_of_true (h.again_of_no_root helements hroot) fun n hn => nomatch hn
  | some root =>
      constructor
      · intro hsame n hn hlisted
        obtain rfl : root = n := Option.some.inj hn
        by_contra hnot
        obtain ⟨hnew, hnot⟩ := not_or.1 hnot
        exact h.again_ne_of_root helements hroot hlisted hnew hnot hsame
      · intro hthere
        exact h.again_of_root helements hroot (hthere root rfl)

end Expansion

section Texts

variable {grammar : Model} {element text : String} {r : Restriction} {root fields elements : Pairs}

theorem expandTree_eq (h : Accepted text r root fields elements) (o : ExpandOptions) :
    expandTree grammar o element (.mapping root) =
      withEntries root fields (expandElements grammar o element r.documentTypes elements) := by
  unfold expandTree withEntries
  rw [h.editElements, h.documentTypes]

theorem expandTree_withEntries (h : Accepted text r root fields elements) (o : ExpandOptions)
    (entries : Pairs) : expandTree grammar o element (withEntries root fields entries) =
      withEntries root fields (expandElements grammar o element r.documentTypes entries) := by
  unfold expandTree
  rw [h.documentTypes_withEntries, h.editElements_withEntries]

theorem expand_eq_ok (h : Accepted text r root fields elements) (o : ExpandOptions)
    (hknown : grammar.hasElement element = true) : expand grammar o element text =
      .ok (Tree.render (expandTree grammar o element (.mapping root))) := by
  unfold expand
  rw [hknown, Bool.not_true, if_neg Bool.false_ne_true]
  exact h.editText_eq_ok rfl

theorem expandTree_twice_iff (h : Accepted text r root fields elements) (o : ExpandOptions) :
    expandTree grammar o element (expandTree grammar o element (.mapping root)) =
        expandTree grammar o element (.mapping root) ↔
      ∀ n, grammar.root = some n → n ∈ r.documentTypes →
        n ∈ r.elements.keys ∨ Mandatory grammar element n := by
  have hexpanded := expanded_expandElements grammar o r.documentTypes element h.entries
  simp only [h.keys]
  rw [expandTree_eq h, expandTree_withEntries h, ← hexpanded.again_eq_self_iff h.entries]
  exact ⟨Profile.withEntries_inj, congrArg _⟩

end Texts

/-- Expanding an accepted profile again leaves it alone, unless a document type is the root of the
grammar and had no entry before and the element does not require it. -/
theorem expand_again_iff {grammar : Model} {element text : String} {r : Restriction}
    (o : ExpandOptions) (hknown : grammar.hasElement element = true)
    (haccepted : (Profile.read text).profile = some r) :
    ∃ tree, Yaml.read text = .ok tree ∧
      expand grammar o element text = .ok (Tree.render (expandTree grammar o element tree)) ∧
      (expandTree grammar o element (expandTree grammar o element tree) =
          expandTree grammar o element tree ↔
        ∀ n, grammar.root = some n → n ∈ r.documentTypes →
          n ∈ r.elements.keys ∨ Mandatory grammar element n) := by
  obtain ⟨root, fields, elements, h⟩ := Profile.accepted_of_read haccepted
  exact ⟨_, h.read, expand_eq_ok h o hknown, expandTree_twice_iff h o⟩

/-- A grammar of books, which stand at the top, and of pages. -/
def bookGrammar : Model :=
  ⟨.ofList [("book", ⟨"book", "book", none, [], [], [], [], ""⟩),
    ("page", ⟨"page", "page", none, [], [], [], [], ""⟩)], ∅, some "book"⟩

def bookProfile : String := "profile: \x7bdocumentTypes: [book], elements: \x7bbook: \x7d\x7d"

theorem read_bookProfile : ∃ r, (Profile.read bookProfile).profile = some r ∧
    "book" ∈ r.elements.keys ∧ Profile.choiceKey ∉ r.documentTypes := by
  obtain ⟨r, hr, hboth⟩ : ∃ r, (Profile.read bookProfile).profile = some r ∧
      (r.elements.contains "book" && !r.documentTypes.contains Profile.choiceKey) = true :=
    Profile.exists_profile rfl (by decide +kernel)
  obtain ⟨hkey, htypes⟩ := Bool.and_eq_true_iff.1 hboth
  exact ⟨r, hr, OrderedMap.contains_iff.1 hkey, by simpa using htypes⟩

theorem expand_page_again : ∃ r tree, (Profile.read bookProfile).profile = some r ∧
    Yaml.read bookProfile = .ok tree ∧ expand bookGrammar .standard "page" bookProfile =
      .ok (Tree.render (expandTree bookGrammar .standard "page" tree)) ∧
    expandTree bookGrammar .standard "page" (expandTree bookGrammar .standard "page" tree) =
      expandTree bookGrammar .standard "page" tree := by
  obtain ⟨r, hr, hkey, _⟩ := read_bookProfile
  have hknown : bookGrammar.hasElement "page" = true := by decide
  obtain ⟨tree, htree, hexpand, hagain⟩ := expand_again_iff .standard hknown hr
  refine ⟨r, tree, hr, htree, hexpand, hagain.2 fun n hn _ => .inl ?_⟩
  obtain rfl : "book" = n := Option.some.inj hn
  exact hkey

/-- A profile of books without an entry for them. -/
def barrenProfile : String := "profile: \x7bdocumentTypes: [book]\x7d"

/-- The first expansion gives books an entry, and the second one lists them in it. -/
theorem expand_page_differs : ∃ r tree, (Profile.read barrenProfile).profile = some r ∧
    Yaml.read barrenProfile = .ok tree ∧ expand bookGrammar .standard "page" barrenProfile =
      .ok (Tree.render (expandTree bookGrammar .standard "page" tree)) ∧
    expandTree bookGrammar .standard "page" (expandTree bookGrammar .standard "page" tree) ≠
      expandTree bookGrammar .standard "page" tree := by
  obtain ⟨r, hr, hkeys⟩ : ∃ r, (Profile.read barrenProfile).profile = some r ∧
      (!r.elements.contains "book" && r.documentTypes.contains "book") = true :=
    Profile.exists_profile rfl (by decide +kernel)
  obtain ⟨hnew, hlisted⟩ := Bool.and_eq_true_iff.1 hkeys
  have hmandatory : ¬Mandatory bookGrammar "page" "book" := by
    rw [Mandatory, ← Model.mem_requiredClosure_iff]
    decide
  obtain ⟨root, fields, elements, h⟩ := Profile.accepted_of_read hr
  refine ⟨r, _, hr, h.read, expand_eq_ok h .standard (by decide), fun hsame => ?_⟩
  have hlisted : "book" ∈ r.documentTypes := by simpa using hlisted
  rcases (expandTree_twice_iff h .standard).1 hsame "book" rfl hlisted with hin | hin
  · rw [OrderedMap.contains_iff.2 hin] at hnew
    exact absurd hnew (by decide)
  · exact hmandatory hin

end GrammarProfile.Cascade
