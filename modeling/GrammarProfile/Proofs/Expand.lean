import GrammarProfile.Proofs.Closure
import GrammarProfile.Proofs.Order
import GrammarProfile.Proofs.Readings
import GrammarProfile.Proofs.Sections

/-!
Expanding adds an element, what the grammar requires with it, and nothing else.
-/
namespace GrammarProfile.Cascade

open GrammarProfile.Grammar (Attribute Child Element Model)
open GrammarProfile.Profile (Accepted IsSection IsEntry IsEntries Restriction)
open GrammarProfile.Yaml (Value Pairs)
open Relation (ReflTransGen)

/-! ## Wanted parts -/

/-- What an expanded element has to say about an attribute, unless it says something already. -/
def wantedAttribute (o : ExpandOptions) (e : Element) (name : String) : Option Value :=
  match e.attributes.find? fun a => a.name == name && a.required with
  | some a => some (requiredAttribute a)
  | none =>
    if name ∈ o.identityNames ∧ ((e.attribute? name).any fun a => !a.required) = true then
      some (identityAttribute o.idRequired)
    else none

/-- The label that an expanded element has to give to a child, unless it lists it already. -/
def wantedChild (e : Element) (name : String) : Option Value :=
  (e.children.find? fun c => c.name == name && c.required).map fun c => .string c.cardinality

theorem lookup_map_filter {α : Type} (name : α → String) (keep : α → Bool) (f : α → Value)
    (l : List α) (n : String) : ((l.filter keep).map fun a => (name a, f a)).lookup n =
      (l.find? fun a => name a == n && keep a).map f := by
  induction l with
  | nil => rfl
  | cons a rest ih =>
      by_cases hkeep : keep a = true
      · rw [List.filter_cons_of_pos hkeep, List.map_cons, lookup_cons_ite, List.find?_cons, hkeep,
          Bool.and_true]
        by_cases hn : n = name a
        · subst hn
          simp
        · have hne : (name a == n) = false := by simpa using Ne.symm hn
          rw [if_neg hn, hne, ih]
      · have hdrop : keep a = false := Bool.eq_false_iff.2 hkeep
        rw [List.filter_cons_of_neg hkeep, List.find?_cons, hdrop, Bool.and_false, ih]

theorem lookup_map_names (names : List String) (v : Value) (n : String) :
    (names.map fun m => (m, v)).lookup n = if n ∈ names then some v else none := by
  induction names with
  | nil => rfl
  | cons m rest ih =>
      rw [List.map_cons, lookup_cons_ite, ih]
      by_cases hn : n = m <;> simp [hn]

theorem lookup_neededAttributes (o : ExpandOptions) (e : Element) (n : String) :
    (neededAttributes o e).lookup n = wantedAttribute o e n := by
  unfold neededAttributes wantedAttribute
  rw [List.lookup_append, lookup_map_filter, lookup_map_names]
  simp only [List.mem_filter]
  cases e.attributes.find? fun a => a.name == n && a.required with
  | some a => rfl
  | none => exact Option.none_or

theorem lookup_neededChildren (e : Element) (n : String) :
    (neededChildren e).lookup n = wantedChild e n :=
  lookup_map_filter Child.name Child.required (fun c => .string c.cardinality) e.children n

/-! ## Entries -/

/-- What the entry of an element becomes when it is completed. It stays as it is, or is null if
there was none, when it needs nothing. -/
inductive Completes (o : ExpandOptions) (e : Element) : Option Value → Value → Prop
  | bare {v : Option Value} (hattributes : ∀ n, wantedAttribute o e n = none)
      (hchildren : ∀ n, wantedChild e n = none) : Completes o e v (v.getD .null)
  | filled {v : Option Value} {fields after : Pairs}
      (hneeds : ∃ n, wantedAttribute o e n ≠ none ∨ wantedChild e n ≠ none)
      (hfields : IsSection v fields) (hkeyed : after.Keyed)
      (hattributes : Fills (wantedAttribute o e) (Pairs.get? fields "attributes")
        (Pairs.get? after "attributes"))
      (hchildren : Fills (wantedChild e) (Pairs.get? fields "children")
        (Pairs.get? after "children"))
      (hothers : ∀ n, n ≠ "attributes" → n ≠ "children" →
        Pairs.get? after n = Pairs.get? fields n) :
      Completes o e v (.mapping after)

/-- An entry that is a section with sections for attributes and children. -/
structure Sectioned (v : Option Value) (fields : Pairs) : Prop where
  entry : IsSection v fields
  attributes : ∃ attributes, IsSection (Pairs.get? fields "attributes") attributes
  children : ∃ children, IsSection (Pairs.get? fields "children") children

theorem sectioned_get? {elements : Pairs} (h : IsEntries elements) (n : String) :
    ∃ fields, Sectioned (Pairs.get? elements n) fields := by
  cases hv : Pairs.get? elements n with
  | none => exact ⟨[], .missing, ⟨[], .missing⟩, ⟨[], .missing⟩⟩
  | some v =>
      obtain ⟨fields, children, hentry⟩ := h.entry n v hv
      exact ⟨fields, hentry.entry, hentry.attributes, children, hentry.listed⟩

section Entry

variable {o : ExpandOptions} {e : Element} {v : Option Value} {w : Value} {fields : Pairs}

theorem Completes.sectioned (h : Completes o e v w) (hv : Sectioned v fields) :
    ∃ fields, Sectioned (some w) fields := by
  cases h with
  | bare _ _ =>
      cases v with
      | none => exact ⟨[], .null, ⟨[], .missing⟩, ⟨[], .missing⟩⟩
      | some v => exact ⟨fields, hv⟩
  | @filled before after _ hfields hkeyed hattributes hchildren _ =>
      obtain rfl := hfields.unique hv.entry
      obtain ⟨attributes, hbefore⟩ := hv.attributes
      obtain ⟨children, hlisted⟩ := hv.children
      exact ⟨after, .mapping hkeyed, hattributes.isSection hbefore, hchildren.isSection hlisted⟩

theorem completes_completeEntry (o : ExpandOptions) (e : Element) (h : Sectioned v fields) :
    Completes o e v (completeEntry o e (v.getD .null)) := by
  obtain ⟨hentry, ⟨attributes, hattributes⟩, ⟨children, hchildren⟩⟩ := h
  have hwanted : (fun n => (neededAttributes o e).lookup n) = wantedAttribute o e :=
    funext (lookup_neededAttributes o e)
  have hlisted : (fun n => (neededChildren e).lookup n) = wantedChild e :=
    funext (lookup_neededChildren e)
  by_cases hnone : neededAttributes o e = [] ∧ neededChildren e = []
  · have hsame : completeEntry o e (v.getD .null) = v.getD .null := by
      unfold completeEntry
      dsimp only
      rw [hnone.1, hnone.2]
      cases hentry <;> rfl
    rw [hsame]
    refine .bare (fun n => ?_) fun n => ?_
    · rw [← hwanted, hnone.1]
      rfl
    · rw [← hlisted, hnone.2]
      rfl
  · have hneeds : ((neededAttributes o e).isEmpty && (neededChildren e).isEmpty) = false := by
      rw [Bool.eq_false_iff, Ne, Bool.and_eq_true_iff, List.isEmpty_iff, List.isEmpty_iff]
      exact hnone
    have hfilled : completeEntry o e (v.getD .null) =
        .mapping (addToSection "children" (neededChildren e)
          (addToSection "attributes" (neededAttributes o e) fields)) := by
      unfold completeEntry
      dsimp only
      rw [hneeds]
      cases hentry <;> rfl
    have hfirst := fillsSection_addToSection (neededAttributes o e) hentry.keyed hattributes
    have hkeep := hfirst.others "children" (by decide)
    have hsecond := fillsSection_addToSection (neededChildren e) hfirst.keyed (hkeep ▸ hchildren)
    have hattribute := hsecond.others "attributes" (by decide)
    rw [hfilled]
    refine .filled ?_ hentry hsecond.keyed ?_ ?_ fun n hn hn' => ?_
    · rcases not_and_or.1 hnone with h | h
      · obtain ⟨n, hn⟩ := exists_lookup_ne_none h
        exact ⟨n, .inl (lookup_neededAttributes o e n ▸ hn)⟩
      · obtain ⟨n, hn⟩ := exists_lookup_ne_none h
        exact ⟨n, .inr (lookup_neededChildren e n ▸ hn)⟩
    · rw [hattribute, ← hwanted]
      exact hfirst.filled
    · rw [← hlisted, ← hkeep]
      exact hsecond.filled
    · rw [hsecond.others n hn', hfirst.others n hn]

end Entry

/-! ## The closure -/

/-- An element that `element` requires, directly or not, or `element` itself. -/
def Mandatory (grammar : Model) (element n : String) : Prop :=
  grammar.hasElement n = true ∧ ReflTransGen grammar.Requires element n

/-- What is found under a name before and after all that is mandatory is completed. -/
inductive Completed (grammar : Model) (o : ExpandOptions) (element n : String) :
    Option Value → Option Value → Prop
  | mandatory {e : Element} {v : Option Value} {w : Value} (h : Mandatory grammar element n)
      (he : grammar.element? n = some e) (hw : Completes o e v w) :
      Completed grammar o element n v (some w)
  | other {v : Option Value} (h : ¬Mandatory grammar element n) :
      Completed grammar o element n v v

theorem Completed.sectioned {grammar : Model} {o : ExpandOptions} {element n : String}
    {v w : Option Value} {fields : Pairs} (h : Completed grammar o element n v w)
    (hv : Sectioned v fields) : ∃ fields, Sectioned w fields := by
  cases h with
  | mandatory _ _ hw => exact hw.sectioned hv
  | other _ => exact ⟨fields, hv⟩

section Closure

variable {grammar : Model} {o : ExpandOptions} {element n : String} {elements : Pairs}

theorem keyed_ensureEntry (o : ExpandOptions) (e : Element) (name : String)
    (h : elements.Keyed) : (ensureEntry o e name elements).Keyed := by
  unfold ensureEntry
  dsimp only
  split
  · exact h.update name _
  · next hin =>
      exact (h.append_single (fun hmem => hin (h.contains_iff.2 hmem)) _).update name _

theorem get?_ensureEntry (o : ExpandOptions) (e : Element) (name : String) (elements : Pairs)
    (n : String) : Pairs.get? (ensureEntry o e name elements) n =
      if n = name then some (completeEntry o e ((Pairs.get? elements name).getD .null))
      else Pairs.get? elements n := by
  unfold ensureEntry
  dsimp only
  rw [Pairs.get?_update]
  by_cases hn : n = name
  · rw [if_pos hn, if_pos hn, hn]
    split
    · next hin =>
        obtain ⟨v, hv⟩ := Pairs.contains_iff.1 hin
        rw [hv]
        rfl
    · next hin =>
        have hnone := Pairs.contains_eq_false_iff.1 (Bool.eq_false_iff.2 hin)
        rw [Pairs.get?_append, hnone, Pairs.get?_cons_string, if_pos rfl]
        rfl
  · rw [if_neg hn, if_neg hn]
    split
    · rfl
    · rw [Pairs.get?_append, Pairs.get?_cons_string, if_neg hn, Pairs.get?_nil, Option.or_none]

/-- Gives a name that is an element its completed entry. -/
def ensureName (grammar : Model) (o : ExpandOptions) (elements : Pairs) (name : String) : Pairs :=
  match grammar.element? name with
  | some e => ensureEntry o e name elements
  | none => elements

theorem keyed_ensureName (h : elements.Keyed) (name : String) :
    (ensureName grammar o elements name).Keyed := by
  unfold ensureName
  split
  · exact keyed_ensureEntry o _ name h
  · exact h

theorem get?_ensureName (name : String) (hn : n ≠ name) :
    Pairs.get? (ensureName grammar o elements name) n = Pairs.get? elements n := by
  unfold ensureName
  split
  · rw [get?_ensureEntry, if_neg hn]
  · rfl

theorem keyed_foldl_ensureName (names : List String) (h : elements.Keyed) :
    (names.foldl (ensureName grammar o) elements).Keyed := by
  induction names generalizing elements with
  | nil => exact h
  | cons name rest ih => exact ih (keyed_ensureName h name)

theorem get?_foldl_ensureName_of_notMem {names : List String} (hn : n ∉ names) :
    Pairs.get? (names.foldl (ensureName grammar o) elements) n = Pairs.get? elements n := by
  induction names generalizing elements with
  | nil => rfl
  | cons name rest ih =>
      obtain ⟨hne, hrest⟩ := not_or.1 (List.mem_cons.not.1 hn)
      rw [List.foldl_cons, ih hrest, get?_ensureName name hne]

theorem get?_foldl_ensureName {names : List String} (hnodup : names.Nodup) (hn : n ∈ names)
    {e : Element} (he : grammar.element? n = some e) :
    Pairs.get? (names.foldl (ensureName grammar o) elements) n =
      some (completeEntry o e ((Pairs.get? elements n).getD .null)) := by
  induction names generalizing elements with
  | nil => exact absurd hn List.not_mem_nil
  | cons name rest ih =>
      obtain ⟨hname, hrest⟩ := List.nodup_cons.1 hnodup
      rw [List.foldl_cons]
      by_cases hne : n = name
      · subst hne
        rw [get?_foldl_ensureName_of_notMem hname, ensureName, he]
        dsimp only
        rw [get?_ensureEntry, if_pos rfl]
      · rw [ih hrest ((List.mem_cons.1 hn).resolve_left hne), get?_ensureName name hne]

/-- The entries when all that is mandatory is completed. -/
def completedEntries (grammar : Model) (o : ExpandOptions) (element : String)
    (elements : Pairs) : Pairs :=
  (grammar.requiredClosure element).foldl (ensureName grammar o) elements

theorem completed_completedEntries (grammar : Model) (o : ExpandOptions) (element : String)
    (h : IsEntries elements) (n : String) : Completed grammar o element n (Pairs.get? elements n)
      (Pairs.get? (completedEntries grammar o element elements) n) := by
  unfold completedEntries
  by_cases hn : n ∈ grammar.requiredClosure element
  · have hmandatory : Mandatory grammar element n := Model.mem_requiredClosure_iff.1 hn
    obtain ⟨e, he⟩ := Model.hasElement_iff.1 hmandatory.1
    obtain ⟨fields, hfields⟩ := sectioned_get? h n
    rw [get?_foldl_ensureName (Model.requiredClosure_nodup grammar element) hn he]
    exact .mandatory hmandatory he (completes_completeEntry o e hfields)
  · rw [get?_foldl_ensureName_of_notMem hn]
    exact .other fun hmandatory => hn (Model.mem_requiredClosure_iff.2 hmandatory)

theorem Completed.isSome_iff {v w : Option Value} (h : Completed grammar o element n v w) :
    w.isSome = true ↔ v.isSome = true ∨ Mandatory grammar element n := by
  cases h with
  | mandatory hmandatory _ _ => exact iff_of_true rfl (.inr hmandatory)
  | other hnot => exact (or_iff_left hnot).symm

theorem keyed_completedEntries (h : elements.Keyed) :
    (completedEntries grammar o element elements).Keyed := keyed_foldl_ensureName _ h

theorem mem_names_completedEntries (h : IsEntries elements) :
    n ∈ Pairs.names (completedEntries grammar o element elements) ↔
      n ∈ Pairs.names elements ∨ Mandatory grammar element n := by
  rw [(keyed_completedEntries h.keyed).mem_names_iff, h.keyed.mem_names_iff,
    ← Option.isSome_iff_exists, ← Option.isSome_iff_exists]
  exact (completed_completedEntries grammar o element h n).isSome_iff

end Closure

/-! ## The root -/

/-- The entry of the root before and after it takes in the document types that are present. An
entry that is left empty becomes null. -/
def ListsTypes (present : List String) (v : Option Value) (w : Value) : Prop :=
  ∃ fields after, IsSection v fields ∧
    FillsSection "children"
      (fun n => if n ∈ present then some (.string documentTypeLabel) else none) fields after ∧
    w = if after.isEmpty then .null else .mapping after

section Root

variable {grammar : Model} {root n : String} {documentTypes : List String} {elements fields : Pairs}

theorem ensureRoot_of_none (h : grammar.root = none) :
    ensureRoot grammar documentTypes elements = elements := by
  unfold ensureRoot
  rw [h]

theorem ensureRoot_of_some (hroot : grammar.root = some root)
    (h : Sectioned (Pairs.get? elements root) fields) :
    ∃ value, ensureRoot grammar documentTypes elements =
        (.string root, value) :: Pairs.erase elements root ∧
      ListsTypes (documentTypes.filter (Pairs.contains elements)) (Pairs.get? elements root)
        value := by
  obtain ⟨children, hchildren⟩ := h.children
  have hfills := fillsSection_addToSection
    ((documentTypes.filter (Pairs.contains elements)).map fun dt =>
      (dt, Value.string documentTypeLabel)) h.entry.keyed hchildren
  rw [funext (lookup_map_names _ _)] at hfills
  refine ⟨_, ?_, fields, _, h.entry, hfills, rfl⟩
  have hentry := h.entry
  unfold ensureRoot
  rw [hroot]
  dsimp only
  generalize Pairs.get? elements root = v at hentry ⊢
  cases hentry <;> rfl

theorem get?_cons_erase (elements : Pairs) (root : String) (value : Value) (n : String) :
    Pairs.get? ((.string root, value) :: Pairs.erase elements root) n =
      if n = root then some value else Pairs.get? elements n := by
  rw [Pairs.get?_cons_string, Pairs.get?_erase]
  split <;> rfl

theorem keyed_cons_erase (h : elements.Keyed) (root : String) (value : Value) :
    Pairs.Keyed ((.string root, value) :: Pairs.erase elements root) := by
  refine Pairs.keyed_cons.2 ⟨?_, h.erase root⟩
  rw [← (h.erase root).get?_eq_none_iff, Pairs.get?_erase, if_pos rfl]

end Root

/-- What some entries are when an element is expanded. -/
structure Expanded (grammar : Model) (o : ExpandOptions) (documentTypes : List String)
    (element : String) (elements after : Pairs) : Prop where
  keyed : after.Keyed
  order : Pairs.names after = elementOrder grammar after
  entries : ∀ n, grammar.root ≠ some n →
    Completed grammar o element n (Pairs.get? elements n) (Pairs.get? after n)
  root : ∀ n, grammar.root = some n → ∃ present completed v,
    (∀ dt, dt ∈ present ↔ dt ∈ documentTypes ∧
      (dt ∈ Pairs.names elements ∨ Mandatory grammar element dt)) ∧
    Completed grammar o element n (Pairs.get? elements n) completed ∧
    ListsTypes present completed v ∧ Pairs.get? after n = some v

theorem expanded_expandElements (grammar : Model) (o : ExpandOptions)
    (documentTypes : List String) (element : String) {elements : Pairs} (h : IsEntries elements) :
    Expanded grammar o documentTypes element elements
      (expandElements grammar o element documentTypes elements) := by
  have hexpand : expandElements grammar o element documentTypes elements =
      orderElements grammar
        (ensureRoot grammar documentTypes (completedEntries grammar o element elements)) := rfl
  have hcompleted := completed_completedEntries grammar o element h
  have hkeyed : (completedEntries grammar o element elements).Keyed :=
    keyed_completedEntries h.keyed
  have hordered : ∀ rooted : Pairs, rooted.Keyed →
      Pairs.names (orderElements grammar rooted) =
        elementOrder grammar (orderElements grammar rooted) := by
    intro rooted hrooted
    rw [names_orderElements grammar hrooted]
    exact elementOrder_congr grammar hrooted (keyed_orderElements grammar hrooted)
      fun n => (get?_orderElements grammar hrooted n).symm
  rw [hexpand]
  cases hroot : grammar.root with
  | none =>
      rw [ensureRoot_of_none hroot]
      refine ⟨keyed_orderElements grammar hkeyed, hordered _ hkeyed, fun n _ => ?_, fun n hn => ?_⟩
      · rw [get?_orderElements grammar hkeyed]
        exact hcompleted n
      · rw [hroot] at hn
        cases hn
  | some root =>
      obtain ⟨before, hbefore⟩ := sectioned_get? h root
      obtain ⟨fields, hfields⟩ := (hcompleted root).sectioned hbefore
      obtain ⟨value, hvalue, hlists⟩ := ensureRoot_of_some hroot hfields
      have hrooted := keyed_cons_erase hkeyed root value
      rw [hvalue]
      refine ⟨keyed_orderElements grammar hrooted, hordered _ hrooted, fun n hn => ?_,
        fun n hn => ?_⟩
      · have hne : n ≠ root := fun e => hn (e ▸ hroot)
        rw [get?_orderElements grammar hrooted, get?_cons_erase, if_neg hne]
        exact hcompleted n
      · obtain rfl : root = n := Option.some.inj (hroot.symm.trans hn)
        refine ⟨_, _, value, fun dt => ?_, hcompleted root, hlists, ?_⟩
        · rw [List.mem_filter, hkeyed.contains_iff, mem_names_completedEntries h]
        · rw [get?_orderElements grammar hrooted, get?_cons_erase, if_pos rfl]

/-- A grammar of lists, each with at least one item. -/
def listGrammar : Model :=
  ⟨.ofList [("item", ⟨"item", "item", none, [], [], [], [], ""⟩),
    ("list", ⟨"list", "list", none, [], [⟨"item", Grammar.Count.one, none, []⟩], [], [], ""⟩)],
    ∅, none⟩

/-- A profile with an empty entry for lists. -/
def listProfile : String := "profile: \x7belements: \x7blist: \x7d\x7d"

theorem read_listProfile : Yaml.read listProfile = .ok (entriesTree [(.string "list", .null)]) :=
  Value.read_eq_ok rfl (by decide +kernel)

end GrammarProfile.Cascade
