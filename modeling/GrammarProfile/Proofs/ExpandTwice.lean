import GrammarProfile.Proofs.Again
import GrammarProfile.Proofs.Sessions

/-!
Expanding two elements gives the same entries in either order. Only the root can show which one
came first, by the order in which it lists the document types.
-/
namespace GrammarProfile.Cascade

open GrammarProfile.Grammar (Element Model)
open GrammarProfile.Profile (Accepted IsSection IsEntries Restriction withEntries)
open GrammarProfile.Yaml (Value Pairs)

/-! ## Sections that take in something twice -/

section Additions

variable {name : String} {first second : List (String × Value)} {fields before : Pairs}

theorem addToSection_eq_set (hkeyed : fields.Keyed)
    (hsection : IsSection (Pairs.get? fields name) before) (hsome : second ≠ []) :
    addToSection name second fields =
      Pairs.set name (.mapping (addMissing second before)) fields := by
  obtain ⟨p, rest, rfl⟩ := List.exists_cons_of_ne_nil hsome
  have hopened : opened name fields = Pairs.set name (.mapping before) fields := by
    unfold opened
    generalize hv : Pairs.get? fields name = v at hsection
    cases hsection with
    | missing => rfl
    | null => rfl
    | mapping _ => exact (Pairs.set_eq_self hv).symm
  rw [addToSection_cons, hopened, Pairs.update_set (hkeyed.once name), Value.editPairs]

theorem addToSection_addToSection (hkeyed : fields.Keyed)
    (hsection : IsSection (Pairs.get? fields name) before) (hsome : second ≠ []) :
    addToSection name second (addToSection name first fields) =
      Pairs.set name (.mapping (addMissing second (addMissing first before))) fields := by
  by_cases hnone : first = []
  · subst hnone
    exact addToSection_eq_set hkeyed hsection hsome
  · have hinner : IsSection (Pairs.get? (Pairs.set name (.mapping (addMissing first before)) fields)
        name) (addMissing first before) := by
      rw [Pairs.get?_set, if_pos rfl]
      exact .mapping (gains_addMissing first hsection.keyed).keyed
    rw [addToSection_eq_set hkeyed hsection hnone,
      addToSection_eq_set (hkeyed.set name _) hinner hsome, Pairs.set_set]

/-- What is added in two goes can be found whichever part of it was first. -/
theorem addMissing_addMissing_perm {other : List (String × Value)} (hkeyed : before.Keyed)
    (hfirst : ∀ n, first.lookup n ≠ none → first.lookup n = second.lookup n)
    (hother : ∀ n, other.lookup n ≠ none → other.lookup n = second.lookup n) :
    (addMissing second (addMissing first before)).Perm
      (addMissing second (addMissing other before)) := by
  have hget : ∀ part : List (String × Value),
      (∀ n, part.lookup n ≠ none → part.lookup n = second.lookup n) →
      ∀ n, Pairs.get? (addMissing second (addMissing part before)) n =
        (Pairs.get? before n).or (second.lookup n) := by
    intro part hpart n
    have hgains := gains_addMissing part hkeyed
    rw [(gains_addMissing second hgains.keyed).get?, hgains.get?, Option.or_assoc]
    congr 1
    cases hn : part.lookup n with
    | none => rfl
    | some v => rw [← hpart n (hn ▸ Option.some_ne_none v), hn, Option.some_or]
  refine (gains_addMissing second (gains_addMissing first hkeyed).keyed).keyed.perm_of_get?
    (gains_addMissing second (gains_addMissing other hkeyed).keyed).keyed fun n => ?_
  rw [hget first hfirst, hget other hother]

end Additions

/-! ## Lookups after an expansion -/

/-- What is found under the name of an element once its entry is completed. -/
def completedAt (grammar : Model) (o : ExpandOptions) (n : String) (v : Option Value) :
    Option Value :=
  (grammar.element? n).map fun e => completeEntry o e (v.getD .null)

section Lookups

variable {grammar : Model} {o : ExpandOptions} {documentTypes : List String}
  {element root n : String} {elements fields : Pairs}

theorem completedAt_completedAt {v : Option Value} (h : Sectioned v fields) :
    completedAt grammar o n (completedAt grammar o n v) = completedAt grammar o n v := by
  unfold completedAt
  cases grammar.element? n with
  | none => rfl
  | some e =>
      obtain ⟨after, hafter, hsupplies⟩ := (completes_completeEntry o e h).supplies h
      rw [Option.map_some, Option.map_some, Option.getD_some, hsupplies.completeEntry_eq hafter]

theorem get?_completedEntries (elements : Pairs) (n : String) :
    Pairs.get? (completedEntries grammar o element elements) n =
      if n ∈ grammar.requiredClosure element then completedAt grammar o n (Pairs.get? elements n)
      else Pairs.get? elements n := by
  unfold completedEntries
  split
  · next hn =>
      obtain ⟨e, he⟩ := Model.hasElement_iff.1 (Model.mem_requiredClosure_iff.1 hn).1
      rw [get?_foldl_ensureName (Model.requiredClosure_nodup grammar element) hn he, completedAt, he,
        Option.map_some]
  · next hn => exact get?_foldl_ensureName_of_notMem hn

theorem contains_completedEntries :
    Pairs.contains (completedEntries grammar o element elements) n = true ↔
      Pairs.contains elements n = true ∨ n ∈ grammar.requiredClosure element := by
  rw [Pairs.contains_iff, Pairs.contains_iff, get?_completedEntries]
  split
  · next hn =>
      obtain ⟨e, he⟩ := Model.hasElement_iff.1 (Model.mem_requiredClosure_iff.1 hn).1
      rw [completedAt, he, Option.map_some]
      exact iff_of_true ⟨_, rfl⟩ (.inr hn)
  · next hn => exact (or_iff_left hn).symm

variable (documentTypes) in
theorem ensureRoot_eq_cons (hroot : grammar.root = some root) (elements : Pairs) :
    ∃ value, ensureRoot grammar documentTypes elements =
      (.string root, value) :: Pairs.erase elements root := by
  unfold ensureRoot
  rw [hroot]
  exact ⟨_, rfl⟩

theorem keyed_ensureRoot (h : elements.Keyed) :
    (ensureRoot grammar documentTypes elements).Keyed := by
  cases hroot : grammar.root with
  | none =>
      rw [ensureRoot_of_none hroot]
      exact h
  | some root =>
      obtain ⟨value, hvalue⟩ := ensureRoot_eq_cons documentTypes hroot elements
      rw [hvalue]
      exact keyed_cons_erase h root value

theorem get?_ensureRoot (hn : grammar.root ≠ some n) (elements : Pairs) :
    Pairs.get? (ensureRoot grammar documentTypes elements) n = Pairs.get? elements n := by
  cases hroot : grammar.root with
  | none => rw [ensureRoot_of_none hroot]
  | some root =>
      obtain ⟨value, hvalue⟩ := ensureRoot_eq_cons documentTypes hroot elements
      have hne : n ≠ root := by
        rintro rfl
        exact hn hroot
      rw [hvalue, get?_cons_erase, if_neg hne]

theorem expandElements_eq (grammar : Model) (o : ExpandOptions) (element : String)
    (documentTypes : List String) (elements : Pairs) :
    expandElements grammar o element documentTypes elements = orderElements grammar
      (ensureRoot grammar documentTypes (completedEntries grammar o element elements)) := rfl

theorem keyed_expandElements (h : elements.Keyed) :
    (expandElements grammar o element documentTypes elements).Keyed := by
  rw [expandElements_eq]
  exact keyed_orderElements grammar (keyed_ensureRoot (keyed_completedEntries h))

theorem get?_expandElements (h : elements.Keyed) (hn : grammar.root ≠ some n) :
    Pairs.get? (expandElements grammar o element documentTypes elements) n =
      if n ∈ grammar.requiredClosure element then completedAt grammar o n (Pairs.get? elements n)
      else Pairs.get? elements n := by
  rw [expandElements_eq,
    get?_orderElements grammar (keyed_ensureRoot (keyed_completedEntries h)), get?_ensureRoot hn,
    get?_completedEntries]

/-- The document types that the root lists. -/
def typesListed (present : List String) : List (String × Value) :=
  present.map fun dt => (dt, .string documentTypeLabel)

variable (o documentTypes) in
theorem get?_expandElements_root (h : elements.Keyed) (hroot : grammar.root = some root)
    (hout : root ∉ grammar.requiredClosure element)
    (hsection : IsSection (Pairs.get? elements root) fields) :
    Pairs.get? (expandElements grammar o element documentTypes elements) root =
      some (entryValue (addToSection "children" (typesListed (documentTypes.filter
        (Pairs.contains (completedEntries grammar o element elements)))) fields)) := by
  have hsame : IsSection (Pairs.get? (completedEntries grammar o element elements) root)
      fields := by
    rw [get?_completedEntries, if_neg hout]
    exact hsection
  rw [expandElements_eq,
    get?_orderElements grammar (keyed_ensureRoot (keyed_completedEntries h)),
    ensureRoot_eq documentTypes hroot hsame, get?_cons_erase, if_pos rfl]
  rfl

theorem contains_expandElements (h : elements.Keyed) :
    Pairs.contains (expandElements grammar o element documentTypes elements) n = true ↔
      (Pairs.contains elements n = true ∨ n ∈ grammar.requiredClosure element) ∨
        grammar.root = some n := by
  rw [← @contains_completedEntries grammar o, expandElements_eq,
    Pairs.contains_iff, get?_orderElements grammar (keyed_ensureRoot (keyed_completedEntries h)),
    ← Pairs.contains_iff]
  by_cases hn : grammar.root = some n
  · obtain ⟨value, hvalue⟩ := ensureRoot_eq_cons documentTypes hn
      (completedEntries grammar o element elements)
    rw [hvalue, Pairs.contains_iff, get?_cons_erase, if_pos rfl]
    exact iff_of_true ⟨value, rfl⟩ (.inr hn)
  · rw [Pairs.contains_iff, get?_ensureRoot hn, ← Pairs.contains_iff]
    exact (or_iff_left hn).symm

end Lookups

/-! ## Entries whose children stand in another order -/

/-- The same entry, in which the children may stand in another order. -/
def ChildrenMoved (v w : Value) : Prop :=
  v = w ∨ ∃ fields before after : Pairs, before.Perm after ∧
    v = .mapping (Pairs.set "children" (.mapping before) fields) ∧
    w = .mapping (Pairs.set "children" (.mapping after) fields)

/-- The same entries in the same order, but for the order of the children of the root. -/
def SameUpToRoot (root : Option String) (left right : Pairs) : Prop :=
  List.Forall₂ (fun p q => p.1 = q.1 ∧
    (p.2 = q.2 ∨ (∃ n, root = some n ∧ p.1 = .string n) ∧ ChildrenMoved p.2 q.2)) left right

section Moved

variable {v w : Value} {m : String}

theorem ChildrenMoved.mem_childReferences (h : ChildrenMoved v w) :
    m ∈ Tree.childReferences v ↔ m ∈ Tree.childReferences w := by
  obtain rfl | ⟨fields, before, after, hperm, rfl, rfl⟩ := h
  · rfl
  · have hchildren : ∀ children : Pairs, Tree.childReferences
        (.mapping (Pairs.set "children" (.mapping children) fields)) =
          Tree.declaredIn children := by
      intro children
      unfold Tree.childReferences
      rw [Value.pairs?_mapping, Option.bind_some, Pairs.get?_set, if_pos rfl, Option.bind_some,
        Value.pairs?_mapping]
    have hnames : m ∈ Pairs.names before ↔ m ∈ Pairs.names after :=
      (hperm.filterMap _).mem_iff
    rw [hchildren, hchildren, mem_declaredIn, mem_declaredIn, hnames]
    simp only [hperm.mem_iff]

variable {grammar : Model} {left right : Pairs}

/-- Entries with the same lookups, but for the order of the children of the root, are the same
entries in the same order once they are put into order. -/
theorem sameUpToRoot_orderElements (hleft : left.Keyed) (hright : right.Keyed)
    (hsome : ∀ n, (Pairs.get? left n).isSome = (Pairs.get? right n).isSome)
    (hget : ∀ n v w, Pairs.get? left n = some v → Pairs.get? right n = some w →
      v = w ∨ grammar.root = some n ∧ ChildrenMoved v w) :
    SameUpToRoot grammar.root (orderElements grammar left) (orderElements grammar right) := by
  have hmoved : ∀ n v w, Pairs.get? left n = some v → Pairs.get? right n = some w →
      ChildrenMoved v w := fun n v w hv hw => (hget n v w hv hw).elim .inl And.right
  have horder : elementOrder grammar left = elementOrder grammar right := by
    refine arrangement_congr grammar.root (fun n => ?_) fun m n => ?_
    · rw [map_fst_references, map_fst_references, hleft.mem_names_iff, hright.mem_names_iff,
        ← Option.isSome_iff_exists, ← Option.isSome_iff_exists, hsome]
    · simp only [mem_references_iff hleft, mem_references_iff hright]
      have hm := hsome m
      cases hv : Pairs.get? left m with
      | none =>
          rw [hv] at hm
          have hw : Pairs.get? right m = none := Option.not_isSome_iff_eq_none.1 (by rw [← hm]; simp)
          simp [hw]
      | some v =>
          rw [hv] at hm
          obtain ⟨w, hw⟩ := Option.isSome_iff_exists.1 hm.symm
          simp [hw, (hmoved m v w hv hw).mem_childReferences]
  rw [orderElements_eq grammar hleft, orderElements_eq grammar hright, ← horder]
  have hnames : ∀ n ∈ elementOrder grammar left, (Pairs.get? left n).isSome = true := by
    intro n hn
    rw [Option.isSome_iff_exists, ← hleft.mem_names_iff]
    exact (elementOrder_perm grammar hleft).mem_iff.1 hn
  unfold SameUpToRoot
  generalize elementOrder grammar left = names at hnames
  induction names with
  | nil => exact .nil
  | cons n rest ih =>
      obtain ⟨v, hv⟩ := Option.isSome_iff_exists.1 (hnames n List.mem_cons_self)
      obtain ⟨w, hw⟩ := Option.isSome_iff_exists.1 ((hsome n).symm.trans (hv ▸ rfl))
      rw [List.filterMap_cons, List.filterMap_cons, hv, hw]
      refine .cons ⟨rfl, ?_⟩ (ih fun m hm => hnames m (List.mem_cons_of_mem _ hm))
      exact (hget n v w hv hw).imp_right fun h => ⟨⟨n, h.1, rfl⟩, h.2⟩

end Moved

/-! ## Two expansions -/

section Types

variable {fields children : Pairs} {present first other : List String}

theorem lookup_typesListed (present : List String) (n : String) :
    (typesListed present).lookup n =
      if n ∈ present then some (.string documentTypeLabel) else none :=
  lookup_map_names present _ n

/-- What the root lists in the end does not depend on what it listed before, up to the order. -/
theorem childrenMoved_typesListed (hkeyed : fields.Keyed)
    (hchildren : IsSection (Pairs.get? fields "children") children)
    (hfirst : ∀ n ∈ first, n ∈ present) (hother : ∀ n ∈ other, n ∈ present) :
    ChildrenMoved
      (entryValue (addToSection "children" (typesListed present)
        (addToSection "children" (typesListed first) fields)))
      (entryValue (addToSection "children" (typesListed present)
        (addToSection "children" (typesListed other) fields))) := by
  by_cases hnone : present = []
  · subst hnone
    rw [List.eq_nil_iff_forall_not_mem.2 fun n hn => List.not_mem_nil (hfirst n hn),
      List.eq_nil_iff_forall_not_mem.2 fun n hn => List.not_mem_nil (hother n hn)]
    exact .inl rfl
  · have hsome : typesListed present ≠ [] := fun e => hnone (List.map_eq_nil_iff.1 e)
    have hvalue : ∀ (inner : Pairs), entryValue (Pairs.set "children" (.mapping inner) fields) =
        .mapping (Pairs.set "children" (.mapping inner) fields) := by
      intro inner
      have hne : Pairs.set "children" (.mapping inner) fields ≠ [] := fun e => by
        have hget := Pairs.get?_set "children" (.mapping inner) fields "children"
        rw [e, if_pos rfl] at hget
        cases hget
      rw [entryValue, if_neg (by simpa using hne)]
    have hpart : ∀ part : List String, (∀ n ∈ part, n ∈ present) → ∀ n,
        (typesListed part).lookup n ≠ none →
          (typesListed part).lookup n = (typesListed present).lookup n := by
      intro part hsubset n hn
      rw [lookup_typesListed] at hn ⊢
      by_cases hin : n ∈ part
      · rw [if_pos hin, lookup_typesListed, if_pos (hsubset n hin)]
      · exact absurd (if_neg hin) hn
    rw [addToSection_addToSection hkeyed hchildren hsome,
      addToSection_addToSection hkeyed hchildren hsome, hvalue, hvalue]
    exact .inr ⟨fields, _, _, addMissing_addMissing_perm hchildren.keyed (hpart first hfirst)
      (hpart other hother), rfl, rfl⟩

end Types

section Twice

variable {grammar : Model} {o : ExpandOptions} {documentTypes : List String} {a b n root : String}
  {elements : Pairs} (h : IsEntries elements)
include h

theorem get?_expandElements_twice (hn : grammar.root ≠ some n) :
    Pairs.get? (expandElements grammar o b documentTypes
        (expandElements grammar o a documentTypes elements)) n =
      if n ∈ grammar.requiredClosure a ∨ n ∈ grammar.requiredClosure b then
        completedAt grammar o n (Pairs.get? elements n)
      else Pairs.get? elements n := by
  obtain ⟨fields, hfields⟩ := sectioned_get? h n
  rw [get?_expandElements (keyed_expandElements h.keyed) hn, get?_expandElements h.keyed hn]
  by_cases ha : n ∈ grammar.requiredClosure a <;> by_cases hb : n ∈ grammar.requiredClosure b
  · rw [if_pos hb, if_pos ha, if_pos (.inl ha), completedAt_completedAt hfields]
  · rw [if_neg hb, if_pos ha, if_pos (.inl ha)]
  · rw [if_pos hb, if_neg ha, if_pos (.inr hb)]
  · rw [if_neg hb, if_neg ha, if_neg (not_or.2 ⟨ha, hb⟩)]

/-- The document types that are present after two expansions. -/
theorem types_present (hroot : grammar.root = some root) (n : String) :
    Pairs.contains (completedEntries grammar o b
        (expandElements grammar o a documentTypes elements)) n = true ↔
      n ∈ Pairs.names elements ∨ n ∈ grammar.requiredClosure a ∨
        n ∈ grammar.requiredClosure b ∨ n = root := by
  rw [contains_completedEntries, contains_expandElements h.keyed, h.keyed.contains_iff, hroot,
    Option.some.injEq, eq_comm (a := root)]
  tauto

variable (o documentTypes) in
/-- The root lists the document types in an order that tells which expansion was first. -/
theorem childrenMoved_root (hroot : grammar.root = some root)
    (ha : root ∉ grammar.requiredClosure a) (hb : root ∉ grammar.requiredClosure b) :
    ∃ v w, Pairs.get? (expandElements grammar o b documentTypes
        (expandElements grammar o a documentTypes elements)) root = some v ∧
      Pairs.get? (expandElements grammar o a documentTypes
        (expandElements grammar o b documentTypes elements)) root = some w ∧
      ChildrenMoved v w := by
  obtain ⟨fields, hfields⟩ := sectioned_get? h root
  obtain ⟨children, hchildren⟩ := hfields.children
  have hkeyed := hfields.entry.keyed
  have htwice : ∀ c d, root ∉ grammar.requiredClosure c → root ∉ grammar.requiredClosure d →
      Pairs.get? (expandElements grammar o d documentTypes
          (expandElements grammar o c documentTypes elements)) root =
        some (entryValue (addToSection "children" (typesListed (documentTypes.filter
          (Pairs.contains (completedEntries grammar o d
            (expandElements grammar o c documentTypes elements)))))
          (addToSection "children" (typesListed (documentTypes.filter
            (Pairs.contains (completedEntries grammar o c elements)))) fields))) := by
    intro c d hc hd
    have honce := get?_expandElements_root o documentTypes h.keyed hroot hc hfields.entry
    refine get?_expandElements_root o documentTypes (keyed_expandElements h.keyed) hroot hd ?_
    rw [honce]
    exact isSection_entryValue (fillsSection_addToSection _ hkeyed hchildren).keyed
  -- Both orders end with the same document types, and each begins with some of them.
  have hsame : documentTypes.filter (Pairs.contains (completedEntries grammar o a
        (expandElements grammar o b documentTypes elements))) =
      documentTypes.filter (Pairs.contains (completedEntries grammar o b
        (expandElements grammar o a documentTypes elements))) := by
    refine List.filter_congr fun n _ => Bool.eq_iff_iff.2 ?_
    rw [types_present h hroot, types_present h hroot]
    tauto
  have hpart : ∀ c, c = a ∨ c = b → ∀ n ∈ documentTypes.filter
      (Pairs.contains (completedEntries grammar o c elements)),
      n ∈ documentTypes.filter (Pairs.contains (completedEntries grammar o b
        (expandElements grammar o a documentTypes elements))) := by
    intro c hc n hn
    obtain ⟨htype, hcontains⟩ := List.mem_filter.1 hn
    refine List.mem_filter.2 ⟨htype, (types_present h hroot n).2 ?_⟩
    rw [contains_completedEntries, h.keyed.contains_iff] at hcontains
    rcases hc with rfl | rfl <;> tauto
  rw [htwice a b ha hb, htwice b a hb ha, hsame]
  refine ⟨_, _, rfl, rfl, ?_⟩
  generalize documentTypes.filter (Pairs.contains (completedEntries grammar o b
    (expandElements grammar o a documentTypes elements))) = present at hpart ⊢
  have hfirst := hpart a (.inl rfl)
  have hother := hpart b (.inr rfl)
  generalize documentTypes.filter (Pairs.contains (completedEntries grammar o a elements)) =
    first at hfirst ⊢
  generalize documentTypes.filter (Pairs.contains (completedEntries grammar o b elements)) =
    other at hother ⊢
  exact childrenMoved_typesListed hkeyed hchildren hfirst hother

/-- Expanding two elements that do not require the root gives the same entries in the same order,
whichever is first; only the children of the root may stand in another order. -/
theorem expandElements_comm (ha : ∀ n, grammar.root = some n → n ∉ grammar.requiredClosure a)
    (hb : ∀ n, grammar.root = some n → n ∉ grammar.requiredClosure b) :
    SameUpToRoot grammar.root
      (expandElements grammar o b documentTypes
        (expandElements grammar o a documentTypes elements))
      (expandElements grammar o a documentTypes
        (expandElements grammar o b documentTypes elements)) := by
  have hordered : ∀ c d, expandElements grammar o d documentTypes
        (expandElements grammar o c documentTypes elements) =
      orderElements grammar (ensureRoot grammar documentTypes (completedEntries grammar o d
        (expandElements grammar o c documentTypes elements))) := fun _ _ => rfl
  have hkeyed : ∀ c d, (ensureRoot grammar documentTypes (completedEntries grammar o d
      (expandElements grammar o c documentTypes elements))).Keyed := fun _ _ =>
    keyed_ensureRoot (keyed_completedEntries (keyed_expandElements h.keyed))
  have hget : ∀ c d n, Pairs.get? (ensureRoot grammar documentTypes (completedEntries grammar o d
      (expandElements grammar o c documentTypes elements))) n =
        Pairs.get? (expandElements grammar o d documentTypes
          (expandElements grammar o c documentTypes elements)) n := fun c d n => by
    rw [hordered, get?_orderElements grammar (hkeyed c d)]
  have hothers : ∀ n, grammar.root ≠ some n →
      Pairs.get? (expandElements grammar o b documentTypes
          (expandElements grammar o a documentTypes elements)) n =
        Pairs.get? (expandElements grammar o a documentTypes
          (expandElements grammar o b documentTypes elements)) n := by
    intro n hn
    rw [get?_expandElements_twice h hn, get?_expandElements_twice h hn]
    simp only [or_comm]
  rw [hordered, hordered]
  refine sameUpToRoot_orderElements (hkeyed a b) (hkeyed b a) (fun n => ?_) fun n v w hv hw => ?_
  · rw [hget, hget]
    by_cases hn : grammar.root = some n
    · obtain ⟨v, w, hv, hw, _⟩ := childrenMoved_root o documentTypes h hn (ha n hn) (hb n hn)
      rw [hv, hw]
      rfl
    · rw [hothers n hn]
  · rw [hget] at hv hw
    by_cases hn : grammar.root = some n
    · obtain ⟨_, _, hv', hw', hmoved⟩ :=
        childrenMoved_root o documentTypes h hn (ha n hn) (hb n hn)
      cases hv.symm.trans hv'
      cases hw.symm.trans hw'
      exact .inr ⟨hn, hmoved⟩
    · exact .inl (Option.some.inj (hv.symm.trans ((hothers n hn).trans hw)))

end Twice

/-- Two elements that do not require the root can be added to an accepted profile in either order.
Both give the same tree, with the same entries in the same order, but for the order of the children
of the root. -/
theorem expand_comm {grammar : Model} {a b text : String} {r : Restriction} (o : ExpandOptions)
    (ha : grammar.hasElement a = true) (hb : grammar.hasElement b = true)
    (hroota : ∀ n, grammar.root = some n → n ∉ grammar.requiredClosure a)
    (hrootb : ∀ n, grammar.root = some n → n ∉ grammar.requiredClosure b)
    (haccepted : (Profile.read text).profile = some r) :
    ∃ tree root fields left right, Yaml.read text = .ok tree ∧
      expand grammar o a text = .ok (Tree.render ((Edit.expand o a).apply grammar tree)) ∧
      expand grammar o b text = .ok (Tree.render ((Edit.expand o b).apply grammar tree)) ∧
      (Edit.expand o b).apply grammar ((Edit.expand o a).apply grammar tree) =
        withEntries root fields left ∧
      (Edit.expand o a).apply grammar ((Edit.expand o b).apply grammar tree) =
        withEntries root fields right ∧
      SameUpToRoot grammar.root left right := by
  obtain ⟨root, fields, elements, h⟩ := Profile.accepted_of_read haccepted
  have htwice : ∀ c d, (Edit.expand o d).apply grammar
        ((Edit.expand o c).apply grammar (.mapping root)) =
      withEntries root fields (expandElements grammar o d r.documentTypes
        (expandElements grammar o c r.documentTypes elements)) := by
    intro c d
    have honce : (Edit.expand o c).apply grammar (.mapping root) =
        withEntries root fields (expandElements grammar o c r.documentTypes elements) :=
      expandTree_eq h o
    rw [honce, h.apply_withEntries, Edit.entries]
  exact ⟨_, root, fields, _, _, h.read, expand_eq_ok h o ha, expand_eq_ok h o hb, htwice a b,
    htwice b a, expandElements_comm h.entries hroota hrootb⟩

/-- A profile of pages and covers, neither of which has an entry. -/
def shelfProfile : String := "profile: {documentTypes: [page, cover]}"

/-- A grammar of books, with pages and covers in them. -/
def shelfGrammar : Model :=
  ⟨.ofList [("book", ⟨"book", "book", none, [], [], [], [], ""⟩),
    ("cover", ⟨"cover", "cover", none, [], [], [], [], ""⟩),
    ("page", ⟨"page", "page", none, [], [], [], [], ""⟩)], ∅, some "book"⟩

theorem expand_page_and_cover : ∃ r tree root fields left right,
    (Profile.read shelfProfile).profile = some r ∧ Yaml.read shelfProfile = .ok tree ∧
      expand shelfGrammar .standard "page" shelfProfile =
        .ok (Tree.render ((Edit.expand .standard "page").apply shelfGrammar tree)) ∧
      expand shelfGrammar .standard "cover" shelfProfile =
        .ok (Tree.render ((Edit.expand .standard "cover").apply shelfGrammar tree)) ∧
      (Edit.expand .standard "cover").apply shelfGrammar
          ((Edit.expand .standard "page").apply shelfGrammar tree) =
        withEntries root fields left ∧
      (Edit.expand .standard "page").apply shelfGrammar
          ((Edit.expand .standard "cover").apply shelfGrammar tree) =
        withEntries root fields right ∧
      SameUpToRoot shelfGrammar.root left right := by
  obtain ⟨r, hr, -⟩ := Profile.exists_profile (p := fun _ => true)
    (rfl : shelfProfile = String.ofList _) (by decide +kernel)
  have hout : ∀ c, c = "page" ∨ c = "cover" →
      ∀ n, shelfGrammar.root = some n → n ∉ shelfGrammar.requiredClosure c := by
    rintro c (rfl | rfl) n hn <;> obtain rfl : "book" = n := Option.some.inj hn <;> decide
  obtain ⟨tree, root, fields, left, right, hexpand⟩ :=
    @expand_comm shelfGrammar "page" "cover" shelfProfile r .standard (by decide) (by decide)
      (hout _ (.inl rfl)) (hout _ (.inr rfl)) hr
  exact ⟨r, tree, root, fields, left, right, hr, hexpand⟩

end GrammarProfile.Cascade
