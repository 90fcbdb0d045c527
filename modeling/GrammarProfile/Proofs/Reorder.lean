import GrammarProfile.Proofs.Closure
import GrammarProfile.Proofs.Order
import GrammarProfile.Proofs.Rearranged

/-!
Putting a profile into order moves its parts. What else it does is exact, too: entries whose key
is a number or a boolean are lost, and of several keys that read as the choice the last one stays.
-/
namespace GrammarProfile.Cascade

open GrammarProfile.Grammar (Element Model)
open GrammarProfile.Yaml (Value Pairs)
open GrammarProfile.Yaml.Value (Rearranged)

/-! ## Children and attributes -/

section Sections

variable {grammar : Model} {name : String} {pairs : Pairs}

theorem sortByRank_perm (rank : String → Rank) (pairs : Pairs) :
    (sortByRank rank pairs).Perm pairs := List.mergeSort_perm _ _

theorem rearranged_reorderAttributes (grammar : Model) (name : String) (attributes : Pairs) :
    Rearranged (.mapping attributes) (.mapping (reorderAttributes grammar name attributes)) := by
  unfold reorderAttributes
  split
  · exact .same _
  · exact .of_perm (sortByRank_perm _ _).symm

theorem rearranged_editMapping {f : Pairs → Pairs}
    (h : ∀ pairs, Rearranged (.mapping pairs) (.mapping (f pairs))) (v : Value) :
    Rearranged v (editMapping f v) := by
  cases v with
  | mapping pairs => exact h pairs
  | _ => exact .same _

/-- A choice with its members in order. -/
def sortedChoice (rank : String → Rank) (p : Value × Value) : Value :=
  if isChoiceKey p.1 then editMapping (sortByRank rank) p.2 else p.2

theorem rearranged_sortedChoice (rank : String → Rank) (p : Value × Value) :
    Rearranged p.2 (sortedChoice rank p) := by
  unfold sortedChoice
  split
  · exact rearranged_editMapping (fun pairs => .of_perm (sortByRank_perm rank pairs).symm) p.2
  · exact .same p.2

theorem map_sortedChoice_plain (rank : String → Rank) (children : Pairs) :
    ((children.filter fun p => !isChoiceKey p.1).map fun p => (p.1, sortedChoice rank p)) =
      children.filter fun p => !isChoiceKey p.1 := by
  nth_rewrite 2 [← List.map_id (children.filter fun p => !isChoiceKey p.1)]
  refine List.map_congr_left fun p hp => ?_
  have hplain : ¬isChoiceKey p.1 = true := by simpa using (List.mem_filter.1 hp).2
  rw [sortedChoice, if_neg hplain]
  rfl

theorem toList_getLast? {α : Type} {items : List α} (h : items.length ≤ 1) :
    items.getLast?.toList = items := by
  match items with
  | [] => rfl
  | [_] => rfl

/-- The other children in order, and the last choice with its members in order. -/
theorem reorderChildren_eq {e : Element} (he : grammar.element? name = some e) (children : Pairs) :
    reorderChildren grammar name children =
      sortByRank (childRank e) (children.filter fun p => !isChoiceKey p.1) ++
        (children.filter fun p => isChoiceKey p.1).getLast?.toList.map fun p =>
          (p.1, sortedChoice (childRank e) p) := by
  unfold reorderChildren
  rw [he]
  dsimp only
  cases hlast : (children.filter fun p => isChoiceKey p.1).getLast? with
  | none => rw [Option.toList_none, List.map_nil, List.append_nil]
  | some p =>
      obtain ⟨key, v⟩ := p
      have hkey : isChoiceKey key = true :=
        (List.mem_filter.1 (List.mem_of_getLast? hlast)).2
      rw [Option.toList_some, List.map_singleton, sortedChoice, if_pos hkey]
      cases v <;> rfl

/-- Children keep all that they are if there is one choice among them at most. -/
theorem rearranged_reorderChildren_iff (children : Pairs) :
    Rearranged (.mapping children) (.mapping (reorderChildren grammar name children)) ↔
      (grammar.hasElement name = true → (children.filter fun p => isChoiceKey p.1).length ≤ 1) := by
  cases he : grammar.element? name with
  | none =>
      have hunknown : ¬grammar.hasElement name = true := by
        rw [Model.hasElement_iff, he]
        rintro ⟨e, h⟩
        cases h
      have hsame : reorderChildren grammar name children = children := by
        unfold reorderChildren
        rw [he]
      rw [hsame]
      exact iff_of_true (.same _) fun h => absurd h hunknown
  | some e =>
      rw [reorderChildren_eq he]
      have hknown : grammar.hasElement name = true := Model.hasElement_iff.2 ⟨e, he⟩
      have hparts := List.filter_append_perm (fun p => isChoiceKey p.1) children
      constructor
      · intro h _
        -- Of several keys for a choice only the last is kept, so keys would be missing.
        have hlength := h.keys_perm.length_eq
        have hsorted := (sortByRank_perm (childRank e)
          (children.filter fun p => !isChoiceKey p.1)).length_eq
        have hsum := hparts.length_eq
        have hlast : (children.filter fun p => isChoiceKey p.1).getLast?.toList.length ≤ 1 := by
          cases (children.filter fun p => isChoiceKey p.1).getLast? <;> simp
        simp only [List.length_map, List.length_append] at hlength hsum
        omega
      · intro h
        refine .mapping (sortedChoice (childRank e))
          (fun p _ => rearranged_sortedChoice (childRank e) p) ?_
        have hmoved := hparts.symm.map fun p => (p.1, sortedChoice (childRank e) p)
        rw [List.map_append, map_sortedChoice_plain] at hmoved
        rw [toList_getLast? (h hknown)]
        refine (hmoved.trans List.perm_append_comm).trans ?_
        exact (sortByRank_perm _ _).symm.append_right _

end Sections

/-! ## Entries -/

/-- If an entry is one of an element of the grammar, it has at most one key for a choice. -/
def OneChoice (grammar : Model) (name : String) (entry : Value) : Prop :=
  ∀ fields children, entry.pairs? = some fields →
    Pairs.get? fields "children" = some (.mapping children) → grammar.hasElement name = true →
      (children.filter fun p => isChoiceKey p.1).length ≤ 1

theorem rearranged_reorderEntry_iff {grammar : Model} {name : String} {entry : Value}
    (hdistinct : entry.Distinct) :
    Rearranged entry (reorderEntry grammar (.string name) entry) ↔
      OneChoice grammar name entry := by
  have hedit : reorderEntry grammar (.string name) entry = entry.editPairs fun fields =>
      Pairs.update "attributes" (editMapping (reorderAttributes grammar name))
        (Pairs.update "children" (editMapping (reorderChildren grammar name)) fields) := rfl
  rw [hedit]
  cases hpairs : entry.pairs? with
  | none =>
      rw [Rearranged.editPairs_of_none _ hpairs]
      refine iff_of_true (.same entry) fun fields children hfields => ?_
      rw [hpairs] at hfields
      cases hfields
  | some fields =>
      have hdifferent := (hdistinct.pairs? hpairs).1
      rw [Rearranged.editPairs_iff _ hpairs]
      constructor
      · intro h inner children hinner hchildren hknown
        obtain rfl : fields = inner := Option.some.inj (hpairs.symm.trans hinner)
        have hafter := h.get? (n := "children") hdifferent hchildren (by
          rw [Pairs.get?_update, if_neg (by decide), Pairs.get?_update, if_pos rfl, hchildren,
            Option.map_some])
        exact (rearranged_reorderChildren_iff children).1 hafter hknown
      · intro hone
        rw [Pairs.update_update (by decide)]
        refine .map _ fun p hp => ?_
        obtain ⟨key, v⟩ := p
        dsimp only
        split
        · exact rearranged_editMapping (rearranged_reorderAttributes grammar name) v
        · split
          · next hkey =>
              obtain rfl := Pairs.isKey_iff.1 hkey
              have hv := hdifferent.get?_of_mem hp
              cases v with
              | mapping children =>
                  exact (rearranged_reorderChildren_iff children).2 (hone fields children hpairs hv)
              | _ => exact .same _
          · exact .same v

/-! ## The entries of a profile -/

def isText : Value → Bool
  | .string _ => true
  | _ => false

def namedEntries (elements : Pairs) : Pairs := elements.filter fun p => isText p.1

theorem mem_namedEntries {elements : Pairs} {p : Value × Value} :
    p ∈ namedEntries elements ↔ p ∈ elements ∧ ∃ n, p.1 = .string n := by
  unfold namedEntries
  rw [List.mem_filter]
  refine and_congr_right fun _ => ?_
  cases p.1 <;> simp [isText]

section Entries

variable {grammar : Model} {elements : Pairs} (h : elements.Different)
include h

theorem keyed_namedEntries : (namedEntries elements).Keyed :=
  Pairs.Different.keyed (List.Pairwise.sublist List.filter_sublist h)
    fun _ hp => (mem_namedEntries.1 hp).2

theorem get?_namedEntries (n : String) :
    Pairs.get? (namedEntries elements) n = Pairs.get? elements n := by
  refine Option.ext fun v => ?_
  rw [(keyed_namedEntries h).get?_eq_some_iff, mem_namedEntries]
  exact ⟨fun hv => h.get?_of_mem hv.1, fun hv => ⟨Pairs.mem_of_get? hv, n, rfl⟩⟩

omit h in
/-- Where all keys are scalars, nothing comes after the entries in order. -/
theorem orderElements_eq_of_scalar (grammar : Model)
    (hscalar : ∀ p ∈ elements, p.1.scalarText?.isSome = true) :
    orderElements grammar elements = (elementOrder grammar elements).filterMap
      fun name => (Pairs.get? elements name).map fun v => (.string name, v) := by
  have hnone : elements.filter (fun p => p.1.scalarText?.isNone) = [] := by
    refine List.filter_eq_nil_iff.2 fun p hp => ?_
    rw [Option.isNone_iff_eq_none, ← Option.not_isSome_iff_eq_none, not_not]
    exact hscalar p hp
  unfold orderElements
  rw [hnone, List.append_nil]

omit h in
theorem mem_orderElements_iff (hscalar : ∀ p ∈ elements, p.1.scalarText?.isSome = true)
    {n : String} {v : Value} : (Value.string n, v) ∈ orderElements grammar elements ↔
      Pairs.get? elements n = some v := by
  rw [orderElements_eq_of_scalar grammar hscalar, List.mem_filterMap]
  constructor
  · rintro ⟨m, _, hm⟩
    obtain ⟨w, hw, hpair⟩ := Option.map_eq_some_iff.1 hm
    obtain ⟨rfl, rfl⟩ : m = n ∧ w = v := by simpa using hpair
    exact hw
  · intro hv
    have hn : n ∈ elementOrder grammar elements := by
      refine (arrangement_perm _ _).mem_iff.2 (Text.mem_nameSet.2 ?_)
      rw [map_fst_references]
      exact Pairs.mem_names_of_get? hv
    exact ⟨n, hn, by rw [hv]; rfl⟩

omit h in
theorem keyed_orderElements_of_scalar (grammar : Model)
    (hscalar : ∀ p ∈ elements, p.1.scalarText?.isSome = true) :
    (orderElements grammar elements).Keyed := by
  rw [orderElements_eq_of_scalar grammar hscalar]
  refine ⟨fun p hp => ?_, ?_⟩
  · obtain ⟨n, _, hn⟩ := List.mem_filterMap.1 hp
    obtain ⟨v, _, rfl⟩ := Option.map_eq_some_iff.1 hn
    exact ⟨n, rfl⟩
  · have hnodup := (arrangement_perm grammar.root (Tree.references elements)).nodup_iff.2
      (Text.nodup_nameSet _)
    rw [Pairs.names, List.filterMap_filterMap]
    -- Each name is looked up once, and what is found has the name as its key.
    refine hnodup.filterMap fun a b c ha hb => ?_
    have hname : ∀ m, c ∈ ((Pairs.get? elements m).map fun v => (Value.string m, v)).bind
        (fun p => p.1.scalarText?) → m = c := by
      intro m hm
      cases hv : Pairs.get? elements m with
      | none => rw [hv] at hm; cases hm
      | some v => rw [hv] at hm; exact Option.some.inj hm
    exact (hname a ha).trans (hname b hb).symm

/-- Ordering keeps the entries whose key is a text. -/
theorem orderElements_perm_namedEntries
    (hscalar : ∀ p ∈ elements, p.1.scalarText?.isSome = true) :
    (orderElements grammar elements).Perm (namedEntries elements) := by
  have hkeyed := keyed_orderElements_of_scalar grammar hscalar
  refine hkeyed.perm_of_get? (keyed_namedEntries h) fun n => Option.ext fun v => ?_
  rw [hkeyed.get?_eq_some_iff, mem_orderElements_iff hscalar, get?_namedEntries h]

/-- The entries of a profile, each with its parts in order. -/
def orderedParts (grammar : Model) (elements : Pairs) : Pairs :=
  elements.map fun p => (p.1, reorderEntry grammar p.1 p.2)

theorem keys_orderElements_perm (hscalar : ∀ p ∈ elements, p.1.scalarText?.isSome = true) :
    ((orderElements grammar (orderedParts grammar elements)).map Prod.fst).Perm
      ((namedEntries elements).map Prod.fst) := by
  have hmoved : ∀ p ∈ orderedParts grammar elements, p.1.scalarText?.isSome = true := by
    intro p hp
    obtain ⟨q, hq, rfl⟩ := List.mem_map.1 hp
    exact hscalar q hq
  have hperm : (orderElements grammar (orderedParts grammar elements)).Perm
      (namedEntries (orderedParts grammar elements)) :=
    orderElements_perm_namedEntries (h.map fun p => reorderEntry grammar p.1 p.2) hmoved
  have hkeys : (namedEntries (orderedParts grammar elements)).map Prod.fst =
      (namedEntries elements).map Prod.fst := by
    unfold namedEntries orderedParts
    rw [List.filter_map, List.map_map]
    rfl
  rw [← hkeys]
  exact hperm.map Prod.fst

/-- Nothing is lost among the entries exactly if their keys are texts and nothing is lost in any
of them. -/
theorem rearranged_orderElements_iff (hvalues : ∀ p ∈ elements, p.2.Distinct)
    (hscalar : ∀ p ∈ elements, p.1.scalarText?.isSome = true) :
    Rearranged (.mapping elements)
        (.mapping (orderElements grammar (orderedParts grammar elements))) ↔
      (∀ p ∈ elements, ∃ n, p.1 = .string n) ∧
        ∀ n v, Pairs.get? elements n = some v → OneChoice grammar n v := by
  have hordered : ∀ hall : ∀ p ∈ elements, ∃ n, p.1 = .string n,
      (orderElements grammar (orderedParts grammar elements)).Perm
        (orderedParts grammar elements) :=
    fun hall => orderElements_perm grammar ((h.keyed hall).map fun p => reorderEntry grammar p.1 p.2)
  constructor
  · intro hafter
    -- A key that is no text is not among the keys afterwards.
    have hall : ∀ p ∈ elements, ∃ n, p.1 = .string n := by
      intro p hp
      have hkey := (hafter.keys_perm.trans (keys_orderElements_perm h hscalar)).mem_iff.1
        (List.mem_map_of_mem hp)
      obtain ⟨q, hq, heq⟩ := List.mem_map.1 hkey
      rw [← heq]
      exact (mem_namedEntries.1 hq).2
    refine ⟨hall, fun n v hv => ?_⟩
    have hkeyed := (h.keyed hall).map fun p => reorderEntry grammar p.1 p.2
    have hmoved : Pairs.get? (orderElements grammar (orderedParts grammar elements)) n =
        some (reorderEntry grammar (.string n) v) := by
      rw [orderedParts, get?_orderElements grammar hkeyed,
        Pairs.get?_map fun p => reorderEntry grammar p.1 p.2, hv, Option.map_some]
    exact (rearranged_reorderEntry_iff (hvalues _ (Pairs.mem_of_get? hv))).1
      (hafter.get? h hv hmoved)
  · rintro ⟨hall, hone⟩
    refine .mapping (fun p => reorderEntry grammar p.1 p.2) (fun p hp => ?_) (hordered hall).symm
    obtain ⟨n, hn⟩ := hall p hp
    obtain ⟨key, v⟩ := p
    obtain rfl : key = .string n := hn
    exact (rearranged_reorderEntry_iff (hvalues _ hp)).2 (hone n v (h.get?_of_mem hp))

end Entries

/-! ## Profile trees -/

section Trees

variable {tree : Value} {fields elements : Pairs}

theorem exists_of_profile? (h : Tree.profile? tree = some fields) :
    ∃ root, tree.pairs? = some root ∧ Pairs.get? root "profile" = some (.mapping fields) := by
  unfold Tree.profile? at h
  split at h
  · next inner hinner =>
      obtain ⟨root, hroot, hget⟩ := Option.bind_eq_some_iff.1 hinner
      obtain rfl := Option.some.inj h
      exact ⟨root, hroot, hget⟩
  · cases h

theorem editable_eq (h : Pairs.get? fields "elements" = some (.mapping elements)) :
    Tree.editable fields = elements := by
  unfold Tree.editable
  rw [h]

/-- An edit of the entries moves things in the tree as it moves them among the entries. -/
theorem rearranged_editElements_iff (hdistinct : tree.Distinct)
    (hprofile : Tree.profile? tree = some fields)
    (helements : Pairs.get? fields "elements" = some (.mapping elements)) (f : Pairs → Pairs) :
    Rearranged tree (Tree.editElements f tree) ↔
      Rearranged (.mapping elements) (.mapping (f elements)) := by
  obtain ⟨root, hroot, hget⟩ := exists_of_profile? hprofile
  obtain ⟨hdifferent, hvalues⟩ := hdistinct.pairs? hroot
  have hinner := ((hvalues _ (Pairs.mem_of_get? hget)).pairs? rfl).1
  have hset := Pairs.update_eq_set helements (hinner.not_isKey "elements") fun _ =>
    .mapping (f elements)
  unfold Tree.editElements
  rw [Rearranged.editPairs_iff _ hroot, Rearranged.update_iff hdifferent hget, Value.editPairs,
    editable_eq helements, ← hset, Rearranged.update_iff hinner helements]

theorem elements?_editElements (hprofile : Tree.profile? tree = some fields)
    (helements : Pairs.get? fields "elements" = some (.mapping elements)) (f : Pairs → Pairs) :
    Tree.elements? (Tree.editElements f tree) = some (f elements) := by
  obtain ⟨root, hroot, hget⟩ := exists_of_profile? hprofile
  unfold Tree.elements? Tree.profile? Tree.editElements
  rw [Value.pairs?_editPairs, hroot, Option.map_some, Option.bind_some, Pairs.get?_update,
    if_pos rfl, hget, Option.map_some, Value.editPairs, Option.bind_some,
    Pairs.get?_set, if_pos rfl, editable_eq helements, Option.bind_some,
    Value.pairs?_mapping]

theorem reorderTree_eq (grammar : Model) (hprofile : Tree.profile? tree = some fields)
    (helements : Pairs.get? fields "elements" = some (.mapping elements)) :
    reorderTree grammar tree = some (Tree.editElements
      (fun elements => orderElements grammar (orderedParts grammar elements)) tree) := by
  have hsome : Tree.elements? tree = some elements := by
    unfold Tree.elements?
    rw [hprofile, Option.bind_some, helements, Option.bind_some, Value.pairs?_mapping]
  unfold reorderTree
  rw [hsome]
  rfl

/-- The entries of a profile that is read from a text are different, and so is all in them. -/
theorem distinct_entries (hdistinct : tree.Distinct) (hprofile : Tree.profile? tree = some fields)
    (helements : Pairs.get? fields "elements" = some (.mapping elements)) :
    elements.Different ∧ ∀ p ∈ elements, p.2.Distinct := by
  obtain ⟨root, hroot, hget⟩ := exists_of_profile? hprofile
  have hinner := (hdistinct.pairs? hroot).2 _ (Pairs.mem_of_get? hget)
  exact ((hinner.pairs? rfl).2 _ (Pairs.mem_of_get? helements)).pairs? rfl

end Trees

/-- Putting a profile into order loses exactly the entries whose key is a number or a boolean, and
all choices of an entry but the last. Where there are none of these, it only moves things. -/
theorem reorder_only_moves_iff {grammar : Model} {text : String} {tree : Value}
    {fields elements : Pairs} (hread : Yaml.read text = .ok tree)
    (hprofile : Tree.profile? tree = some fields)
    (helements : Pairs.get? fields "elements" = some (.mapping elements))
    (hscalar : ∀ p ∈ elements, p.1.scalarText?.isSome = true) :
    ∃ after entries, reorderTree grammar tree = some after ∧
      reorder grammar text = .ok (Tree.render after) ∧ Tree.elements? after = some entries ∧
      (∀ p ∈ elements, p.1 ∈ entries.map Prod.fst ↔ ∃ n, p.1 = .string n) ∧
      (tree.Rearranged after ↔ (∀ p ∈ elements, ∃ n, p.1 = .string n) ∧
        ∀ n v, Pairs.get? elements n = some v → OneChoice grammar n v) := by
  have hdistinct := Yaml.distinct_of_read hread
  obtain ⟨hdifferent, hvalues⟩ := distinct_entries hdistinct hprofile helements
  have hedit := reorderTree_eq grammar hprofile helements
  refine ⟨_, _, hedit, ?_, elements?_editElements hprofile helements _, fun p hp => ?_, ?_⟩
  · unfold reorder editText
    rw [hread]
    dsimp only
    rw [hprofile, hedit]
    rfl
  · rw [(keys_orderElements_perm hdifferent hscalar).mem_iff]
    constructor
    · intro hkey
      obtain ⟨q, hq, heq⟩ := List.mem_map.1 hkey
      rw [← heq]
      exact (mem_namedEntries.1 hq).2
    · intro hn
      exact List.mem_map_of_mem (mem_namedEntries.2 ⟨hp, hn⟩)
  · rw [rearranged_editElements_iff hdistinct hprofile helements,
      rearranged_orderElements_iff hdifferent hvalues hscalar]

def numberedProfile : String := "profile: \x7belements: \x7b1: , b: \x7d\x7d"

/-- The entries that a text writes, if it is a profile. -/
def entriesOf? (text : String) : Option Pairs :=
  match Yaml.read text with
  | .error _ => none
  | .ok tree =>
    (Tree.profile? tree).bind fun fields =>
      match Pairs.get? fields "elements" with
      | some (.mapping elements) => some elements
      | _ => none

theorem entriesOf?_eq_some {text : String} {elements : Pairs}
    (h : entriesOf? text = some elements) : ∃ tree fields, Yaml.read text = .ok tree ∧
      Tree.profile? tree = some fields ∧
      Pairs.get? fields "elements" = some (.mapping elements) := by
  unfold entriesOf? at h
  split at h
  · cases h
  · next tree hread =>
      obtain ⟨fields, hprofile, helements⟩ := Option.bind_eq_some_iff.1 h
      split at helements
      · next inner hinner =>
          obtain rfl := Option.some.inj helements
          exact ⟨tree, fields, hread, hprofile, hinner⟩
      · cases helements

theorem numberedProfile_entries : ∃ elements, entriesOf? numberedProfile = some elements ∧
    (∀ p ∈ elements, p.1.scalarText?.isSome = true) ∧ ¬∀ p ∈ elements, ∃ n, p.1 = .string n := by
  have hread : ((entriesOf? numberedProfile).any fun elements =>
      (elements.all fun p => p.1.scalarText?.isSome) && elements.any fun p => !isText p.1) =
        true := by
    decide +kernel
  obtain ⟨elements, helements, hkeys⟩ := (Option.any_eq_true _ _).1 hread
  obtain ⟨hscalar, hnumber⟩ := Bool.and_eq_true_iff.1 hkeys
  refine ⟨elements, helements, List.all_eq_true.1 hscalar, fun hall => ?_⟩
  obtain ⟨p, hp, hkey⟩ := List.any_eq_true.1 hnumber
  obtain ⟨n, hn⟩ := hall p hp
  rw [hn] at hkey
  cases hkey

theorem reorder_numbered_exact : ∃ tree fields elements after entries,
    Yaml.read numberedProfile = .ok tree ∧ Tree.profile? tree = some fields ∧
      Pairs.get? fields "elements" = some (.mapping elements) ∧
      reorderTree ⟨∅, ∅, none⟩ tree = some after ∧
      reorder ⟨∅, ∅, none⟩ numberedProfile = .ok (Tree.render after) ∧
      Tree.elements? after = some entries ∧
      (∀ p ∈ elements, p.1 ∈ entries.map Prod.fst ↔ ∃ n, p.1 = .string n) ∧
      (tree.Rearranged after ↔ (∀ p ∈ elements, ∃ n, p.1 = .string n) ∧
        ∀ n v, Pairs.get? elements n = some v → OneChoice ⟨∅, ∅, none⟩ n v) := by
  obtain ⟨elements, hentries, hscalar, _⟩ := numberedProfile_entries
  obtain ⟨tree, fields, hread, hprofile, helements⟩ := entriesOf?_eq_some hentries
  obtain ⟨after, entries, hafter⟩ := reorder_only_moves_iff hread hprofile helements hscalar
  exact ⟨tree, fields, elements, after, entries, hread, hprofile, helements, hafter⟩

/-- Under every grammar the numbered entry is lost. -/
theorem reorder_loses_numbered : ∃ tree fields elements,
    Yaml.read numberedProfile = .ok tree ∧ Tree.profile? tree = some fields ∧
      Pairs.get? fields "elements" = some (.mapping elements) ∧
      (∀ p ∈ elements, p.1.scalarText?.isSome = true) ∧
      ∀ grammar : Model, ∃ after, reorderTree grammar tree = some after ∧
        ¬tree.Rearranged after := by
  obtain ⟨elements, hentries, hscalar, hnumber⟩ := numberedProfile_entries
  obtain ⟨tree, fields, hread, hprofile, helements⟩ := entriesOf?_eq_some hentries
  have hdistinct := Yaml.distinct_of_read hread
  obtain ⟨hdifferent, hvalues⟩ := distinct_entries hdistinct hprofile helements
  refine ⟨tree, fields, elements, hread, hprofile, helements, hscalar, fun grammar =>
    ⟨_, reorderTree_eq grammar hprofile helements, fun h => hnumber ?_⟩⟩
  rw [rearranged_editElements_iff hdistinct hprofile helements,
    rearranged_orderElements_iff hdifferent hvalues hscalar] at h
  exact h.1

end GrammarProfile.Cascade
