import GrammarProfile.Proofs.Edits
import GrammarProfile.Proofs.Pruning
import GrammarProfile.Proofs.Unreached

/-!
What a collapse does to the entries that it keeps and that do not list the element. Stripping visits
them as well, and what it prunes are all the mappings that are empty, not only those that it has
emptied.
-/
namespace GrammarProfile.Cascade

open GrammarProfile.Grammar (Model)
open GrammarProfile.Profile (Accepted IsEntry IsEntries Restriction choiceKey)
open GrammarProfile.Yaml (Value Pairs)

/-- The mapping that an entry has for its children. -/
def ChildrenOf (entry : Value) (children : Pairs) : Prop :=
  ∃ fields, entry = .mapping fields ∧ Pairs.get? fields "children" = some (.mapping children)

/-- An entry has nothing for a collapse to prune: neither its children nor their choice are an empty
mapping. When the element has the name of the key for choices, no choice may be there at all. -/
def Filled (element : String) (entry : Value) : Prop :=
  ∀ children, ChildrenOf entry children → children ≠ [] ∧
    Pairs.get? children choiceKey ≠ some (.mapping []) ∧
    (element = choiceKey → Pairs.get? children choiceKey = none)

section Prune

variable {f : Pairs → Pairs} {name a : String} {pairs : Pairs}

/-- Pruning changes nothing exactly if it leaves what stands under the name as it is, and something
stands there. -/
theorem pruneAt_eq_self_iff (h : pairs.Keyed) : pruneAt name f pairs = pairs ↔
    ∀ inner, Pairs.get? pairs name = some (.mapping inner) → inner ≠ [] ∧ f inner = inner := by
  constructor
  · intro hself inner hinner
    have hget := congrArg (fun after => Pairs.get? after name) hself
    rw [hinner, pruneAt_of_get?_eq h hinner] at hget
    split at hget
    · rw [Pairs.get?_erase, if_pos rfl] at hget
      cases hget
    · next hsome =>
        rw [Pairs.get?_set, if_pos rfl] at hget
        have hf : f inner = inner := Value.mapping.inj (Option.some.inj hget)
        refine ⟨fun hempty => hsome ?_, hf⟩
        rw [hf, hempty, List.isEmpty_nil]
  · intro hinner
    have hsome : pruneAt name f pairs = pairs.filterMap some := by
      refine List.filterMap_congr fun p hp => ?_
      obtain ⟨key, v⟩ := p
      by_cases hkey : Pairs.isKey name key = true
      · obtain rfl := Pairs.isKey_iff.1 hkey
        rw [if_pos hkey]
        cases v with
        | mapping inner =>
            obtain ⟨hne, hf⟩ := hinner inner (h.get?_eq_some_iff.2 hp)
            rw [pruned, hf, if_neg fun hempty => hne (List.isEmpty_iff.1 hempty), Option.map_some]
        | _ => rfl
      · exact if_neg hkey
    rw [hsome, List.filterMap_some]

theorem erase_eq_self_iff : Pairs.erase pairs a = pairs ↔ Pairs.get? pairs a = none := by
  rw [← Pairs.contains_eq_false_iff]
  constructor
  · intro hself
    rw [← hself, Pairs.contains_eq_false_iff, Pairs.get?_erase, if_pos rfl]
  · intro hnone
    exact erase_of_not_contains (by rw [hnone]; exact Bool.false_ne_true)

end Prune

section Strip

variable {a : String} {v : Value} {fields children : Pairs}

theorem entryValue_eq_iff {fields after : Pairs} :
    entryValue after = entryValue fields ↔ after = fields := by
  constructor
  · intro h
    cases after with
    | nil =>
        cases fields with
        | nil => rfl
        | cons p rest => cases h
    | cons p rest =>
        cases fields with
        | nil => cases h
        | cons q others => exact Value.mapping.inj h
  · rintro rfl
    rfl

/-- Of children that do not list the name, stripping takes an empty choice. -/
theorem stripChildren_eq_self_iff (h : children.Keyed) (hlisted : ¬ListedIn children a) :
    stripChildren a children = children ↔ Pairs.get? children choiceKey ≠ some (.mapping []) ∧
      (a = choiceKey → Pairs.get? children choiceKey = none) := by
  obtain ⟨hchild, hmember⟩ := not_or.1 hlisted
  rw [stripChildren_eq h]
  by_cases ha : a = choiceKey
  · subst ha
    have hpruned : pruneAt choiceKey (fun members => Pairs.erase members choiceKey)
        (Pairs.erase children choiceKey) = Pairs.erase children choiceKey := by
      refine pruneAt_of_get?_ne (h.erase choiceKey) fun inner => ?_
      rw [Pairs.get?_erase, if_pos rfl]
      exact nofun
    rw [hpruned, erase_eq_self_iff]
    exact ⟨fun hnone => ⟨by rw [hnone]; exact nofun, fun _ => hnone⟩, fun hnone => hnone.2 rfl⟩
  · rw [erase_of_not_contains fun e => hchild ⟨ha, e⟩, pruneAt_eq_self_iff h]
    constructor
    · intro hsame
      exact ⟨fun hempty => (hsame [] hempty).1 rfl, fun e => absurd e ha⟩
    · rintro ⟨hne, _⟩ members hmembers
      refine ⟨fun hempty => hne (hempty ▸ hmembers), ?_⟩
      exact erase_of_not_contains fun e => hmember ⟨members, hmembers, e⟩

/-- Of an entry that does not list the name, stripping takes the sections that are empty. -/
theorem stripReference_eq_self_iff (h : IsEntry v fields children) (hlists : ¬Lists v a) :
    stripReference a v = v ↔ Filled a v := by
  rcases eq_entryValue h with rfl | rfl
  · refine iff_of_true rfl ?_
    rintro inner ⟨_, hfields, hinner⟩
    cases hfields
    cases hinner
  · have hchildren : ∀ {inner : Pairs}, ChildrenOf (entryValue fields) inner ↔
        Pairs.get? fields "children" = some (.mapping inner) := by
      intro inner
      cases fields with
      | nil =>
          refine iff_of_false ?_ nofun
          rintro ⟨_, hnull, _⟩
          cases hnull
      | cons p rest =>
          constructor
          · rintro ⟨_, hfields, hinner⟩
            obtain rfl := Value.mapping.inj hfields
            exact hinner
          · exact fun hinner => ⟨_, rfl, hinner⟩
    rw [stripReference_entryValue h.entry.keyed, entryValue_eq_iff,
      pruneAt_eq_self_iff h.entry.keyed]
    refine forall_congr' fun inner => ?_
    rw [hchildren]
    refine imp_congr_right fun hinner => and_congr_right fun _ => ?_
    obtain ⟨rfl, hkeyed⟩ := children_of_mem h (Pairs.mem_of_get? hinner)
    refine stripChildren_eq_self_iff hkeyed fun hlisted => hlists ?_
    obtain ⟨_, hmapping, hget⟩ := hchildren.2 hinner
    exact ⟨_, _, hmapping, hget, hlisted⟩

end Strip

/-- What a collapse keeps of an entry. No condition on the name of the element is needed: the sweep
takes entries away, and what it leaves is as it was stripped. -/
theorem get?_collapseElements {grammar : Model} {documentTypes : List String} {element n : String}
    {elements : Pairs} {v : Value} (h : elements.Keyed) (hv : Pairs.get? elements n = some v)
    (hn : n ∈ Pairs.names (collapseElements grammar element documentTypes elements)) :
    Pairs.get? (collapseElements grammar element documentTypes elements) n =
      some (stripReference element v) := by
  have hafter : collapseElements grammar element documentTypes elements =
      sweep (startsOf grammar documentTypes element elements)
        (withoutElement element elements) := rfl
  have hkeyed : (withoutElement element elements).Keyed :=
    (h.erase element).map fun p => stripReference element p.2
  rw [hafter] at hn ⊢
  have hswept := hkeyed.sublist
    (sweep_sublist (startsOf grammar documentTypes element elements) _)
  obtain ⟨w, hw⟩ := hswept.mem_names_iff.1 hn
  have hin := hkeyed.get?_eq_some_iff.2
    ((sweep_sublist _ _).subset (hswept.get?_eq_some_iff.1 hw))
  rw [get?_withoutElement] at hin
  split at hin
  · cases hin
  · rw [hv, Option.map_some] at hin
    rw [hw, hin]

/-- Of the entries that are left and do not list the element, a collapse leaves exactly those as they
were that have no empty section. -/
theorem collapse_leaves_unlisted_iff {grammar : Model} {element text : String} {r : Restriction}
    (hknown : grammar.hasElement element = true)
    (haccepted : (Profile.read text).profile = some r) (hentry : element ∈ r.elements.keys) :
    ∃ root fields elements after, Accepted text r root fields elements ∧
      collapse grammar element text = .ok (Tree.render (.mapping (Pairs.set "profile"
        (.mapping (Pairs.set "elements" (.mapping after) fields)) root))) ∧
      ∀ n v, Pairs.get? elements n = some v → n ∈ Pairs.names after → ¬Lists v element →
        (Pairs.get? after n = some v ↔ Filled element v) := by
  obtain ⟨root, fields, elements, h⟩ := Profile.accepted_of_read haccepted
  refine ⟨root, fields, elements, _, h, collapse_eq_ok h hknown hentry, fun n v hv hn hlists => ?_⟩
  obtain ⟨entryFields, children, hvalue⟩ := h.entries.entry n v hv
  rw [get?_collapseElements h.entries.keyed hv hn, Option.some.injEq,
    stripReference_eq_self_iff hvalue hlists]

theorem collapse_bold_unlisted : ∃ r root fields elements after,
    (Profile.read boldProfile).profile = some r ∧ "b" ∈ r.elements.keys ∧
      Accepted boldProfile r root fields elements ∧
      collapse boldGrammar "b" boldProfile = .ok (Tree.render (.mapping (Pairs.set "profile"
        (.mapping (Pairs.set "elements" (.mapping after) fields)) root))) ∧
      ∀ n v, Pairs.get? elements n = some v → n ∈ Pairs.names after → ¬Lists v "b" →
        (Pairs.get? after n = some v ↔ Filled "b" v) := by
  obtain ⟨r, hr, hentry, _⟩ := read_boldProfile
  have hknown : boldGrammar.hasElement "b" = true := by decide
  obtain ⟨root, fields, elements, after, hafter⟩ := collapse_leaves_unlisted_iff hknown hr hentry
  exact ⟨r, root, fields, elements, after, hr, hentry, hafter⟩

/-- Bold text beside an entry that says that there is a choice, and not yet of what. -/
def hollowProfile : String :=
  "profile: \x7belements: \x7bb: , p: \x7bchildren: \x7bchoice: \x7b\x7d\x7d\x7d\x7d\x7d"

def hollowEntry : Value := .mapping [(.string "children", .mapping [(.string choiceKey, .mapping [])])]

def hollowEntries : Pairs := [(.string "b", .null), (.string "p", hollowEntry)]

theorem read_hollowProfile : Yaml.read hollowProfile = .ok (entriesTree hollowEntries) :=
  Value.read_eq_ok rfl (by decide +kernel)

/-- The entry does not list bold text, and yet its choice is gone with it. -/
theorem collapse_prunes_hollow : ∃ r root fields elements after,
    (Profile.read hollowProfile).profile = some r ∧ "b" ∈ r.elements.keys ∧
      Accepted hollowProfile r root fields elements ∧
      collapse boldGrammar "b" hollowProfile = .ok (Tree.render (.mapping (Pairs.set "profile"
        (.mapping (Pairs.set "elements" (.mapping after) fields)) root))) ∧
      Pairs.get? elements "p" = some hollowEntry ∧ "p" ∈ Pairs.names after ∧
      ¬Lists hollowEntry "b" ∧ Pairs.get? after "p" = some .null := by
  obtain ⟨r, root, fields, hr, h, -⟩ := accepted_entriesTree read_hollowProfile rfl
  have hp : "p" ∈ Pairs.names hollowEntries := by decide
  have hb := (h.keys "b").2 (by decide)
  have hv : Pairs.get? hollowEntries "p" = some hollowEntry := rfl
  have hedges : Tree.references hollowEntries = [("b", []), ("p", [])] := by decide +kernel
  have hlinks : ∀ a c, ¬Links hollowEntries a c := by
    intro a c
    rw [← exists_mem_references_iff h.entries, hedges]
    have hnone : ∀ p ∈ [("b", ([] : List String)), ("p", [])], p.2 = [] := by simp
    rintro ⟨listed, hlisted, hc⟩
    exact List.ne_nil_of_mem hc (hnone _ hlisted)
  have hlists : ¬Lists hollowEntry "b" := fun hlists => hlinks "p" "b" ⟨_, hv, hlists⟩
  have hafter : Collapsed boldGrammar r.documentTypes "b" hollowEntries _ :=
    collapsed_collapseElements h.entries (by decide)
  have hkept := (hafter.kept "p").2
    ⟨hp, "p", .inr (.inr ⟨hp, fun m _ => hlinks m "p"⟩), by decide, .refl⟩
  refine ⟨r, root, fields, hollowEntries, _, hr, hb, h, collapse_eq_ok h (by decide) hb, hv, hkept,
    hlists, ?_⟩
  rw [get?_collapseElements h.entries.keyed hv hkept]
  rfl

end GrammarProfile.Cascade
