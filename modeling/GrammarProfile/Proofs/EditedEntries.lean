import GrammarProfile.Proofs.FormedEntries

/-!
Entries without a flaw stay so when they are edited: when they take in what the grammar requires,
when a name is stripped from them, and when their parts are put into order.
-/
namespace GrammarProfile.Yaml.Pairs

theorem Keyed.of_perm {a b : Pairs} (h : a.Keyed) (hperm : a.Perm b) : b.Keyed :=
  ⟨fun p hp => h.textual p (hperm.mem_iff.2 hp), (hperm.filterMap _).nodup_iff.1 h.distinct⟩

theorem Keyed.get?_perm {a b : Pairs} (h : a.Keyed) (hperm : a.Perm b) (n : String) :
    get? b n = get? a n := (get?_of_perm hperm (h.once n)).symm

end GrammarProfile.Yaml.Pairs

namespace GrammarProfile.Cascade

open GrammarProfile.Grammar (Attribute Element Model)
open GrammarProfile.Profile
open GrammarProfile.Yaml (Value Pairs)

/-! ## Taking in -/

/-- An attribute that can stand in any entry. -/
def CleanAttribute (x : Value) : Prop := x.Distinct ∧ ∀ path, (attributeRule path x).flaws = []

section Taking

variable {path : String} {a c : String → Option Value} {o : ExpandOptions} {e : Element}
  {n : String} {v : Option Value} {w x : Value}
  {before after attributes children members : Pairs}

theorem formed_takes (h : Formed path before attributes children members)
    (htakes : Takes a c before after) (ha : ∀ k x, a k = some x → CleanAttribute x)
    (hc : ∀ k x, c k = some x → k ≠ choiceKey ∧ IsLabel x) :
    ∃ attributes children, Formed path after attributes children members := by
  obtain ⟨inner, hinner, hget⟩ := htakes.attributes.exists_section h.hasAttributes
  obtain ⟨listed, hlisted, hget'⟩ := htakes.children.exists_section h.hasChildren
  have hchoice : Pairs.get? listed choiceKey = Pairs.get? children choiceKey := by
    have hnone : c choiceKey = none := by
      rw [Option.eq_none_iff_forall_ne_some]
      exact fun x hx => (hc _ x hx).1 rfl
    rw [hget', hnone, Option.or_none]
  refine ⟨inner, listed, htakes.keyed, hinner, hlisted, hchoice ▸ h.hasMembers, fun k x hx => ?_,
    fun k x hk hx => ?_, h.memberLabel, fun k w hk hk' hw => ?_⟩
  · rw [hget, Option.or_eq_some_iff] at hx
    rcases hx with hold | ⟨_, hnew⟩
    · exact h.attributeClean k x hold
    · exact ⟨(ha k x hnew).1, (ha k x hnew).2 _⟩
  · rw [hget', Option.or_eq_some_iff] at hx
    rcases hx with hold | ⟨_, hnew⟩
    · exact h.childLabel k x hk hold
    · exact (hc k x hnew).2
  · exact h.otherClean k w hk hk' ((htakes.others k hk hk').symm.trans hw)

theorem cleanAttribute_requiredAttribute (a : Attribute) : CleanAttribute (requiredAttribute a) := by
  refine ⟨?_, fun path => by rw [attributeRule_requiredAttribute]⟩
  have hitems : ∀ values : List String, (Value.sequence (values.map .string)).Distinct := by
    intro values
    refine .sequence fun v hv => ?_
    obtain ⟨s, _, rfl⟩ := List.mem_map.1 hv
    exact .string s
  have hsome : ∀ values : List String, (Value.mapping [(.string "required", .bool true),
      (.string "values", .sequence (values.map .string))]).Distinct := by
    intro values
    refine .mapping (by simp [Pairs.Different, Value.same]) fun p hp => ?_
    rcases List.mem_cons.1 hp with rfl | hp
    · exact .bool true
    · obtain rfl := List.mem_singleton.1 hp
      exact hitems values
  have hnone : (Value.mapping [(.string "required", .bool true)]).Distinct := by
    refine .mapping (by simp [Pairs.Different]) fun p hp => ?_
    obtain rfl := List.mem_singleton.1 hp
    exact .bool true
  unfold requiredAttribute
  split
  · exact hsome _
  · exact hnone

theorem cleanAttribute_of_wanted (h : wantedAttribute o e n = some x) : CleanAttribute x := by
  unfold wantedAttribute at h
  split at h
  · obtain rfl := Option.some.inj h
    exact cleanAttribute_requiredAttribute _
  · split at h
    · obtain rfl := Option.some.inj h
      refine ⟨.mapping (by simp [Pairs.Different]) fun p hp => ?_, fun path => rfl⟩
      obtain rfl := List.mem_singleton.1 hp
      exact .bool _
    · cases h

theorem isLabel_of_wantedChild (h : wantedChild e n = some x) : IsLabel x := by
  obtain ⟨c, _, rfl⟩ := Option.map_eq_some_iff.1 h
  exact .text _

theorem wantedChild_choiceKey (h : ∀ c ∈ e.children, c.name ≠ choiceKey) :
    wantedChild e choiceKey = none := by
  have hnone : (e.children.find? fun c => c.name == choiceKey && c.required) = none := by
    refine List.find?_eq_none.2 fun c hc => ?_
    simp [h c hc]
  rw [wantedChild, hnone, Option.map_none]

/-- What there is of an entry, if there is one. -/
theorem exists_formed (h : ∀ u, v = some u → FormedEntry n u) :
    ∃ fields attributes children members, IsSection v fields ∧
      Formed (entryPath n) fields attributes children members := by
  cases v with
  | none =>
      obtain ⟨fields, attributes, children, members, hentry, hformed⟩ := FormedEntry.null n
      cases hentry
      exact ⟨[], attributes, children, members, .missing, hformed⟩
  | some u => exact h u rfl

theorem formedEntry_completes (h : ∀ u, v = some u → FormedEntry n u)
    (hchildren : ∀ c ∈ e.children, c.name ≠ choiceKey) (hw : Completes o e v w) :
    FormedEntry n w := by
  obtain ⟨fields, attributes, children, members, hentry, hformed⟩ := exists_formed h
  obtain ⟨after, hafter, htakes⟩ := hw.takes hentry
  have hlabels : ∀ k x, wantedChild e k = some x → k ≠ choiceKey ∧ IsLabel x := by
    refine fun k x hx => ⟨?_, isLabel_of_wantedChild hx⟩
    rintro rfl
    rw [wantedChild_choiceKey hchildren] at hx
    cases hx
  obtain ⟨inner, listed, hdone⟩ :=
    formed_takes hformed htakes (fun k x => cleanAttribute_of_wanted) hlabels
  exact ⟨after, inner, listed, members, hafter, hdone⟩

theorem formedEntry_listsTypes {present : List String} (h : ∀ u, v = some u → FormedEntry n u)
    (hpresent : choiceKey ∉ present) (hw : ListsTypes present v w) : FormedEntry n w := by
  obtain ⟨fields, attributes, children, members, hentry, hformed⟩ := exists_formed h
  obtain ⟨after, hafter, htakes⟩ := hw.takes hentry
  have hlabels : ∀ k x, wantedType present k = some x → k ≠ choiceKey ∧ IsLabel x := by
    intro k x hx
    unfold wantedType at hx
    split at hx
    · next hk =>
        cases hx
        exact ⟨fun e => hpresent (e ▸ hk), .text _⟩
    · cases hx
  obtain ⟨inner, listed, hdone⟩ :=
    formed_takes hformed htakes (fun k x hx => nomatch hx) hlabels
  exact ⟨after, inner, listed, members, hafter, hdone⟩

end Taking

/-! ## Stripping -/

section Stripping

variable {a n path : String} {v : Value} {fields attributes children members : Pairs}

theorem get?_pruneAt {f : Pairs → Pairs} (h : fields.Keyed) (name n : String) :
    Pairs.get? (pruneAt name f fields) n =
      if n = name then (Pairs.get? fields name).bind (pruned f) else Pairs.get? fields n := by
  by_cases hinner : ∃ inner, Pairs.get? fields name = some (.mapping inner)
  · obtain ⟨inner, hinner⟩ := hinner
    rw [pruneAt_of_get?_eq h hinner, hinner, Option.bind_some, pruned]
    split
    · rw [Pairs.get?_erase]
    · rw [Pairs.get?_set]
  · rw [pruneAt_of_get?_ne h fun inner e => hinner ⟨inner, e⟩]
    split
    · next hn =>
        rw [hn]
        cases hv : Pairs.get? fields name with
        | none => rfl
        | some v =>
            cases v with
            | mapping inner => exact absurd ⟨inner, hv⟩ hinner
            | _ => rfl
    · rfl

/-- A section that is pruned is a section, or gone if nothing is left of it. -/
theorem isSection_pruned {f : Pairs → Pairs} {v : Option Value} {inner : Pairs}
    (h : IsSection v inner) (hnil : f [] = []) (hkeyed : inner.Keyed → (f inner).Keyed) :
    IsSection (v.bind (pruned f)) (f inner) := by
  cases h with
  | missing =>
      rw [hnil]
      exact .missing
  | null =>
      rw [hnil]
      exact .null
  | mapping h =>
      rw [Option.bind_some, pruned]
      split
      · next hempty =>
          rw [List.isEmpty_iff.1 hempty]
          exact .missing
      · exact .mapping (hkeyed h)

theorem formed_pruneAt (h : Formed path fields attributes children members) (ha : a ≠ choiceKey) :
    Formed path (pruneAt "children" (stripChildren a) fields) attributes
      (stripChildren a children) (Pairs.erase members a) := by
  have hchildren := h.hasChildren.keyed
  have herased := hchildren.erase a
  have hget := get?_pruneAt (f := stripChildren a) h.keyed "children"
  have hlisted := fun c => (congrArg (Pairs.get? · c) (stripChildren_eq hchildren a)).trans
    (get?_pruneAt (f := fun inner => Pairs.erase inner a) herased choiceKey c)
  refine ⟨keyed_pruneAt h.keyed, ?_, ?_, ?_, h.attributeClean, fun c x hc hx => ?_, fun c x hx => ?_,
    fun k w hk hk' hw => ?_⟩
  · rw [hget, if_neg (by decide)]
    exact h.hasAttributes
  · rw [hget, if_pos rfl]
    exact isSection_pruned h.hasChildren rfl keyed_stripChildren
  · rw [hlisted, if_pos rfl, Pairs.get?_erase, if_neg ha.symm]
    exact isSection_pruned h.hasMembers rfl fun hkeyed => hkeyed.erase a
  · rw [hlisted, if_neg hc, Pairs.get?_erase] at hx
    split at hx
    · cases hx
    · exact h.childLabel c x hc hx
  · rw [Pairs.get?_erase] at hx
    split at hx
    · cases hx
    · exact h.memberLabel c x hx
  · rw [hget, if_neg hk'] at hw
    exact h.otherClean k w hk hk' hw

theorem formedEntry_stripReference (h : FormedEntry n v) (ha : a ≠ choiceKey) :
    FormedEntry n (stripReference a v) := by
  obtain ⟨inner, listed, hentry⟩ := h.isEntry
  rcases eq_entryValue hentry with rfl | rfl
  · exact h
  · obtain ⟨fields, attributes, children, members, hsection, hformed⟩ := h
    obtain rfl := hsection.unique hentry.entry
    rw [stripReference_entryValue hformed.keyed]
    exact ⟨_, _, _, _, isSection_entryValue (keyed_pruneAt hformed.keyed), formed_pruneAt hformed ha⟩

end Stripping

/-! ## Putting into order -/

section Ordering

variable {grammar : Model} {n path : String} {v : Value}
  {fields attributes children members : Pairs}

theorem reorderAttributes_perm (grammar : Model) (n : String) (attributes : Pairs) :
    (reorderAttributes grammar n attributes).Perm attributes := by
  unfold reorderAttributes
  split
  · exact .refl _
  · exact sortByRank_perm _ _

/-- The children are found where they were, the choice with its members in order. -/
theorem get?_reorderChildren (h : children.Keyed) (grammar : Model) (n : String) :
    (reorderChildren grammar n children).Keyed ∧
      ∃ sorted : Pairs → Pairs, (∀ pairs, (sorted pairs).Perm pairs) ∧ ∀ c,
        Pairs.get? (reorderChildren grammar n children) c =
          if c = choiceKey then (Pairs.get? children c).map (editMapping sorted)
          else Pairs.get? children c := by
  cases he : grammar.element? n with
  | none =>
      have hsame : reorderChildren grammar n children = children := by
        unfold reorderChildren
        rw [he]
      have hid : editMapping id = id := by
        funext v
        cases v <;> rfl
      rw [hsame]
      refine ⟨h, id, fun _ => .refl _, fun c => ?_⟩
      rw [hid, Option.map_id_fun, id_eq, ite_self]
  | some e =>
      have hmoved : (reorderChildren grammar n children).Perm
          (children.map fun p => (p.1, sortedChoice (childRank e) p)) := by
        have hparts := (List.filter_append_perm (fun p => isChoiceKey p.1) children).symm.map
          fun p => (p.1, sortedChoice (childRank e) p)
        rw [List.map_append, map_sortedChoice_plain] at hparts
        rw [reorderChildren_eq he, toList_getLast? (length_choices_le_one h)]
        exact ((sortByRank_perm _ _).append_right _).trans
          (List.perm_append_comm.trans hparts.symm)
      have hkeyed := h.map (sortedChoice (childRank e))
      refine ⟨hkeyed.of_perm hmoved.symm, sortByRank (childRank e), sortByRank_perm _, fun c => ?_⟩
      have hchoice : ∀ v, sortedChoice (childRank e) (.string c, v) =
          if c = choiceKey then editMapping (sortByRank (childRank e)) v else v := by
        intro v
        by_cases hc : c = choiceKey
        · rw [if_pos hc, hc]
          rfl
        · have hplain : ¬isChoiceKey (.string c) = true := by
            simpa [isChoiceKey, Value.string?, Value.untagged] using hc
          rw [if_neg hc, sortedChoice, if_neg hplain]
      rw [hkeyed.get?_perm hmoved.symm, Pairs.get?_map, funext hchoice]
      split
      · rfl
      · exact Option.map_id'

theorem isSection_editMapping {v : Option Value} {inner : Pairs} {f : Pairs → Pairs}
    (h : IsSection v inner) (hnil : f [] = []) (hkeyed : inner.Keyed → (f inner).Keyed) :
    IsSection (v.map (editMapping f)) (f inner) := by
  cases h with
  | missing =>
      rw [hnil]
      exact .missing
  | null =>
      rw [hnil]
      exact .null
  | mapping h => exact .mapping (hkeyed h)

theorem reorderChildren_nil (grammar : Model) (n : String) :
    reorderChildren grammar n [] = [] := by
  unfold reorderChildren
  split
  · rfl
  · exact List.mergeSort_nil

theorem formed_reorder (h : Formed path fields attributes children members) (grammar : Model)
    (n : String) : ∃ after attributes children members,
      reorderEntry grammar (.string n) (.mapping fields) = .mapping after ∧
      Formed path after attributes children members := by
  obtain ⟨hkeyed, sorted, hsorted, hlisted⟩ :=
    get?_reorderChildren h.hasChildren.keyed grammar n
  have hget : ∀ k, Pairs.get? (Pairs.update "attributes" (editMapping (reorderAttributes grammar n))
      (Pairs.update "children" (editMapping (reorderChildren grammar n)) fields)) k =
        if k = "attributes" then
          (Pairs.get? fields "attributes").map (editMapping (reorderAttributes grammar n))
        else if k = "children" then
          (Pairs.get? fields "children").map (editMapping (reorderChildren grammar n))
        else Pairs.get? fields k := by
    intro k
    rw [Pairs.get?_update, Pairs.get?_update]
    by_cases hk : k = "attributes"
    · rw [if_pos hk, if_pos hk, hk, if_neg (by decide)]
    · rw [if_neg hk, if_neg hk]
      by_cases hk' : k = "children"
      · rw [if_pos hk', if_pos hk', hk']
      · rw [if_neg hk', if_neg hk']
  have hsame := reorderAttributes_perm grammar n attributes
  have hattributes := h.hasAttributes.keyed
  refine ⟨_, reorderAttributes grammar n attributes, reorderChildren grammar n children,
    sorted members, rfl, (h.keyed.update _ _).update _ _, ?_, ?_, ?_, fun a x hx => ?_,
    fun c x hc hx => ?_, fun c x hx => ?_, fun k w hk hk' hw => ?_⟩
  · rw [hget, if_pos rfl]
    exact isSection_editMapping h.hasAttributes
      (List.perm_nil.1 (reorderAttributes_perm grammar n [])) fun hkeyed =>
        hkeyed.of_perm hsame.symm
  · rw [hget, if_neg (by decide), if_pos rfl]
    exact isSection_editMapping h.hasChildren (reorderChildren_nil grammar n) fun _ => hkeyed
  · rw [hlisted, if_pos rfl]
    exact isSection_editMapping h.hasMembers (List.perm_nil.1 (hsorted [])) fun hkeyed =>
      hkeyed.of_perm (hsorted members).symm
  · rw [hattributes.get?_perm hsame.symm] at hx
    exact h.attributeClean a x hx
  · rw [hlisted, if_neg hc] at hx
    exact h.childLabel c x hc hx
  · rw [h.hasMembers.keyed.get?_perm (hsorted members).symm] at hx
    exact h.memberLabel c x hx
  · rw [hget, if_neg hk, if_neg hk'] at hw
    exact h.otherClean k w hk hk' hw

theorem formedEntry_reorderEntry (h : FormedEntry n v) (grammar : Model) :
    FormedEntry n (reorderEntry grammar (.string n) v) := by
  obtain ⟨fields, attributes, children, members, hsection, hformed⟩ := h
  cases hsection with
  | null => exact FormedEntry.null n
  | mapping _ =>
      obtain ⟨after, inner, listed, sorted, heq, hafter⟩ := formed_reorder hformed grammar n
      rw [heq]
      exact ⟨after, inner, listed, sorted, .mapping hafter.keyed, hafter⟩

end Ordering

end GrammarProfile.Cascade
