import GrammarProfile.Profile.Writer
import GrammarProfile.Proofs.FixedTexts
import GrammarProfile.Proofs.Readings

/-!
What is written of a profile is read as the same profile, and whatever was read can be written.
-/
namespace GrammarProfile

open GrammarProfile.Yaml (Value Pairs)

variable {α : Type}

theorem OrderedMap.eq_empty_of_isEmpty {m : OrderedMap α} (h : m.isEmpty = true) : m = ∅ := by
  obtain ⟨pairs, distinct⟩ := m
  cases List.isEmpty_iff.1 h
  rfl

/-- The pairs of a map, taken in one after the other, are the map. -/
theorem OrderedMap.foldl_insert (m : OrderedMap α) :
    m.pairs.foldl (fun (acc : OrderedMap α) p => acc.insert p.1 p.2) ∅ = m := by
  have hpairs : (ofList m.pairs).pairs = m.pairs := pairs_ofList m.distinct
  change ofList m.pairs = m
  cases m
  exact (OrderedMap.mk.injEq ..).mpr hpairs

namespace Profile

namespace ElementRule

/-- A rule that can be written: no child has the name of the key for alternatives, and where
there are alternatives, there is a key for them. -/
structure Writable (r : ElementRule) : Prop where
  children : choiceKey ∉ r.children.keys
  alternatives : r.alternatives.isEmpty = false → r.declaresChoice = true

theorem Writable.writesChoice_eq {r : ElementRule} (h : r.Writable) :
    r.writesChoice = r.declaresChoice := by
  unfold writesChoice
  cases hempty : r.alternatives.isEmpty with
  | true => simp
  | false => simp [h.alternatives hempty]

theorem Writable.alternatives_eq_empty {r : ElementRule} (h : r.Writable)
    (hchoice : r.declaresChoice = false) : r.alternatives = ∅ := by
  cases hempty : r.alternatives.isEmpty with
  | true => exact OrderedMap.eq_empty_of_isEmpty hempty
  | false => exact absurd (h.alternatives hempty) (by simp [hchoice])

theorem eq_empty_of_isEmpty {r : ElementRule} (h : r.isEmpty = true) : r = .empty := by
  simp only [isEmpty, Bool.and_eq_true, Option.isNone_iff_eq_none, List.isEmpty_iff,
    Bool.not_eq_true'] at h
  obtain ⟨⟨⟨⟨⟨hnote, hattributes⟩, hchildren⟩, halternatives⟩, hparts⟩, hchoice⟩ := h
  cases r
  cases hnote
  cases hparts
  cases hchoice
  cases OrderedMap.eq_empty_of_isEmpty hattributes
  cases OrderedMap.eq_empty_of_isEmpty hchildren
  cases OrderedMap.eq_empty_of_isEmpty halternatives
  rfl

end ElementRule

namespace Restriction

def Writable (r : Restriction) : Prop := ∀ p ∈ r.elements.pairs, p.2.Writable

/-- The tree that is written for a profile. -/
def document (r : Restriction) : Value := .mapping [(.string "profile", .mapping r.toTree)]

end Restriction

theorem names_mapTree {α : Type} (m : OrderedMap α) (value : α → Value) :
    Pairs.names (mapTree m value) = m.keys := by
  unfold Pairs.names mapTree OrderedMap.keys
  rw [List.filterMap_map, ← List.filterMap_eq_map]
  rfl

theorem Shaped.bind_assoc {β γ : Type} (x : Shaped α) (f : α → Shaped β) (g : β → Shaped γ) :
    x >>= f >>= g = x >>= fun a => f a >>= g :=
  congrArg (Shaped.mk _) (List.append_assoc ..)

namespace Shape

variable {parent path : String} {step : α → String → Value → Shaped α}

/-! ## Reading what is written of a map -/

theorem foldPairs_append (acc : α) (first rest : Pairs) :
    foldPairs parent step acc (first ++ rest) = (do
      let acc ← foldPairs parent step acc first
      foldPairs parent step acc rest) := by
  induction first generalizing acc with
  | nil => rfl
  | cons p first ih =>
      obtain ⟨key, v⟩ := p
      have hrest : ∀ x : Shaped α, (x >>= fun acc => foldPairs parent step acc (first ++ rest)) =
          (x >>= fun acc => foldPairs parent step acc first) >>= fun acc =>
            foldPairs parent step acc rest := by
        intro x
        rw [Shaped.bind_assoc, funext ih]
      cases key with
      | string name => exact hrest (step acc name v)
      | _ => exact hrest (Shaped.flawed acc parent _)

/-- A part that is written as a field is read again, if it is nothing where the field is left
out. -/
theorem foldPairs_written {acc after : α} {name : String} {isPresent : Bool} {v : Value}
    (hpresent : isPresent = true → step acc name v = pure after)
    (habsent : isPresent = false → acc = after) :
    foldPairs parent step acc (field name isPresent v) = pure after := by
  cases isPresent with
  | false => exact congrArg Pure.pure (habsent rfl)
  | true => exact (congrArg (Shaped.mk _) (List.append_nil _)).trans (hpresent rfl)

/-- Each pair of a map is taken in as `put` says. -/
theorem foldPairs_mapTree {β : Type} {m : OrderedMap β} {value : β → Value}
    {put : α → String → β → α}
    (hstep : ∀ acc, ∀ p ∈ m.pairs, step acc p.1 (value p.2) = pure (put acc p.1 p.2)) (acc : α) :
    foldPairs parent step acc (mapTree m value) =
      pure (m.pairs.foldl (fun acc p => put acc p.1 p.2) acc) := by
  unfold mapTree
  generalize m.pairs = pairs at hstep
  induction pairs generalizing acc with
  | nil => rfl
  | cons p rest ih =>
      rw [List.map_cons, foldPairs, hstep acc p List.mem_cons_self]
      exact ih _ fun acc q hq => hstep acc q (List.mem_cons_of_mem _ hq)

/-- A map is read again where each value is. -/
theorem foldMapping_mapTree {β : Type} {m : OrderedMap β} {value : β → Value}
    {step : OrderedMap β → String → Value → Shaped (OrderedMap β)}
    (hstep : ∀ acc, ∀ p ∈ m.pairs, step acc p.1 (value p.2) = pure (acc.insert p.1 p.2)) :
    foldMapping path step ∅ (.mapping (mapTree m value)) = pure m := by
  have hfold : foldPairs path step ∅ (mapTree m value) =
      pure (m.pairs.foldl (fun acc p => acc.insert p.1 p.2) ∅) := foldPairs_mapTree hstep ∅
  rw [m.foldl_insert] at hfold
  exact hfold

/-- A list of texts is read again. -/
theorem list_texts (convert : String → Value → Shaped (Option String))
    (hconvert : ∀ here s, convert here (.string s) = pure (some s)) (xs : List String) :
    list path convert (texts xs) = pure xs := by
  have hitems : ∀ i, items path convert i (xs.map .string) = pure xs := by
    induction xs with
    | nil => exact fun _ => rfl
    | cons x rest ih =>
        intro i
        rw [List.map_cons, items, hconvert, ih]
        rfl
  exact hitems 0

/-! ## Reading what is written of a profile -/

theorem cardinality_labelTree (label : Option String) :
    cardinality path (labelTree label) = pure label := by
  cases label <;> rfl

theorem member_labelTree (members : OrderedMap (Option String)) (name : String)
    (label : Option String) :
    member path members name (labelTree label) = pure (members.insert name label) := by
  rw [member, cardinality_labelTree]
  rfl

theorem foldPairs_values {rule : AttributeRule} (xs : List String) (hvalues : rule.values = []) :
    foldPairs path (attributeField path) rule (field "values" (!xs.isEmpty) (texts xs)) =
      pure { rule with values := xs } := by
  refine foldPairs_written (fun _ => ?_) fun habsent => ?_
  · exact congrArg (fun read : Shaped (List String) => read >>= fun values =>
      pure { rule with values := values }) (list_texts attributeValue (fun _ _ => rfl) xs)
  · have hempty : xs = [] := by simpa using habsent
    rw [hempty, ← hvalues]

theorem attributeEntry_toTree (rules : OrderedMap AttributeRule) (name : String)
    (rule : AttributeRule) :
    attributeEntry path rules name rule.toTree = pure (rules.insert name rule) := by
  have hfields : foldPairs (path ++ "." ++ name) (attributeField (path ++ "." ++ name)) .empty
      (field "required" true (.bool rule.required) ++
        field "values" (!rule.values.isEmpty) (texts rule.values)) = pure rule := by
    rw [foldPairs_append]
    exact foldPairs_values rule.values rfl
  unfold attributeEntry
  exact congrArg (fun read : Shaped AttributeRule => read >>= fun rule => pure (rules.insert name rule))
    hfields

/-! Each field of an entry is read into its own part of the rule. -/

section Fields

variable {rule written : ElementRule}

theorem foldPairs_note (hnote : rule.note = none) :
    foldPairs path (elementField path) rule
      (field "profileNote" written.note.isSome (.string (written.note.getD ""))) =
      pure { rule with note := written.note } := by
  refine foldPairs_written (fun hpresent => ?_) fun habsent => ?_
  · obtain ⟨note, hwritten⟩ := Option.isSome_iff_exists.1 hpresent
    rw [hwritten]
    rfl
  · rw [Option.isSome_eq_false_iff, Option.isNone_iff_eq_none] at habsent
    rw [habsent, ← hnote]

/-- The attributes are read again from a value that they are read from alone. -/
theorem foldPairs_attributes {v : Value} (hattributes : rule.attributes = ∅)
    (hv : foldMapping (path ++ "." ++ "attributes") (attributeEntry (path ++ "." ++ "attributes")) ∅ v =
      pure written.attributes) :
    foldPairs path (elementField path) rule (field "attributes" (!written.attributes.isEmpty) v) =
      pure { rule with attributes := written.attributes } := by
  refine foldPairs_written (fun _ => ?_) fun habsent => ?_
  · exact congrArg (fun read : Shaped (OrderedMap AttributeRule) => read >>= fun attributes =>
      pure { rule with attributes := attributes }) hv
  · have hempty : written.attributes.isEmpty = true := by simpa using habsent
    rw [OrderedMap.eq_empty_of_isEmpty hempty, ← hattributes]

theorem foldPairs_parts (hparts : rule.parts = []) :
    foldPairs path (elementField path) rule
      (field "structure" (!written.parts.isEmpty) (texts written.parts)) =
      pure { rule with parts := written.parts } := by
  refine foldPairs_written (fun _ => ?_) fun habsent => ?_
  · exact congrArg (fun read : Shaped (List String) => read >>= fun parts =>
      pure { rule with parts := parts })
      (list_texts name (fun _ _ => rfl) written.parts)
  · have hempty : written.parts = [] := by simpa using habsent
    rw [hempty, ← hparts]

/-- The rule with what another one lists. -/
def listed (rule written : ElementRule) : ElementRule :=
  { rule with
    children := written.children
    alternatives := written.alternatives
    declaresChoice := written.declaresChoice }

theorem foldPairs_plainChildren (h : written.Writable) (hchildren : rule.children = ∅) :
    foldPairs path (childEntry path) rule (mapTree written.children labelTree) =
      pure { rule with children := written.children } := by
  let put (acc : ElementRule) (child : String) (label : Option String) : ElementRule :=
    { acc with children := acc.children.insert child label }
  have hstep : ∀ acc, ∀ p ∈ written.children.pairs,
      childEntry path acc p.1 (labelTree p.2) = pure (put acc p.1 p.2) := by
    intro acc p hp
    have hname : ¬(p.1 == choiceKey) = true := by
      rw [beq_iff_eq]
      intro hname
      exact h.children (hname ▸ List.mem_map_of_mem hp)
    unfold childEntry
    rw [if_neg hname, member_labelTree]
    rfl
  have hput : ∀ pairs : List (String × Option String), ∀ acc : ElementRule,
      pairs.foldl (fun acc p => put acc p.1 p.2) acc =
        { acc with children := pairs.foldl (fun acc p => acc.insert p.1 p.2) acc.children } := by
    intro pairs
    induction pairs with
    | nil => exact fun _ => rfl
    | cons p rest ih => exact fun acc => ih _
  rw [foldPairs_mapTree hstep, hput, hchildren, written.children.foldl_insert]

theorem foldPairs_childrenTree (h : written.Writable) (hchildren : rule.children = ∅)
    (halternatives : rule.alternatives = ∅) (hchoice : rule.declaresChoice = false) :
    foldPairs path (childEntry path) rule written.childrenTree = pure (listed rule written) := by
  unfold ElementRule.childrenTree
  rw [foldPairs_append, foldPairs_plainChildren h hchildren, h.writesChoice_eq]
  change foldPairs path (childEntry path) { rule with children := written.children } _ = _
  refine foldPairs_written (fun hpresent => ?_) fun habsent => ?_
  · have hmembers : foldMapping (path ++ "." ++ choiceKey) (member (path ++ "." ++ choiceKey)) ∅
        (if written.alternatives.isEmpty then .null
          else .mapping (mapTree written.alternatives labelTree)) =
        pure written.alternatives := by
      split
      · next hempty =>
        rw [OrderedMap.eq_empty_of_isEmpty hempty]
        rfl
      · exact foldMapping_mapTree fun acc p _ => member_labelTree acc p.1 p.2
    unfold childEntry listed
    rw [if_pos (by simp), halternatives, hmembers, hpresent]
    rfl
  · unfold listed
    rw [h.alternatives_eq_empty habsent, habsent, ← halternatives, ← hchoice]

theorem foldPairs_children (h : written.Writable) (hchildren : rule.children = ∅)
    (halternatives : rule.alternatives = ∅) (hchoice : rule.declaresChoice = false) :
    foldPairs path (elementField path) rule
      (field "children" (!written.children.isEmpty || written.writesChoice)
        (.mapping written.childrenTree)) = pure (listed rule written) := by
  refine foldPairs_written
    (fun _ => foldPairs_childrenTree h hchildren halternatives hchoice) fun habsent => ?_
  rw [h.writesChoice_eq, Bool.or_eq_false_iff, Bool.not_eq_false'] at habsent
  obtain ⟨hempty, hnone⟩ := habsent
  unfold listed
  rw [h.alternatives_eq_empty hnone, OrderedMap.eq_empty_of_isEmpty hempty, hnone, ← hchoice]
  cases rule
  cases hchildren
  cases halternatives
  rfl

theorem foldMapping_toTree (h : written.Writable) :
    foldMapping path (elementField path) .empty written.toTree = pure written := by
  unfold ElementRule.toTree
  split
  · next hempty =>
    rw [ElementRule.eq_empty_of_isEmpty hempty]
    rfl
  · change foldPairs path (elementField path) .empty _ = _
    rw [foldPairs_append, foldPairs_append, foldPairs_append, foldPairs_note rfl]
    change ((foldPairs path _ _ _ >>= _) >>= _) = _
    rw [foldPairs_attributes rfl (foldMapping_mapTree fun acc p _ => attributeEntry_toTree acc p.1 p.2)]
    change (foldPairs path _ _ _ >>= _) = _
    rw [foldPairs_children h rfl rfl rfl]
    exact foldPairs_parts rfl

end Fields

theorem elementEntry_toTree {written : ElementRule} (h : written.Writable)
    (rules : OrderedMap ElementRule) (name : String) :
    elementEntry path rules name written.toTree = pure (rules.insert name written) := by
  unfold elementEntry
  exact congrArg (fun read : Shaped ElementRule => read >>= fun rule => pure (rules.insert name rule))
    (foldMapping_toTree h)

theorem foldMapping_elements {elements : OrderedMap ElementRule}
    (h : ∀ p ∈ elements.pairs, p.2.Writable) :
    foldMapping path (elementEntry path) ∅ (.mapping (mapTree elements ElementRule.toTree)) =
      pure elements :=
  foldMapping_mapTree fun acc p hp => elementEntry_toTree (h p hp) acc p.1

/-! Each field of a profile is read into its own part. -/

section Fields

variable {before : Restriction} {isPresent : Bool}

theorem foldPairs_description {s : String} (hbefore : before.description = "")
    (habsent : isPresent = false → s = "") :
    foldPairs "profile" (profileField "profile") before (field "description" isPresent (.string s)) =
      pure { before with description := s } := by
  refine foldPairs_written (fun _ => rfl) fun hnone => ?_
  rw [habsent hnone, ← hbefore]

theorem foldPairs_documentTypes (xs : List String) (hbefore : before.documentTypes = []) :
    foldPairs "profile" (profileField "profile") before
      (field "documentTypes" (!xs.isEmpty) (texts xs)) = pure { before with documentTypes := xs } := by
  refine foldPairs_written (fun _ => ?_) fun habsent => ?_
  · exact congrArg (fun read : Shaped (List String) => read >>= fun names =>
      pure { before with documentTypes := names }) (list_texts name (fun _ _ => rfl) xs)
  · have hempty : xs = [] := by simpa using habsent
    rw [hempty, ← hbefore]

theorem foldPairs_elements {elements : OrderedMap ElementRule} {v : Value}
    (hv : foldMapping ("profile" ++ "." ++ "elements") (elementEntry ("profile" ++ "." ++ "elements")) ∅ v =
      pure elements) (before : Restriction) :
    foldPairs "profile" (profileField "profile") before (field "elements" true v) =
      pure { before with elements := elements } := by
  refine foldPairs_written (fun _ => ?_) fun habsent => absurd habsent (by decide)
  exact congrArg (fun read : Shaped (OrderedMap ElementRule) => read >>= fun elements =>
    pure { before with elements := elements }) hv

end Fields

end Shape

namespace Restriction

/-- The pairs that are written for a profile are read as the profile. -/
theorem ofTree_toTree {r : Restriction} (h : r.Writable) : ofTree r.toTree = pure r := by
  have hdescription : (r.description != "") = false → r.description = "" := by simp
  unfold ofTree toTree
  rw [Shape.foldPairs_append, Shape.foldPairs_append, Shape.foldPairs_append,
    Shape.foldPairs_append]
  change ((Shape.foldPairs _ _ _ _ >>= _) >>= _) = _
  rw [Shape.foldPairs_description rfl hdescription]
  change (Shape.foldPairs _ _ _ _ >>= _) = _
  rw [Shape.foldPairs_documentTypes r.documentTypes rfl]
  exact Shape.foldPairs_elements (Shape.foldMapping_elements h) _

/-- A mapping with nothing but a profile is read as this profile. -/
theorem ofValue_of_ofTree {fields : Pairs} {r : Restriction} (h : ofTree fields = pure r)
    (index : LineIndex) :
    Reading.ofValue index (.mapping [(.string "profile", .mapping fields)]) = ⟨some r, [], index⟩ := by
  have hpairs : Reading.profilePairs index (.mapping [(.string "profile", .mapping fields)]) =
      .ok fields := rfl
  unfold Reading.ofValue
  rw [hpairs]
  dsimp only
  rw [h]
  rfl

theorem ofValue_document {r : Restriction} (h : r.Writable) (index : LineIndex) :
    Reading.ofValue index r.document = ⟨some r, [], index⟩ :=
  ofValue_of_ofTree (ofTree_toTree h) index

end Restriction

/-! ## What is read can be written -/

namespace Shape

variable {parent path : String} {step : α → String → Value → Shaped α} {P : α → Prop}

theorem foldPairs_keeps (hstep : ∀ acc name v, P acc → P (step acc name v).result) {acc : α}
    (h : P acc) (pairs : Pairs) : P (foldPairs parent step acc pairs).result := by
  induction pairs generalizing acc with
  | nil => exact h
  | cons p rest ih =>
      obtain ⟨key, v⟩ := p
      cases key with
      | string name => exact ih (hstep acc name v h)
      | _ => exact ih h

theorem foldMapping_keeps (hstep : ∀ acc name v, P acc → P (step acc name v).result) {acc : α}
    (h : P acc) (v : Value) : P (foldMapping path step acc v).result := by
  cases v with
  | mapping pairs => exact foldPairs_keeps hstep h pairs
  | _ => exact h

theorem writable_childEntry {rule : ElementRule} (h : rule.Writable) (name : String) (v : Value) :
    (childEntry path rule name v).result.Writable := by
  unfold childEntry
  dsimp only
  split
  · exact ⟨h.children, fun _ => rfl⟩
  · next hname =>
    refine ⟨fun hkey => ?_, h.alternatives⟩
    rcases mem_names_setPair.1 hkey with hsame | hold
    · exact hname (beq_iff_eq.2 hsame.symm)
    · exact h.children hold

theorem writable_elementField {rule : ElementRule} (h : rule.Writable) (name : String) (v : Value) :
    (elementField path rule name v).result.Writable := by
  unfold elementField
  dsimp only
  split
  · exact ⟨h.children, h.alternatives⟩
  · exact ⟨h.children, h.alternatives⟩
  · exact foldMapping_keeps (P := ElementRule.Writable)
      (fun _ name v hrule => writable_childEntry hrule name v) h v
  · exact ⟨h.children, h.alternatives⟩
  · exact h

/-- Rules that can be written are kept so by an entry that is taken in. -/
theorem writable_elementEntry {rules : OrderedMap ElementRule}
    (h : ∀ p ∈ rules.pairs, p.2.Writable) (name : String) (v : Value) :
    ∀ p ∈ (elementEntry path rules name v).result.pairs, p.2.Writable := by
  have hempty : ElementRule.empty.Writable := ⟨List.not_mem_nil, fun hnone => nomatch hnone⟩
  intro p hp
  rcases mem_setPair hp with rfl | hp
  · exact foldMapping_keeps (P := ElementRule.Writable)
      (fun _ name v hrule => writable_elementField hrule name v) hempty v
  · exact h p hp

end Shape

namespace Restriction

theorem writable_ofTree (fields : Pairs) : (ofTree fields).result.Writable := by
  have hempty : Restriction.empty.Writable := fun p hp => absurd hp List.not_mem_nil
  refine Shape.foldPairs_keeps (P := Writable) (fun r name v h => ?_) hempty fields
  unfold Shape.profileField
  dsimp only
  split
  · exact h
  · exact h
  · exact h
  · exact h
  · exact Shape.foldMapping_keeps
      (P := fun rules : OrderedMap ElementRule => ∀ p ∈ rules.pairs, p.2.Writable)
      (fun _ name v hrules => Shape.writable_elementEntry hrules name v)
      (fun p hp => absurd hp List.not_mem_nil) v
  · exact h

/-- Writing and reading are inverse on trees: a profile that can be written is read again as it
is, wherever its lines stand, and every profile that is read from a text can be written. -/
theorem document_reads_back :
    (∀ r : Restriction, r.Writable → ∀ index,
      Reading.ofValue index r.document = ⟨some r, [], index⟩) ∧
    ∀ (text : String) (r : Restriction), (read text).profile = some r →
      r.Writable ∧ ∀ index, Reading.ofValue index r.document = ⟨some r, [], index⟩ := by
  refine ⟨fun r h => ofValue_document h, fun text r hread => ?_⟩
  obtain ⟨_, fields, _, _, _, rfl⟩ := read_eq_some hread
  have hwritable := writable_ofTree fields
  exact ⟨hwritable, ofValue_document hwritable⟩

/-- A list with a note, of whose members one has to be chosen; the other one has no rule. -/
def choiceProfile : Restriction :=
  { Restriction.empty with
    version := "1"
    elements := ⟨[("list", ⟨some "", ∅, ⟨[("num", some "0..1")], by decide⟩,
      ⟨[("choice", none), ("item", none)], by decide⟩, ["num"], true⟩), ("item", .empty)],
      (by decide : ["list", "item"].Nodup)⟩ }

def choiceText : String :=
  "profile: \x7bversion: 1, elements: \x7blist: \x7bprofileNote: '', structure: [num], " ++
    "children: \x7bchoice: \x7bchoice: , item: \x7d, num: 0..1\x7d\x7d, item: \x7d\x7d"

theorem choiceProfile_reads_back :
    choiceProfile.Writable ∧ (read choiceText).profile = some choiceProfile ∧
      ∀ index, Reading.ofValue index choiceProfile.document = ⟨some choiceProfile, [], index⟩ := by
  obtain ⟨r, hread, hr⟩ : ∃ r, (read choiceText).profile = some r ∧
      decide (r = choiceProfile) = true :=
    exists_profile String.ofList_append.symm (by decide +kernel)
  obtain rfl := of_decide_eq_true hr
  have hwritable := (document_reads_back.2 choiceText choiceProfile hread).1
  exact ⟨hwritable, hread, document_reads_back.1 choiceProfile hwritable⟩

end Restriction

end Profile

end GrammarProfile
