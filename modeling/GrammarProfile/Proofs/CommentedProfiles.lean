import GrammarProfile.Cascade.Commentary
import GrammarProfile.Proofs.NotedLines
import GrammarProfile.Proofs.RenderedProfiles

/-!
Profiles written with comments: between the comments stands a mapping that leaves out more than the
one without comments does, and both are read as the same profile.
-/
namespace GrammarProfile.Profile

open GrammarProfile.Yaml (Value Pairs)

/-! ## What stands between the comments -/

/-- What is written of an attribute; one that is not required is not said to be so. -/
def AttributeRule.notedPairs (rule : AttributeRule) : Pairs :=
  field "required" rule.required (.bool true) ++
    field "values" (!rule.values.isEmpty) (texts rule.values)

def AttributeRule.notedTree (rule : AttributeRule) : Value := rule.notedPairs.orNull

namespace ElementRule

/-- A rule with nothing but attributes and children, as scaffolds have them. -/
structure IsSketch (rule : ElementRule) : Prop extends rule.Writable where
  note : rule.note = none
  parts : rule.parts = []
  choice : rule.declaresChoice = !rule.alternatives.isEmpty

def notedPairs (rule : ElementRule) : Pairs :=
  field "attributes" (!rule.attributes.isEmpty)
      (.mapping (mapTree rule.attributes AttributeRule.notedTree)) ++
    field "children" (!rule.children.isEmpty || rule.writesChoice) (.mapping rule.childrenTree)

def notedTree (rule : ElementRule) : Value := rule.notedPairs.orNull

end ElementRule

namespace Restriction

/-- The pairs of a profile between the comments. -/
def notedPairs (r : Restriction) : Pairs :=
  field "name" true (.string r.name) ++ field "version" true (.string r.version) ++
    field "description" true (.string r.description) ++
    field "documentTypes" (!r.documentTypes.isEmpty) (texts r.documentTypes) ++
    field "elements" true (mapTree r.elements ElementRule.notedTree).orNull

def IsSketch (r : Restriction) : Prop := ∀ p ∈ r.elements.pairs, p.2.IsSketch

end Restriction

/-! ## Reading it -/

namespace Shape

variable {α : Type} {path : String} {step : α → String → Value → Shaped α}

/-- Without pairs there is nothing to read. -/
theorem foldMapping_orNull (start : α) (pairs : Pairs) :
    foldMapping path step start pairs.orNull = foldPairs path step start pairs := by
  cases pairs with
  | nil => rfl
  | cons p rest => rfl

theorem attributeEntry_notedTree (rules : OrderedMap AttributeRule) (name : String)
    (rule : AttributeRule) :
    attributeEntry path rules name rule.notedTree = pure (rules.insert name rule) := by
  have hfields : foldPairs (path ++ "." ++ name) (attributeField (path ++ "." ++ name)) .empty
      rule.notedPairs = pure rule := by
    have hrequired : foldPairs (path ++ "." ++ name) (attributeField (path ++ "." ++ name)) .empty
        (field "required" rule.required (.bool true)) = pure ⟨rule.required, []⟩ := by
      refine foldPairs_written (fun hpresent => ?_) fun habsent => ?_
      · rw [hpresent]
        rfl
      · rw [habsent]
        rfl
    rw [AttributeRule.notedPairs, foldPairs_append, hrequired]
    exact foldPairs_values rule.values rfl
  unfold attributeEntry AttributeRule.notedTree
  dsimp only
  rw [foldMapping_orNull, hfields]
  rfl

theorem elementEntry_notedTree {rule : ElementRule} (h : rule.IsSketch)
    (rules : OrderedMap ElementRule) (name : String) :
    elementEntry path rules name rule.notedTree = pure (rules.insert name rule) := by
  have hfields : foldPairs (path ++ "." ++ name) (elementField (path ++ "." ++ name)) .empty
      rule.notedPairs = pure rule := by
    rw [ElementRule.notedPairs, foldPairs_append, foldPairs_attributes rfl
      (foldMapping_mapTree fun acc p _ => attributeEntry_notedTree acc p.1 p.2)]
    change foldPairs _ _ _ _ = _
    rw [foldPairs_children h.toWritable rfl rfl rfl]
    obtain ⟨note, attributes, children, alternatives, parts, choice⟩ := rule
    obtain rfl := h.note
    obtain rfl := h.parts
    rfl
  unfold elementEntry ElementRule.notedTree
  dsimp only
  rw [foldMapping_orNull, hfields]
  rfl

end Shape

namespace Restriction

variable {r : Restriction}

/-- What stands between the comments is read as the profile. -/
theorem ofTree_notedPairs (h : r.IsSketch) : ofTree r.notedPairs = pure r := by
  have helements : Shape.foldMapping ("profile" ++ "." ++ "elements")
      (Shape.elementEntry ("profile" ++ "." ++ "elements")) ∅
      (mapTree r.elements ElementRule.notedTree).orNull = pure r.elements := by
    rw [Shape.foldMapping_orNull]
    exact Shape.foldMapping_mapTree fun acc p hp => Shape.elementEntry_notedTree (h p hp) acc p.1
  unfold ofTree notedPairs
  rw [Shape.foldPairs_append, Shape.foldPairs_append, Shape.foldPairs_append,
    Shape.foldPairs_append]
  change ((Shape.foldPairs _ _ _ _ >>= _) >>= _) = _
  rw [Shape.foldPairs_description rfl fun hnone => absurd hnone (by decide)]
  change (Shape.foldPairs _ _ _ _ >>= _) = _
  rw [Shape.foldPairs_documentTypes r.documentTypes rfl]
  exact Shape.foldPairs_elements helements _

end Restriction

end GrammarProfile.Profile

namespace GrammarProfile.Cascade

open GrammarProfile.Grammar (Attribute Element Model)
open GrammarProfile.Profile
open GrammarProfile.Yaml

/-! ## What can be written with comments -/

/-- Texts that an attribute has beside its name and can be quoted in a comment. -/
structure LegibleAttribute (a : Attribute) : Prop where
  pattern : ∀ p ∈ a.pattern, InLine p.source.toList
  typeName : ∀ t ∈ a.typeName, InLine t.toList

instance (a : Attribute) : Decidable (LegibleAttribute a) :=
  decidable_of_iff ((∀ p ∈ a.pattern, InLine p.source.toList) ∧ ∀ t ∈ a.typeName, InLine t.toList)
    ⟨fun h => ⟨h.1, h.2⟩, fun h => ⟨h.pattern, h.typeName⟩⟩

/-- The entry of an element whose names are words, and whose other texts do not end the lines that
they are written in. -/
structure LegibleEntry (e : Element) (rule : ElementRule) : Prop where
  doc : InLine (Commentary.shortened e.doc).toList
  attributes : ∀ p ∈ rule.attributes.pairs, IsWord p.1 ∧ ∀ s ∈ p.2.values, IsQuotable s
  remarks : ∀ a ∈ e.attributes, a.name ∈ rule.attributes.keys → LegibleAttribute a
  children : ∀ n ∈ rule.childNames, IsWord n
  offered : ∀ c ∈ e.children, InLine c.name.toList

instance (e : Element) (rule : ElementRule) : Decidable (LegibleEntry e rule) :=
  decidable_of_iff (InLine (Commentary.shortened e.doc).toList ∧
    (∀ p ∈ rule.attributes.pairs, IsWord p.1 ∧ ∀ s ∈ p.2.values, IsQuotable s) ∧
    (∀ a ∈ e.attributes, a.name ∈ rule.attributes.keys → LegibleAttribute a) ∧
    (∀ n ∈ rule.childNames, IsWord n) ∧ ∀ c ∈ e.children, InLine c.name.toList)
    ⟨fun h => ⟨h.1, h.2.1, h.2.2.1, h.2.2.2.1, h.2.2.2.2⟩,
      fun h => ⟨h.doc, h.attributes, h.remarks, h.children, h.offered⟩⟩

/-- Labels that can be quoted. -/
def LegibleLabels (members : OrderedMap (Option String)) : Prop :=
  ∀ p ∈ members.pairs, ∀ s ∈ p.2, IsQuotable s

namespace Commentary

/-! ## The lines of an entry -/

variable {depth column : Nat} {e : Element} {rule : ElementRule} {name : String}

theorem isRemark_nil : IsRemark "" := ⟨isFiller_nil, inLine_nil⟩

/-- A line with nothing but a comment. -/
theorem isRemark_comment (k : Nat) {l : String} {cs : List Char} (hl : l.toList = spaces k ++ '#' :: cs)
    (h : InLine cs) : IsRemark l :=
  ⟨hl ▸ isFiller_comment k h, hl ▸ inLine_append.2 ⟨inLine_spaces k, inLine_cons.2 ⟨by decide, h⟩⟩⟩

theorem isRemark_literal (k : Nat) {cs : List Char} (h : InLine cs) :
    IsRemark (String.ofList (spaces k ++ '#' :: cs)) := isRemark_comment k String.toList_ofList h

theorem inLine_commaSeparated {parts : List String} (h : ∀ s ∈ parts, InLine s.toList) :
    InLine (Text.commaSeparated parts).toList := by
  rw [toList_commaSeparated]
  exact inLine_withCommas (List.forall_mem_map.2 h)

theorem isNote_attributeRemark {a : Attribute} (h : LegibleAttribute a) :
    IsNote (attributeRemark a).toList := by
  have hfacts : ∀ s ∈ [if a.required then "XSD-required" else "optional in XSD"] ++
      (a.pattern.map fun p => "pattern: " ++ p.source).toList ++
      (a.typeName.map fun t => "type: " ++ t).toList, InLine s.toList := by
    refine List.forall_mem_append.2 ⟨List.forall_mem_append.2 ⟨List.forall_mem_singleton.2 ?_,
      fun s hs => ?_⟩, fun s hs => ?_⟩
    · cases a.required <;> decide
    · obtain ⟨p, hp, rfl⟩ := Option.map_eq_some_iff.1 (Option.mem_toList.1 hs)
      rw [String.toList_append]
      exact inLine_append.2 ⟨by decide, h.pattern p hp⟩
    · obtain ⟨t, ht, rfl⟩ := Option.map_eq_some_iff.1 (Option.mem_toList.1 hs)
      rw [String.toList_append]
      exact inLine_append.2 ⟨by decide, h.typeName t ht⟩
  have hnote := isNote_comment 1 (inLine_cons.2 ⟨(by decide : isInLine ' ' = true),
    inLine_commaSeparated hfacts⟩)
  unfold attributeRemark
  rw [String.toList_append]
  exact hnote

/-- The lines of an attribute are read as its pair. -/
theorem pairLines_attribute (h : LegibleEntry e rule) {p : String × AttributeRule}
    (hp : p ∈ rule.attributes.pairs) :
    PairLines 2 8 (attributeLines e p.1 p.2) [(.string p.1, p.2.notedTree)] := by
  obtain ⟨hname, hvalues⟩ := h.attributes p hp
  have hnote : IsNote (((e.attribute? p.1).map attributeRemark).getD "").toList := by
    cases ha : e.attribute? p.1 with
    | none => exact isNote_nil
    | some a =>
        have hfound : a.name = p.1 := by simpa using List.find?_some ha
        exact isNote_attributeRemark (h.remarks a (List.mem_of_find?_eq_some ha)
          (hfound ▸ List.mem_map_of_mem hp))
  have hfields : PairLines 1 10
      ((if p.2.required then ["          required: true"] else []) ++
        if p.2.values.isEmpty then []
        else ["          values: [" ++ Text.commaSeparated (p.2.values.map Text.jsonString) ++ "]"])
      p.2.notedPairs := by
    refine PairLines.append ?_ ?_
    · cases p.2.required with
      | false => exact pairLines_remarks (List.forall_mem_nil _)
      | true => exact pairLines_true (by decide) (by decide)
    · cases hempty : p.2.values.isEmpty with
      | true => exact pairLines_remarks (List.forall_mem_nil _)
      | false =>
          exact pairLines_flow (by decide) hvalues (by simp [spaces, List.replicate])
  have hkeys : p.2.notedPairs.Different :=
    (((fieldsOf_field ..).append (fieldsOf_field ..)).keyed (by decide)).different
  exact pairLines_section hname hnote (by simp [spaces, List.replicate]) hfields (by decide) hkeys

theorem mapTree_ne_nil {α : Type} {m : OrderedMap α} (value : α → Value) (h : m.isEmpty = false) :
    mapTree m value ≠ [] := by
  intro hnil
  rw [OrderedMap.isEmpty, List.map_eq_nil_iff.1 hnil] at h
  exact Bool.noConfusion h

theorem different_mapTree {α : Type} (m : OrderedMap α) (value : α → Value) :
    (mapTree m value).Different := ((fieldsOf_mapTree m value).keyed m.distinct).different

theorem pairLines_attributes (h : LegibleEntry e rule) : PairLines 3 6 (attributesLines e rule)
    (field "attributes" (!rule.attributes.isEmpty)
      (.mapping (mapTree rule.attributes AttributeRule.notedTree))) := by
  unfold attributesLines
  cases hempty : rule.attributes.isEmpty with
  | true => exact pairLines_remarks (List.forall_mem_nil _)
  | false =>
      have hlines : PairLines 2 8 (rule.attributes.pairs.flatMap fun p => attributeLines e p.1 p.2)
          (mapTree rule.attributes AttributeRule.notedTree) :=
        pairLines_map fun p hp => pairLines_attribute h hp
      have hsection : PairLines 3 6 ("      attributes:" :: _)
          [(.string "attributes", (mapTree rule.attributes AttributeRule.notedTree).orNull)] :=
        pairLines_section (by decide) isNote_nil (by decide) hlines (by decide) (different_mapTree ..)
      rwa [Pairs.orNull_of_ne_nil (mapTree_ne_nil _ hempty)] at hsection

theorem pairLines_child {pad : String} (hpad : pad.toList = spaces column) (hname : IsWord name)
    {label : Option String} (hlabel : ∀ s ∈ label, IsQuotable s) :
    PairLines depth column [childLine e pad name label] [(.string name, labelTree label)] := by
  have hnote : IsNote (if (e.child? name).any (·.required) then " # required" else "").toList := by
    split
    · exact isNote_comment 0 (by decide)
    · exact isNote_nil
  unfold childLine
  cases label with
  | none =>
      refine pairLines_null hname hnote ?_
      simp [hpad]
  | some s =>
      refine pairLines_quoted hname (hlabel s rfl) hnote ?_
      simp [hpad, spaces, List.replicate]

theorem pairLines_members {pad : String} (hpad : pad.toList = spaces column)
    {members : OrderedMap (Option String)} (hnames : ∀ n ∈ members.keys, IsWord n)
    (hlabels : LegibleLabels members) :
    PairLines depth column (members.pairs.map fun p => childLine e pad p.1 p.2)
      (mapTree members labelTree) := by
  rw [List.map_eq_flatMap]
  exact pairLines_map fun p hp =>
    pairLines_child hpad (hnames p.1 (List.mem_map_of_mem hp)) (hlabels p hp)

theorem isRemark_offered {names : List String} (h : ∀ n ∈ names, InLine n.toList) :
    IsRemark ("      # Also available: " ++ Text.commaSeparated (names.take namedChildren) ++
      if namedChildren < names.length then "..." else "") := by
  have hnames := inLine_commaSeparated fun n (hn : n ∈ names.take namedChildren) =>
    h n (List.mem_of_mem_take hn)
  have hdots : InLine (if namedChildren < names.length then "..." else "").toList := by
    split <;> decide
  have htext : InLine (" Also available: ".toList ++ ((Text.commaSeparated
      (names.take namedChildren)).toList ++
        (if namedChildren < names.length then "..." else "").toList)) :=
    inLine_append.2 ⟨by decide, inLine_append.2 ⟨hnames, hdots⟩⟩
  exact isRemark_comment 6 (by simp [spaces, List.replicate]) htext

theorem isRemark_available (h : LegibleEntry e rule) : ∀ l ∈ availableLines e rule, IsRemark l := by
  unfold availableLines
  dsimp only
  split
  · exact List.forall_mem_nil _
  · refine List.forall_mem_singleton.2 (isRemark_offered fun n hn => ?_)
    obtain ⟨c, hc, rfl⟩ := List.mem_map.1 (List.mem_filter.1 hn).1
    exact h.offered c (List.mem_filter.1 hc).1

/-- The lines of the children, alternatives last. -/
theorem pairLines_children (h : LegibleEntry e rule) (hsketch : rule.IsSketch)
    (hchildren : LegibleLabels rule.children) (halternatives : LegibleLabels rule.alternatives) :
    PairLines 3 6 (childrenLines e rule)
      (field "children" (!rule.children.isEmpty || rule.writesChoice) (.mapping rule.childrenTree)) := by
  have hchoice : rule.writesChoice = !rule.alternatives.isEmpty := by
    rw [ElementRule.writesChoice, hsketch.choice, Bool.or_self]
  unfold childrenLines
  rw [hchoice, ← Bool.not_and]
  cases hempty : rule.children.isEmpty && rule.alternatives.isEmpty with
  | true => exact pairLines_remarks (List.forall_mem_nil _)
  | false =>
      have hmembers : PairLines 2 8 (rule.children.pairs.map fun p => childLine e "        " p.1 p.2)
          (mapTree rule.children labelTree) :=
        pairLines_members (by decide) (fun n hn => h.children n (List.mem_append_left _ hn)) hchildren
      have hgroup : PairLines 2 8 (if rule.alternatives.isEmpty then []
          else ("        " ++ choiceKey ++ ":") ::
            rule.alternatives.pairs.map fun p => childLine e "          " p.1 p.2)
          (field choiceKey (!rule.alternatives.isEmpty) (if rule.alternatives.isEmpty then .null
            else .mapping (mapTree rule.alternatives labelTree))) := by
        cases hnone : rule.alternatives.isEmpty with
        | true => exact pairLines_remarks (List.forall_mem_nil _)
        | false =>
            have hlines : PairLines 1 10
                (rule.alternatives.pairs.map fun p => childLine e "          " p.1 p.2)
                (mapTree rule.alternatives labelTree) :=
              pairLines_members (by decide) (fun n hn => h.children n (List.mem_append_right _ hn))
                halternatives
            have hsection : PairLines 2 8 (("        " ++ choiceKey ++ ":") :: _)
                [(.string choiceKey, (mapTree rule.alternatives labelTree).orNull)] :=
              pairLines_section (by decide) isNote_nil (by decide) hlines (by decide)
                (different_mapTree ..)
            rwa [Pairs.orNull_of_ne_nil (mapTree_ne_nil _ hnone)] at hsection
      have hpairs : mapTree rule.children labelTree ++ field choiceKey (!rule.alternatives.isEmpty)
          (if rule.alternatives.isEmpty then .null
            else .mapping (mapTree rule.alternatives labelTree)) = rule.childrenTree := by
        rw [ElementRule.childrenTree, hchoice]
      have hlines := hmembers.append hgroup
      rw [hpairs] at hlines
      have hne : rule.childrenTree ≠ [] := by
        rw [← hpairs]
        rcases Bool.and_eq_false_iff.1 hempty with hsome | hsome
        · exact List.append_ne_nil_of_left_ne_nil (mapTree_ne_nil _ hsome) _
        · rw [hsome]
          exact List.append_ne_nil_of_right_ne_nil _ (List.cons_ne_nil _ _)
      have hsection : PairLines 3 6 ("      children:" :: _)
          [(.string "children", Pairs.orNull rule.childrenTree)] :=
        pairLines_section (by decide) isNote_nil (by decide) hlines (by decide)
          (ElementRule.keyed_childrenTree hsketch.toWritable).different
      rw [Pairs.orNull_of_ne_nil hne] at hsection
      have hall := (pairLines_remarks (isRemark_available h)).append hsection
      rw [if_neg Bool.false_ne_true, List.append_assoc, List.append_assoc]
      exact hall

/-- The lines of an entry are read as its pair. -/
theorem pairLines_element {grammar : Model} (he : grammar.element? name = some e) (hname : IsWord name)
    (h : LegibleEntry e rule) (hsketch : rule.IsSketch) (hchildren : LegibleLabels rule.children)
    (halternatives : LegibleLabels rule.alternatives) :
    PairLines 4 4 (elementLines grammar name rule) [(.string name, rule.notedTree)] := by
  have hdoc : ∀ l ∈ (if e.doc.isEmpty then [] else ["    # " ++ shortened e.doc]), IsRemark l := by
    split
    · exact List.forall_mem_nil _
    · have htext : ("    # " ++ shortened e.doc).toList =
          spaces 4 ++ '#' :: ' ' :: (shortened e.doc).toList := by simp [spaces, List.replicate]
      exact List.forall_mem_singleton.2
        (isRemark_comment 4 htext (inLine_cons.2 ⟨by decide, h.doc⟩))
  have hfields : PairLines 3 6 (attributesLines e rule ++ childrenLines e rule) rule.notedPairs :=
    (pairLines_attributes h).append (pairLines_children h hsketch hchildren halternatives)
  have hkeys : rule.notedPairs.Different :=
    (((fieldsOf_field ..).append (fieldsOf_field ..)).keyed (by decide)).different
  have hsection : PairLines 4 4 (("    " ++ name ++ ":") :: _) [(.string name, rule.notedTree)] :=
    pairLines_section hname isNote_nil (by simp [spaces, List.replicate]) hfields (by decide) hkeys
  have hall := ((pairLines_remarks hdoc).append hsection).append
    (pairLines_remarks (List.forall_mem_singleton.2 isRemark_nil))
  unfold elementLines
  rw [he]
  simpa using hall

/-! ## The lines of a profile -/

variable {grammar : Model} {r : Restriction}

theorem pairLines_documentTypes {types : List String} (htypes : ∀ s ∈ types, IsWord s)
    (hdeclared : ∀ s ∈ grammar.documentTypes, InLine s.toList) :
    PairLines 5 2 (documentTypeLines grammar types)
      (field "documentTypes" (!types.isEmpty) (texts types)) := by
  unfold documentTypeLines
  cases hempty : types.isEmpty with
  | true => exact pairLines_remarks (List.forall_mem_nil _)
  | false =>
      have hremark : IsRemark ("  # Valid document types: " ++ Text.commaSeparated grammar.documentTypes) := by
        have htext : InLine (" Valid document types: ".toList ++
            (Text.commaSeparated grammar.documentTypes).toList) :=
          inLine_append.2 ⟨by decide, inLine_commaSeparated hdeclared⟩
        exact isRemark_comment 2 (by simp [spaces, List.replicate]) htext
      have hitem : ∀ s : String, ("    - " ++ s).toList = spaces 4 ++ ('-' :: (spaces 1 ++ s.toList)) :=
        fun s => by simp [spaces, List.replicate]
      have hitems : PairLines 5 2 ("  documentTypes:" :: types.map fun dt => "    - " ++ dt)
          [(.string "documentTypes", texts types)] :=
        pairLines_items (by decide) (by decide) (by simpa using hempty) htypes hitem (by decide)
      have hall := ((pairLines_remarks (List.forall_mem_singleton.2 hremark)).append hitems).append
        (pairLines_remarks (List.forall_mem_singleton.2 isRemark_nil))
      simpa [field] using hall

end Commentary

/-- A profile that can be written with comments. -/
structure Legible (grammar : Model) (r : Restriction) : Prop where
  name : IsQuotable r.name
  version : IsQuotable r.version
  description : IsQuotable r.description
  types : ∀ s ∈ r.documentTypes, IsWord s
  declared : ∀ s ∈ grammar.documentTypes, InLine s.toList
  entries : ∀ p ∈ r.elements.pairs, IsWord p.1 ∧ ∃ e, grammar.element? p.1 = some e ∧
    LegibleEntry e p.2 ∧ LegibleLabels p.2.children ∧ LegibleLabels p.2.alternatives

namespace Commentary

variable {grammar : Model} {r : Restriction}

/-- The lines of a profile, from the key at its top on. -/
theorem pairLines_profile (h : Legible grammar r) (hsketch : r.IsSketch) :
    PairLines 6 0 ("profile:" ::
        (["  name: " ++ Text.jsonString r.name] ++ ["  version: " ++ Text.jsonString r.version] ++
          ["  description: " ++ Text.jsonString r.description] ++ [""] ++
          documentTypeLines grammar r.documentTypes ++
          ["  # Element restrictions (derived from XSD required-child chains)"] ++
          "  elements:" :: r.elements.pairs.flatMap fun p => elementLines grammar p.1 p.2))
      [(.string "profile", .mapping r.notedPairs)] := by
  have hname : PairLines 5 2 ["  name: " ++ Text.jsonString r.name] [(.string "name", .string r.name)] :=
    pairLines_quoted (by decide) h.name isNote_nil (by simp [spaces, List.replicate])
  have hversion : PairLines 5 2 ["  version: " ++ Text.jsonString r.version]
      [(.string "version", .string r.version)] :=
    pairLines_quoted (by decide) h.version isNote_nil (by simp [spaces, List.replicate])
  have hdescription : PairLines 5 2 ["  description: " ++ Text.jsonString r.description]
      [(.string "description", .string r.description)] :=
    pairLines_quoted (by decide) h.description isNote_nil (by simp [spaces, List.replicate])
  have hentries : PairLines 4 4 (r.elements.pairs.flatMap fun p => elementLines grammar p.1 p.2)
      (mapTree r.elements ElementRule.notedTree) :=
    pairLines_map fun p hp => by
      obtain ⟨hword, e, he, hentry, hchildren, halternatives⟩ := h.entries p hp
      exact pairLines_element he hword hentry (hsketch p hp) hchildren halternatives
  have helements : PairLines 5 2 ("  elements:" :: _)
      [(.string "elements", (mapTree r.elements ElementRule.notedTree).orNull)] :=
    pairLines_section (by decide) isNote_nil (by decide) hentries (by decide) (different_mapTree ..)
  have hremark : IsRemark "  # Element restrictions (derived from XSD required-child chains)" :=
    isRemark_literal 2 (by decide)
  have hfields := (((((hname.append hversion).append hdescription).append
    (pairLines_remarks (List.forall_mem_singleton.2 isRemark_nil))).append
      (pairLines_documentTypes h.types h.declared)).append
        (pairLines_remarks (List.forall_mem_singleton.2 hremark))).append helements
  have hkeys : r.notedPairs.Different :=
    ((((((fieldsOf_field ..).append (fieldsOf_field ..)).append (fieldsOf_field ..)).append
      (fieldsOf_field ..)).append (fieldsOf_field ..)).keyed (by decide)).different
  have hpairs : [(Value.string "name", Value.string r.name)] ++
      [(.string "version", .string r.version)] ++ [(.string "description", .string r.description)] ++
      [] ++ field "documentTypes" (!r.documentTypes.isEmpty) (texts r.documentTypes) ++ [] ++
      [(.string "elements", (mapTree r.elements ElementRule.notedTree).orNull)] = r.notedPairs := by
    rw [List.append_nil, List.append_nil]
    rfl
  rw [hpairs] at hfields
  have hsection : PairLines 6 0 ("profile:" :: _) [(.string "profile", r.notedPairs.orNull)] :=
    pairLines_section (by decide) isNote_nil (by decide) hfields (by decide) hkeys
  have hne : r.notedPairs ≠ [] := List.cons_ne_nil _ _
  rwa [Pairs.orNull_of_ne_nil hne] at hsection

/-- The comments that a profile begins with. -/
theorem isRemark_head (h : Legible grammar r) : ∀ l ∈ ["# Auto-generated AKN Application Profile",
    "# Document type: " ++ r.documentTypes.headD "generic",
    "# Generated from Akoma Ntoso 3.0 XSD", ""], IsRemark l := by
  have htype : InLine (r.documentTypes.headD "generic").toList := by
    cases htypes : r.documentTypes with
    | nil => decide
    | cons dt rest => exact (h.types dt (htypes ▸ List.mem_cons_self)).inLine
  have htext : InLine (" Document type: ".toList ++ (r.documentTypes.headD "generic").toList) :=
    inLine_append.2 ⟨by decide, htype⟩
  have hdeclared : IsRemark ("# Document type: " ++ r.documentTypes.headD "generic") :=
    isRemark_comment 0 (by simp [spaces]) htext
  refine List.forall_mem_cons.2 ⟨isRemark_literal 0 (by decide), List.forall_mem_cons.2 ⟨hdeclared,
    List.forall_mem_cons.2 ⟨isRemark_literal 0 (by decide), ?_⟩⟩⟩
  exact List.forall_mem_singleton.2 isRemark_nil

/-- The lines of a whole text are read as the profile alone. -/
theorem pairLines_text (h : Legible grammar r) (hsketch : r.IsSketch) :
    PairLines 6 0 (headLines grammar r ++ r.elements.pairs.flatMap fun p => elementLines grammar p.1 p.2)
      [(.string "profile", .mapping r.notedPairs)] := by
  have hlines := (pairLines_remarks (isRemark_head h)).append (pairLines_profile h hsketch)
  unfold headLines
  simpa using hlines

theorem toList_joinLines (ls : List String) :
    (String.join (ls.map fun line => line ++ "\n")).toList = linesText ls := by
  rw [String.toList_join, linesText, fill, List.flatMap_map, List.flatMap_map]
  simp only [String.toList_append]
  rfl

end Commentary

/-- The text of a profile with comments is read as this profile. -/
theorem read_commentedText {grammar : Model} {r : Restriction} (h : Legible grammar r)
    (hsketch : r.IsSketch) : Profile.read (commentedText grammar r) =
      ⟨some r, [], LineIndex.ofText (commentedText grammar r)⟩ := by
  have hkeys : Pairs.Different [(.string "profile", .mapping r.notedPairs)] :=
    (Pairs.keyed_cons.2 ⟨List.not_mem_nil, Pairs.keyed_nil⟩).different
  have hread : Yaml.read (commentedText grammar r) =
      .ok (.mapping [(.string "profile", .mapping r.notedPairs)]) :=
    read_of_pairLines (Commentary.toList_joinLines _) (Commentary.pairLines_text h hsketch)
      (List.cons_ne_nil _ _) hkeys (by decide)
  unfold Profile.read
  rw [hread]
  exact Restriction.ofValue_of_ofTree (Restriction.ofTree_notedPairs hsketch) _

end GrammarProfile.Cascade
