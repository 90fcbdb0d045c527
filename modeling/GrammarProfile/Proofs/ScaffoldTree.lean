import GrammarProfile.Proofs.ExpandTwice
import GrammarProfile.Proofs.Scaffold
import GrammarProfile.Proofs.SessionRuns
import GrammarProfile.Proofs.Written

/-!
Scaffolds and expansions are two ways to the same profile: the tree that an expansion makes of a
profile with nothing but a document type is the one that is written for the scaffold.
-/
namespace GrammarProfile.Profile

open GrammarProfile.Yaml (Value Pairs)

theorem get?_field (name : String) (isPresent : Bool) (v : Value) (n : String) :
    Pairs.get? (field name isPresent v) n =
      if isPresent = true ∧ n = name then some v else none := by
  cases isPresent with
  | false => simp [field]
  | true => simp [field, Pairs.get?_cons_string]

namespace ElementRule

variable {rule : ElementRule} {m : String}

theorem mem_declaredIn_childrenTree (h : rule.Writable) :
    m ∈ Cascade.Tree.declaredIn rule.childrenTree ↔ m ∈ rule.childNames := by
  have hplain : m ≠ choiceKey ∧ m ∈ Pairs.names rule.childrenTree ↔ m ∈ rule.children.keys := by
    rw [childrenTree, Pairs.names_append, names_mapTree, List.mem_append]
    constructor
    · rintro ⟨hm, hin | hin⟩
      · exact hin
      · cases hchoice : rule.writesChoice with
        | false =>
            rw [hchoice] at hin
            exact absurd hin List.not_mem_nil
        | true =>
            rw [hchoice] at hin
            exact absurd (List.mem_singleton.1 hin) hm
    · exact fun hin => ⟨fun e => h.children (e ▸ hin), .inl hin⟩
  have hchoice : (∃ p ∈ rule.childrenTree, p.1.scalarText? = some choiceKey ∧
      ∃ members, p.2.pairs? = some members ∧ m ∈ Pairs.names members) ↔
        m ∈ rule.alternatives.keys := by
    constructor
    · rintro ⟨p, hp, hkey, members, hmembers, hm⟩
      rcases List.mem_append.1 hp with hp | hp
      · obtain ⟨q, hq, rfl⟩ := List.mem_map.1 hp
        have hname : q.1 = choiceKey := Option.some.inj hkey
        have hlisted : q.1 ∈ rule.children.keys := List.mem_map_of_mem hq
        exact absurd (hname ▸ hlisted) h.children
      · cases hwrites : rule.writesChoice with
        | false =>
            rw [hwrites] at hp
            exact absurd hp List.not_mem_nil
        | true =>
            rw [hwrites] at hp
            obtain rfl := List.mem_singleton.1 hp
            split at hmembers
            · cases hmembers
            · obtain rfl := Option.some.inj hmembers
              rwa [names_mapTree] at hm
    · intro hm
      have hsome : rule.alternatives.isEmpty = false := by
        cases hempty : rule.alternatives.isEmpty with
        | false => rfl
        | true =>
            rw [OrderedMap.eq_empty_of_isEmpty hempty] at hm
            exact absurd hm List.not_mem_nil
      have hwrites : rule.writesChoice = true := by simp [writesChoice, hsome]
      refine ⟨(.string choiceKey, .mapping (mapTree rule.alternatives labelTree)), ?_, rfl, _, rfl,
        (names_mapTree rule.alternatives labelTree).symm ▸ hm⟩
      rw [childrenTree, hwrites, hsome]
      exact List.mem_append_right _ List.mem_cons_self
  rw [Cascade.mem_declaredIn, hplain, hchoice, childNames, List.mem_append]

/-- What is written of a rule declares the names that the rule lists. -/
theorem mem_childReferences_toTree (h : rule.Writable) :
    m ∈ Cascade.Tree.childReferences rule.toTree ↔ m ∈ rule.childNames := by
  unfold toTree
  split
  · next hempty =>
      rw [eq_empty_of_isEmpty hempty]
      rfl
  · unfold Cascade.Tree.childReferences
    rw [Value.pairs?_mapping, Option.bind_some, Pairs.get?_append, Pairs.get?_append,
      Pairs.get?_append, get?_field, get?_field, get?_field, get?_field]
    have hother : ∀ n : String, n ≠ "children" → ∀ isPresent : Bool, ∀ v : Value,
        (if isPresent = true ∧ "children" = n then some v else none) = none :=
      fun n hn isPresent v => if_neg fun e => hn e.2.symm
    rw [hother "profileNote" (by decide), hother "attributes" (by decide),
      hother "structure" (by decide), Option.none_or, Option.none_or, Option.or_none]
    by_cases hpresent : (!rule.children.isEmpty || rule.writesChoice) = true
    · rw [if_pos ⟨hpresent, rfl⟩]
      exact mem_declaredIn_childrenTree h
    · rw [if_neg fun e => hpresent e.1]
      obtain ⟨hchildren, hwrites⟩ := Bool.or_eq_false_iff.1 (Bool.eq_false_iff.2 hpresent)
      have halternatives := (Bool.or_eq_false_iff.1 hwrites).2
      rw [Bool.not_eq_false'] at hchildren halternatives
      rw [childNames, OrderedMap.eq_empty_of_isEmpty hchildren,
        OrderedMap.eq_empty_of_isEmpty halternatives]
      rfl

end ElementRule

end GrammarProfile.Profile

namespace GrammarProfile.Cascade

open GrammarProfile.Grammar (Attribute Child Count Element Model Regular)
open GrammarProfile.Profile
open GrammarProfile.Yaml (Value Pairs)

/-! ## New entries -/

section Entries

variable {name : String} {additions : List (String × Value)} {fields pairs : Pairs} {e : Element}

theorem addMissing_of_new (hnames : (additions.map Prod.fst).Nodup)
    (hnew : ∀ p ∈ additions, Pairs.get? pairs p.1 = none) :
    addMissing additions pairs = pairs ++ additions.map fun p => (.string p.1, p.2) := by
  induction additions generalizing pairs with
  | nil => exact (List.append_nil _).symm
  | cons p rest ih =>
      obtain ⟨n, v⟩ := p
      obtain ⟨hn, hrest⟩ := List.nodup_cons.1 hnames
      have habsent := Pairs.contains_eq_false_iff.2 (hnew _ List.mem_cons_self)
      rw [addMissing_cons, if_neg (Bool.eq_false_iff.1 habsent), ih hrest, List.append_assoc]
      · rfl
      · intro q hq
        have hmem : q.1 ∈ rest.map Prod.fst := List.mem_map_of_mem hq
        have hne : q.1 ≠ n := fun e => hn (e ▸ hmem)
        rw [Pairs.get?_append, hnew q (List.mem_cons_of_mem _ hq), Pairs.get?_cons_string,
          if_neg hne]
        rfl

theorem set_of_new {v : Value} (h : Pairs.get? pairs name = none) :
    Pairs.set name v pairs = pairs ++ [(.string name, v)] := by
  induction pairs with
  | nil => rfl
  | cons p rest ih =>
      obtain ⟨key, w⟩ := p
      rw [Pairs.get?_cons] at h
      split at h
      · cases h
      · next hkey => rw [Pairs.set, if_neg hkey, ih h, List.cons_append]

/-- A section that is missing is written with what is added. -/
theorem addToSection_of_new (hkeyed : fields.Keyed) (hnew : Pairs.get? fields name = none)
    (hnames : (additions.map Prod.fst).Nodup) : addToSection name additions fields =
      fields ++ field name (!additions.isEmpty)
        (.mapping (additions.map fun p => (.string p.1, p.2))) := by
  by_cases hnone : additions = []
  · subst hnone
    exact (List.append_nil _).symm
  · have hsection : IsSection (Pairs.get? fields name) [] := hnew ▸ .missing
    have hpresent : (!additions.isEmpty) = true := by simpa using hnone
    rw [addToSection_eq_set hkeyed hsection hnone, set_of_new hnew, addMissing_of_new hnames (by simp),
      hpresent]
    rfl

theorem requiredAttribute_eq_toTree (a : Attribute) :
    requiredAttribute a = AttributeRule.toTree ⟨true, a.enumValues.getD []⟩ := by
  unfold requiredAttribute AttributeRule.toTree
  cases a.enumValues with
  | none => rfl
  | some values => cases values <;> rfl

theorem mapTree_scaffoldAttributes (h : Regular name e) :
    mapTree (scaffoldAttributes .standard e) AttributeRule.toTree =
      (neededAttributes .standard e).map fun p => (.string p.1, p.2) := by
  have hnodup : ((e.attributes.filter fun a =>
      a.required || ScaffoldOptions.standard.optionalAttributes).map Attribute.name).Nodup :=
    h.attributes.sublist (List.filter_sublist.map _)
  have hrequired : (e.attributes.filter fun a =>
      a.required || ScaffoldOptions.standard.optionalAttributes) =
        e.attributes.filter (·.required) := List.filter_congr fun a _ => Bool.or_false _
  have hneeded : neededAttributes .standard e =
      (e.attributes.filter (·.required)).map fun a => (a.name, requiredAttribute a) :=
    List.append_nil _
  rw [mapTree, scaffoldAttributes, OrderedMap.pairs_ofList_map hnodup, hrequired, hneeded,
    List.map_map, List.map_map]
  refine List.map_congr_left fun a ha => ?_
  rw [Function.comp_apply, Function.comp_apply, requiredAttribute_eq_toTree,
    (List.mem_filter.1 ha).2]

theorem mapTree_requiredChildren (h : Regular name e) :
    mapTree (scaffoldRule .standard e).children labelTree =
      (neededChildren e).map fun p => (.string p.1, p.2) := by
  have hnodup : ((e.children.filter Child.required).map Child.name).Nodup :=
    h.children.sublist (List.filter_sublist.map _)
  have hpairs : (scaffoldRule .standard e).children.pairs =
      (e.children.filter Child.required).map fun c => (c.name, some c.cardinality) :=
    OrderedMap.pairs_ofList_map hnodup _
  rw [mapTree, hpairs, neededChildren, List.map_map, List.map_map]
  rfl

theorem isEmpty_of_mapTree {α : Type} {m : OrderedMap α} {value : α → Value}
    {needed : List (String × Value)}
    (h : mapTree m value = needed.map fun p => (.string p.1, p.2)) :
    m.isEmpty = needed.isEmpty := by
  have hempty := congrArg List.isEmpty h
  rwa [mapTree, List.isEmpty_map, List.isEmpty_map] at hempty

theorem nodup_of_mapTree {α : Type} {m : OrderedMap α} {value : α → Value}
    {needed : List (String × Value)}
    (h : mapTree m value = needed.map fun p => (.string p.1, p.2)) :
    (needed.map Prod.fst).Nodup := by
  have hnames : m.keys = needed.map Prod.fst := by
    rw [← names_mapTree m value, h, Pairs.names, List.filterMap_map, ← List.filterMap_eq_map]
    rfl
  exact hnames ▸ m.keys_nodup

theorem keyed_field (name : String) (isPresent : Bool) (v : Value) :
    Pairs.Keyed (field name isPresent v) := by
  cases isPresent with
  | false => exact Pairs.keyed_nil
  | true => exact Pairs.keyed_cons.2 ⟨List.not_mem_nil, Pairs.keyed_nil⟩

/-- What is added to no fields at all, with the attributes first. -/
theorem addToSection_attributes_children {attributes children : List (String × Value)}
    (hattributes : (attributes.map Prod.fst).Nodup) (hchildren : (children.map Prod.fst).Nodup) :
    addToSection "children" children (addToSection "attributes" attributes []) =
      field "attributes" (!attributes.isEmpty)
          (.mapping (attributes.map fun p => (.string p.1, p.2))) ++
        field "children" (!children.isEmpty)
          (.mapping (children.map fun p => (.string p.1, p.2))) := by
  rw [addToSection_of_new Pairs.keyed_nil rfl hattributes, List.nil_append,
    addToSection_of_new (keyed_field ..) ?_ hchildren]
  rw [get?_field]
  exact if_neg fun e => absurd e.2 (by decide)

/-- A new entry is the one that is written for an element of a scaffold. -/
theorem completeEntry_null (h : Regular name e) :
    completeEntry .standard e .null = (scaffoldRule .standard e).toTree := by
  have hattributes := mapTree_scaffoldAttributes h
  have hchildren := mapTree_requiredChildren h
  have hnoAttributes := isEmpty_of_mapTree hattributes
  have hnoChildren := isEmpty_of_mapTree hchildren
  have hempty : (scaffoldRule .standard e).isEmpty =
      ((neededAttributes .standard e).isEmpty && (neededChildren e).isEmpty) := by
    rw [← hnoAttributes, ← hnoChildren]
    have hrule : (scaffoldRule .standard e).isEmpty =
        (true && (scaffoldAttributes .standard e).isEmpty &&
          (scaffoldRule .standard e).children.isEmpty && true && true && true) := rfl
    rw [hrule, Bool.and_true, Bool.and_true, Bool.and_true, Bool.true_and]
  have htree : (scaffoldRule .standard e).toTree = if (scaffoldRule .standard e).isEmpty then .null
      else .mapping (([] ++ field "attributes" (!(scaffoldAttributes .standard e).isEmpty)
          (.mapping (mapTree (scaffoldAttributes .standard e) AttributeRule.toTree)) ++
        field "children" (!(scaffoldRule .standard e).children.isEmpty || false)
          (.mapping (mapTree (scaffoldRule .standard e).children labelTree ++ []))) ++ []) := rfl
  rw [htree, hempty, hnoAttributes, hnoChildren, hattributes, hchildren, Bool.or_false,
    List.append_nil, List.append_nil, List.nil_append,
    ← addToSection_attributes_children (nodup_of_mapTree hattributes) (nodup_of_mapTree hchildren)]
  unfold completeEntry
  dsimp only
  split <;> rfl

end Entries

/-! ## All entries -/

section Elements

variable {grammar : Model} {dt root n : String} {e : Element} {entries : Pairs} {r : Restriction}

theorem pairs_ordered (grammar : Model) (r : Restriction) :
    (ordered grammar r).elements.pairs = (profileOrder grammar r).filterMap fun name =>
      (r.elements.get? name).map fun rule => (name, rule) := by
  have hperm := arrangement_perm grammar.root (r.elements.pairs.map fun p => (p.1, p.2.childNames))
  have hnodup : (profileOrder grammar r).Nodup := hperm.nodup_iff.2 (Text.nodup_nameSet _)
  exact OrderedMap.pairs_ofList_filterMap hnodup _

/-- Both ways to put entries into order agree on what is written of rules. -/
theorem orderElements_eq_mapTree (h : entries.Keyed) (hwritable : r.Writable)
    (hget : ∀ n, Pairs.get? entries n = (r.elements.get? n).map ElementRule.toTree) :
    orderElements grammar entries = mapTree (ordered grammar r).elements ElementRule.toTree := by
  have horder : elementOrder grammar entries = profileOrder grammar r := by
    refine arrangement_congr grammar.root (fun n => ?_) fun a b => ?_
    · rw [map_fst_references, h.mem_names_iff, ← Option.isSome_iff_exists, hget, Option.isSome_map,
        OrderedMap.get?_isSome, List.map_map]
      rfl
    · simp only [mem_references_iff h, hget, Option.map_eq_some_iff, List.mem_map, Prod.mk.injEq]
      constructor
      · rintro ⟨_, ⟨_, ⟨rule, hrule, rfl⟩, rfl⟩, hb⟩
        have hmem := OrderedMap.get?_eq_some_iff.1 hrule
        exact ⟨_, ⟨(a, rule), hmem, rfl, rfl⟩,
          (ElementRule.mem_childReferences_toTree (hwritable _ hmem)).1 hb⟩
      · rintro ⟨_, ⟨⟨_, rule⟩, hmem, rfl, rfl⟩, hb⟩
        exact ⟨_, ⟨_, ⟨rule, OrderedMap.get?_eq_some_iff.2 hmem, rfl⟩, rfl⟩,
          (ElementRule.mem_childReferences_toTree (hwritable _ hmem)).2 hb⟩
  rw [orderElements_eq grammar h, horder, mapTree, pairs_ordered, List.map_filterMap]
  refine List.filterMap_congr fun n _ => ?_
  rw [hget, Option.map_map, Option.map_map]
  rfl

theorem scaffoldRoot_toTree (hattributes : e.attributes.filter (·.required) = []) :
    (scaffoldRoot .standard dt e).toTree =
      entryValue (addToSection "children" (typesListed [dt]) []) := by
  have hnone : scaffoldAttributes .standard e = ∅ := by
    have hfilter : (e.attributes.filter fun a =>
        a.required || ScaffoldOptions.standard.optionalAttributes) = [] :=
      (List.filter_congr fun a _ => Bool.or_false _).trans hattributes
    rw [scaffoldAttributes, hfilter]
    rfl
  rw [scaffoldRoot, hnone]
  rfl

/-- The entries after an expansion of nothing are those of the scaffold. -/
theorem get?_ensureRoot_completed (hregular : ∀ n e, grammar.element? n = some e → Regular n e)
    (hroot : grammar.root = some root) (he : grammar.element? root = some e)
    (hattributes : e.attributes.filter (·.required) = [])
    (hdt : grammar.hasElement dt = true) (hout : root ∉ grammar.requiredClosure dt) (n : String) :
    Pairs.get? (ensureRoot grammar [dt] (completedEntries grammar .standard dt [])) n =
      ((scaffoldElements grammar .standard dt).get? n).map ElementRule.toTree := by
  rw [get?_scaffoldElements hroot he (hregular root e he).xmlName]
  by_cases hn : n = root
  · subst hn
    have hmissing : IsSection
        (Pairs.get? (completedEntries grammar .standard dt []) n) [] := by
      rw [get?_completedEntries, if_neg hout]
      exact .missing
    have hpresent : [dt].filter (Pairs.contains (completedEntries grammar .standard dt [])) =
        [dt] := by
      refine List.filter_eq_self.2 fun m hm => ?_
      obtain rfl := List.mem_singleton.1 hm
      exact contains_completedEntries.2 (.inr (Model.mem_requiredClosure_iff.2 ⟨hdt, .refl⟩))
    rw [ensureRoot_eq [dt] hroot hmissing, get?_cons_erase, if_pos rfl, hpresent, if_pos rfl,
      Option.map_some, scaffoldRoot_toTree hattributes]
    rfl
  · have hne : grammar.root ≠ some n := fun hisRoot =>
      hn (Option.some.inj (hisRoot.symm.trans hroot))
    rw [get?_ensureRoot hne, get?_completedEntries, if_neg hn]
    split
    · rw [completedAt, Option.map_map]
      cases hd : grammar.element? n with
      | none => rfl
      | some d => exact congrArg some (completeEntry_null (hregular n d hd))
    · rfl

theorem expandElements_nil (hregular : ∀ n e, grammar.element? n = some e → Regular n e)
    (hroot : grammar.root = some root) (he : grammar.element? root = some e)
    (hattributes : e.attributes.filter (·.required) = [])
    (hdt : grammar.hasElement dt = true) (hout : root ∉ grammar.requiredClosure dt)
    (helements : r.elements = scaffoldElements grammar .standard dt) (hwritable : r.Writable) :
    expandElements grammar .standard dt [dt] [] =
      mapTree (ordered grammar r).elements ElementRule.toTree := by
  rw [expandElements_eq]
  refine orderElements_eq_mapTree (keyed_ensureRoot (keyed_completedEntries Pairs.keyed_nil))
    hwritable fun n => ?_
  rw [helements]
  exact get?_ensureRoot_completed hregular hroot he hattributes hdt hout n

/-- No element that the document type requires has a required child with the reserved name. -/
def NoRequiredChoice (grammar : Model) (dt : String) : Prop :=
  ∀ n ∈ grammar.requiredClosure dt, ¬grammar.Requires n choiceKey

theorem Scaffolded.writable (h : Scaffolded grammar root dt e r)
    (hregular : ∀ n e, grammar.element? n = some e → Regular n e) (hname : dt ≠ choiceKey)
    (hnone : NoRequiredChoice grammar dt) : r.Writable := by
  rintro ⟨n, rule⟩ hmem
  rcases h.entry_cases hmem with ⟨rfl, rfl⟩ | ⟨_, hreach, e', he', rfl⟩
  · refine ⟨fun hin => hname ?_, fun hsome => nomatch hsome⟩
    rw [keys_scaffoldRoot, List.mem_singleton] at hin
    exact hin.symm
  · refine ⟨fun hin => ?_, fun hsome => nomatch hsome⟩
    exact hnone n (Model.mem_requiredClosure_iff.2 ⟨Model.hasElement_iff.2 ⟨e', he'⟩, hreach⟩)
      ((mem_keys_scaffoldRule (hregular n e' he') he').1 hin)

/-- A new entry lists a required child as a label, and under the reserved name that is a flaw. -/
theorem flaws_completeEntry_choice (he : grammar.element? n = some e)
    (hrequires : grammar.Requires n choiceKey) :
    (readEntry n (completeEntry .standard e .null)).flaws ≠ [] := by
  have hcompletes := completes_completeEntry .standard e
    (⟨.missing, ⟨[], .missing⟩, ⟨[], .missing⟩⟩ : Sectioned none [])
  obtain ⟨fields, hfields, htakes⟩ := hcompletes.takes .missing
  obtain ⟨children, hchildren, hget⟩ := htakes.children.exists_section .missing
  obtain ⟨d, hd, hmin, hdname⟩ := hrequires
  rw [Model.children_eq he] at hd
  have hfound : (e.children.find? fun c => c.name == choiceKey && c.required).isSome = true := by
    rw [List.find?_isSome]
    exact ⟨d, hd, by simp [hdname, Child.required, hmin]⟩
  obtain ⟨c, hc⟩ := Option.isSome_iff_exists.1 hfound
  have hlabel : Pairs.get? children choiceKey = some (.string c.cardinality) := by
    rw [hget, wantedChild, hc]
    rfl
  exact flaws_of_label hfields hchildren hlabel

end Elements

/-! ## Profiles -/

section Profiles

variable {grammar : Model} {dt root : String} {e : Element} {r : Restriction} {top : Pairs}

/-- The pairs of a profile with nothing but a document type. -/
def typeOnly (dt : String) : Pairs := [(.string "documentTypes", .sequence [.string dt])]

theorem keyed_typeOnly : (typeOnly dt).Keyed :=
  Pairs.keyed_cons.2 ⟨List.not_mem_nil, Pairs.keyed_nil⟩

theorem expandTree_typeOnly (hdifferent : top.Different)
    (hprofile : Pairs.get? top "profile" = some (.mapping (typeOnly dt))) :
    expandTree grammar .standard dt (.mapping top) = withEntries top (typeOnly dt)
      (expandElements grammar .standard dt [dt] []) := by
  have htypes : Tree.documentTypes (.mapping top) = [dt] := by
    unfold Tree.documentTypes Tree.profile?
    rw [Value.pairs?_mapping, Option.bind_some, hprofile]
    rfl
  unfold expandTree Tree.editElements
  rw [htypes, Value.editPairs, Pairs.update_eq_set hprofile (hdifferent.not_isKey "profile")]
  rfl

variable (dt) in
theorem ofTree_typeOnly {elements : OrderedMap ElementRule}
    (h : ∀ p ∈ elements.pairs, p.2.Writable) :
    Restriction.ofTree (Pairs.set "elements" (.mapping (mapTree elements ElementRule.toTree))
      (typeOnly dt)) = pure ⟨"", "", "", [dt], elements⟩ :=
  Shape.foldPairs_elements (Shape.foldMapping_elements h) ⟨"", "", "", [dt], ∅⟩

theorem expand_typeOnly {text : String} (hread : Yaml.read text = .ok (.mapping top))
    (hprofile : Pairs.get? top "profile" = some (.mapping (typeOnly dt)))
    (hdt : grammar.hasElement dt = true) : expand grammar .standard dt text =
      .ok (Tree.render (expandTree grammar .standard dt (.mapping top))) := by
  have hbelow : Tree.profile? (.mapping top) = some (typeOnly dt) := by
    unfold Tree.profile?
    rw [Value.pairs?_mapping, Option.bind_some, hprofile]
  have hknown : ¬(!grammar.hasElement dt) = true := by rw [hdt]; decide
  unfold expand editText
  rw [if_neg hknown, hread]
  dsimp only
  rw [hbelow]
  rfl

theorem get?_profile_withEntries (top fields entries : Pairs) :
    Pairs.get? (Pairs.set "profile" (.mapping (Pairs.set "elements" (.mapping entries) fields)) top)
      "profile" = some (.mapping (Pairs.set "elements" (.mapping entries) fields)) :=
  (Pairs.get?_set ..).trans (if_pos rfl)

/-- What is read of the expanded tree is the scaffold. -/
theorem ofValue_of_scaffold {elements : OrderedMap ElementRule}
    (h : ∀ p ∈ elements.pairs, p.2.Writable) (index : LineIndex) :
    Reading.ofValue index
        (withEntries top (typeOnly dt) (mapTree elements ElementRule.toTree)) =
      ⟨some ⟨"", "", "", [dt], elements⟩, [], index⟩ := by
  have htree := ofTree_typeOnly dt h
  have hflaws := congrArg Shaped.flaws htree
  have hvalue := @ofValue_eq_of_tree index _ _
    (get?_profile_withEntries top (typeOnly dt) (mapTree elements ElementRule.toTree)) hflaws
  rw [htree] at hvalue
  exact hvalue

variable (top) in
/-- A required child with the reserved name makes the expanded tree unreadable. -/
theorem profile_ofValue_of_requires {n : String} (hn : n ∈ grammar.requiredClosure dt)
    (hroot : grammar.root ≠ some n) (hrequires : grammar.Requires n choiceKey) (index : LineIndex) :
    (Reading.ofValue index (withEntries top (typeOnly dt)
      (expandElements grammar .standard dt [dt] []))).profile = none := by
  obtain ⟨d, hd⟩ := Model.hasElement_iff.1 (Model.mem_requiredClosure_iff.1 hn).1
  have hget : Pairs.get? (expandElements grammar .standard dt [dt] []) n =
      some (completeEntry .standard d .null) := by
    rw [get?_expandElements Pairs.keyed_nil hroot, if_pos hn, completedAt, hd]
    rfl
  have hkeyed : (expandElements grammar .standard dt [dt] []).Keyed :=
    keyed_expandElements Pairs.keyed_nil
  refine profile_ofValue_of_flaws (get?_profile_withEntries ..) fun hflaws => ?_
  exact flaws_completeEntry_choice hd hrequires
    ((flaws_ofTree_set keyed_typeOnly rfl hkeyed).1 hflaws n _ hget)

end Profiles

/-- For every document type of a loaded grammar that is an element without a reserved name: where
the root has no required attributes and is not required itself, what is read of the tree that an
expansion of nothing but the document type leaves is the scaffold, in its order, exactly if no
element that is required has a required child with the reserved name. -/
theorem expansion_is_scaffold_iff {root? : Option String} {source : String} {grammar : Model}
    {dt : String} (hload : Model.load root? source = .ok grammar)
    (hchoice : grammar.hasElement choiceKey = false) (hdt : dt ∈ grammar.documentTypes)
    (helement : grammar.hasElement dt = true)
    (hroot : ∀ root ∈ grammar.root, grammar.requiredAttributes root = [] ∧
      root ∉ grammar.requiredClosure dt) :
    ∃ r, scaffold grammar .standard dt = .ok r ∧ ∀ text top,
      Yaml.read text = .ok (.mapping top) →
      Pairs.get? top "profile" = some (.mapping (typeOnly dt)) →
        expand grammar .standard dt text =
          .ok (Tree.render (expandTree grammar .standard dt (.mapping top))) ∧
        ∀ index, Reading.ofValue index (expandTree grammar .standard dt (.mapping top)) =
          ⟨some ⟨"", "", "", [dt], r.elements⟩, [], index⟩ ↔ NoRequiredChoice grammar dt := by
  have hregular := Model.regular_of_load hload
  have hentry : ∀ n e, grammar.element? n = some e → Regular n e :=
    fun n e he => hregular _ (OrderedMap.get?_eq_some_iff.1 he)
  obtain ⟨root, e, _, -, hisRoot, he, -, -⟩ := exists_scaffolded hregular hdt
  obtain ⟨r, hr, htypes, helements⟩ := scaffold_eq_ordered .standard hdt
  obtain ⟨hattributes, hout⟩ := hroot root hisRoot
  rw [Model.requiredAttributes, Model.attributes, he] at hattributes
  have hentries : Scaffolded grammar root dt e r := ⟨hisRoot, he, htypes, fun n => by
    rw [helements, get?_scaffoldElements hisRoot he (hentry root e he).xmlName]⟩
  have hname : dt ≠ choiceKey := by
    rintro rfl
    rw [helement] at hchoice
    cases hchoice
  refine ⟨_, hr, fun text top hread hprofile => ⟨expand_typeOnly hread hprofile helement, ?_⟩⟩
  have hdifferent := (Yaml.distinct_of_read hread).pairs? rfl
  rw [expandTree_typeOnly hdifferent.1 hprofile]
  refine fun index => ⟨fun haccepted n hn hrequires => ?_, fun hnone => ?_⟩
  · have hne : grammar.root ≠ some n := fun hsame =>
      hout (Option.some.inj (hisRoot.symm.trans hsame) ▸ hn)
    have hrejected := profile_ofValue_of_requires top hn hne hrequires index
    rw [haccepted] at hrejected
    cases hrejected
  · have hwritable := hentries.writable hentry hname hnone
    have hordered : (ordered grammar r).Writable := by
      rintro ⟨n, rule⟩ hmem
      have hget := OrderedMap.get?_eq_some_iff.2 hmem
      rw [get?_ordered] at hget
      exact hwritable (n, rule) (OrderedMap.get?_eq_some_iff.1 hget)
    rw [expandElements_nil hentry hisRoot he hattributes helement hout helements hwritable]
    exact ofValue_of_scaffold hordered index

/-- A profile of texts with nothing else in it. -/
def textProfile : String := "profile: \x7bdocumentTypes: [text]\x7d"

def textRoot : Pairs := [(.string "profile", .mapping (typeOnly "text"))]

theorem read_textProfile : Yaml.read textProfile = .ok (.mapping textRoot) :=
  Value.read_eq_ok rfl (by decide +kernel)

theorem expansion_of_text : Model.load none bookSchema = .ok bookModel ∧
    Yaml.read textProfile = .ok (.mapping textRoot) ∧
    ∃ r, scaffold bookModel .standard "text" = .ok r ∧ ∀ index,
      Reading.ofValue index (expandTree bookModel .standard "text" (.mapping textRoot)) =
        ⟨some ⟨"", "", "", ["text"], r.elements⟩, [], index⟩ := by
  have hroot : ∀ root ∈ bookModel.root, bookModel.requiredAttributes root = [] ∧
      root ∉ bookModel.requiredClosure "text" := by decide
  obtain ⟨r, hr, hall⟩ := @expansion_is_scaffold_iff none bookSchema bookModel "text"
    load_bookSchema (by decide) (by decide) (by decide) hroot
  have hnone : NoRequiredChoice bookModel "text" := by
    have hnames : ∀ e ∈ bookModel.elements.values, ∀ c ∈ e.children, c.name ≠ choiceKey := by
      decide
    rintro n hn ⟨c, hc, -, hname⟩
    obtain ⟨e, he⟩ := Model.hasElement_iff.1 (Model.mem_requiredClosure_iff.1 hn).1
    rw [Model.children_eq he] at hc
    exact hnames e (OrderedMap.mem_values_of_get? he) c hc hname
  exact ⟨load_bookSchema, read_textProfile, r, hr, fun index =>
    ((hall _ _ read_textProfile rfl).2 index).2 hnone⟩

/-- A text requires an element that has the reserved name and is not declared. -/
def danglingSchema : String :=
  "<xs:schema xmlns:xs='http://www.w3.org/2001/XMLSchema'>
  <xs:element name='book'><xs:complexType><xs:sequence>
    <xs:element ref='text'/>
  </xs:sequence></xs:complexType></xs:element>
  <xs:element name='text'><xs:complexType><xs:sequence>
    <xs:element ref='choice'/>
  </xs:sequence></xs:complexType></xs:element>
</xs:schema>"

def danglingModel : Model where
  elements := ⟨[
    ("book", plainElement "book" "Book" [⟨"text", Count.one, some Count.one, []⟩]),
    ("text", plainElement "text" "Text" [⟨"choice", Count.one, some Count.one, []⟩])], by decide⟩
  enums := ∅
  root := some "book"

set_option maxRecDepth 10000 in
theorem load_danglingSchema : Model.load none danglingSchema = .ok danglingModel := by
  obtain ⟨cs, hcs, hm⟩ : ∃ cs, danglingSchema = String.ofList cs ∧
      Model.unsorted? cs = some danglingModel := ⟨_, rfl, by decide +kernel⟩
  rw [hcs]
  exact Model.load_eq_ok hm (by decide) List.Pairwise.nil

theorem expansion_of_dangling_child : Model.load none danglingSchema = .ok danglingModel ∧
    danglingModel.hasElement choiceKey = false ∧ "text" ∈ danglingModel.documentTypes ∧
    danglingModel.hasElement "text" = true ∧
    (∀ root ∈ danglingModel.root, danglingModel.requiredAttributes root = [] ∧
      root ∉ danglingModel.requiredClosure "text") ∧
    Yaml.read textProfile = .ok (.mapping textRoot) ∧
    Pairs.get? textRoot "profile" = some (.mapping (typeOnly "text")) ∧
    ∃ r, scaffold danglingModel .standard "text" = .ok r ∧ ∀ index,
      (Reading.ofValue index
        (expandTree danglingModel .standard "text" (.mapping textRoot))).profile = none := by
  have hdt : "text" ∈ danglingModel.documentTypes := by decide
  obtain ⟨r, hr, -⟩ := scaffold_eq_ordered .standard hdt
  refine ⟨load_danglingSchema, by decide, hdt, by decide, by decide, read_textProfile, rfl, _, hr,
    fun index => ?_⟩
  have hdifferent := (Yaml.distinct_of_read read_textProfile).pairs? rfl
  rw [expandTree_typeOnly hdifferent.1 rfl]
  exact profile_ofValue_of_requires textRoot (n := "text") (by decide) (by decide)
    ⟨⟨"choice", Count.one, some Count.one, []⟩, by decide, by decide, rfl⟩ index

end GrammarProfile.Cascade
