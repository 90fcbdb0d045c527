import GrammarProfile.Cascade.Scaffold
import GrammarProfile.Proofs.Arrangement
import GrammarProfile.Proofs.Labels
import GrammarProfile.Proofs.Loaded
import GrammarProfile.Proofs.OpenChoices

/-!
What a scaffold lists, and when validation finds nothing in it but open choices.
-/
namespace GrammarProfile

theorem OrderedMap.pairs_ofList_filterMap {α : Type} {names : List String} (h : names.Nodup)
    (f : String → Option α) :
    (OrderedMap.ofList (names.filterMap fun k => (f k).map fun v => (k, v))).pairs =
      names.filterMap fun k => (f k).map fun v => (k, v) := by
  apply OrderedMap.pairs_ofList
  have hsame : ((names.filterMap fun k => (f k).map fun v => (k, v)).map Prod.fst) =
      names.filter fun k => (f k).isSome := by
    rw [List.map_filterMap, ← List.filterMap_eq_filter]
    refine List.filterMap_congr fun k _ => ?_
    cases hf : f k <;> simp [Option.guard, hf]
  rw [hsame]
  exact h.filter _

theorem OrderedMap.get?_ofList_filterMap {α : Type} {names : List String} (h : names.Nodup)
    (f : String → Option α) (n : String) :
    (OrderedMap.ofList (names.filterMap fun k => (f k).map fun v => (k, v))).get? n =
      if n ∈ names then f n else none := by
  ext v
  rw [OrderedMap.get?_eq_some_iff, OrderedMap.pairs_ofList_filterMap h, List.mem_filterMap]
  constructor
  · rintro ⟨k, hk, hv⟩
    obtain ⟨w, hw, hpair⟩ := Option.map_eq_some_iff.1 hv
    obtain ⟨rfl, rfl⟩ := Prod.mk.inj hpair
    rw [if_pos hk, hw]
  · intro hv
    obtain ⟨hn, hv⟩ := (Option.ite_none_right_eq_some).1 hv
    exact ⟨n, hn, by rw [hv]; rfl⟩

theorem OrderedMap.pairs_ofList_map {α β : Type} {items : List β} {key : β → String}
    (h : (items.map key).Nodup) (value : β → α) :
    (OrderedMap.ofList (items.map fun b => (key b, value b))).pairs =
      items.map fun b => (key b, value b) := by
  apply OrderedMap.pairs_ofList
  rw [List.map_map]
  exact h

namespace Cascade

open GrammarProfile.Grammar (Attribute Child ChoiceGroup Count Element Model Occurs Regular)
open GrammarProfile.Profile
open GrammarProfile.Validation
open Relation (ReflTransGen)

/-! ## The entries of a scaffold -/

theorem get?_ordered (grammar : Model) (r : Restriction) (n : String) :
    (ordered grammar r).elements.get? n = r.elements.get? n := by
  have hperm := arrangement_perm grammar.root
    (r.elements.pairs.map fun p => (p.1, p.2.childNames))
  have hmem : ∀ k, k ∈ profileOrder grammar r ↔ k ∈ r.elements.keys := by
    intro k
    rw [profileOrder, hperm.mem_iff, Text.mem_nameSet, List.map_map]
    rfl
  have hnodup : (profileOrder grammar r).Nodup := hperm.nodup_iff.2 (Text.nodup_nameSet _)
  rw [ordered, OrderedMap.get?_ofList_filterMap hnodup]
  split
  · rfl
  · next h =>
    rw [hmem] at h
    exact (OrderedMap.get?_eq_none_iff.2 h).symm

theorem mem_ordered {r : Restriction} {p : String × ElementRule} :
    p ∈ (ordered grammar r).elements.pairs ↔ p ∈ r.elements.pairs :=
  OrderedMap.Agrees.mem_pairs_iff (get?_ordered grammar r)

section Entries

variable {grammar : Model} {root dt : String} {e : Element}

/-- Beside the root, a scaffold has entries for what the document type requires. -/
theorem get?_scaffoldElements (hroot : grammar.root = some root)
    (he : grammar.element? root = some e) (hname : e.xmlName = root) (o : ScaffoldOptions)
    (n : String) : (scaffoldElements grammar o dt).get? n =
      if n = root then some (scaffoldRoot o dt e)
      else if n ∈ grammar.requiredClosure dt then (grammar.element? n).map (scaffoldRule o)
      else none := by
  have hlookup : (grammar.root.bind grammar.element?) = some e := by
    rw [hroot, Option.bind_some, he]
  unfold scaffoldElements
  simp only [hlookup]
  rw [OrderedMap.get?_insert, hname]
  refine if_congr Iff.rfl rfl ?_
  have hmaps : ∀ k, ((grammar.element? k).map fun e => (k, scaffoldRule o e)) =
      ((grammar.element? k).map (scaffoldRule o)).map fun v => (k, v) := by
    intro k
    rw [Option.map_map]
    rfl
  simp only [hmaps]
  exact OrderedMap.get?_ofList_filterMap (grammar.requiredClosure_nodup dt) _ n

/-- The entries of a scaffold are those of the root and of what the document type requires. -/
theorem scaffoldElements_cases {o : ScaffoldOptions} (hroot : grammar.root = some root)
    (he : grammar.element? root = some e) (hname : e.xmlName = root) {n : String} {rule : ElementRule}
    (h : (n, rule) ∈ (scaffoldElements grammar o dt).pairs) :
    (n = root ∧ rule = scaffoldRoot o dt e) ∨ n ∈ grammar.requiredClosure dt ∧
      ∃ d, grammar.element? n = some d ∧ rule = scaffoldRule o d := by
  have hget := OrderedMap.get?_eq_some_iff.2 h
  rw [get?_scaffoldElements hroot he hname] at hget
  split at hget
  · next hn => exact .inl ⟨hn, (Option.some.inj hget).symm⟩
  · split at hget
    · next hn =>
      obtain ⟨d, hd, hrule⟩ := Option.map_eq_some_iff.1 hget
      exact .inr ⟨hn, d, hd, hrule.symm⟩
    · cases hget

/-- A scaffold before its entries are in order. -/
def outline (grammar : Model) (o : ScaffoldOptions) (dt : String) : Restriction where
  name := "Minimum viable profile (" ++ dt ++ ")"
  version := "1.0"
  description := "Minimum viable application profile for the " ++ dt ++ " document type."
  documentTypes := [dt]
  elements := scaffoldElements grammar o dt

theorem scaffold_eq_outline (o : ScaffoldOptions) (hdt : dt ∈ grammar.documentTypes) :
    scaffold grammar o dt = .ok (ordered grammar (outline grammar o dt)) := by
  have hknown : grammar.isDocumentType dt = true := by
    rw [Model.isDocumentType]
    exact List.contains_iff_mem.2 hdt
  unfold scaffold
  rw [hknown]
  rfl

theorem scaffold_eq_ordered (o : ScaffoldOptions) (hdt : dt ∈ grammar.documentTypes) :
    ∃ r, scaffold grammar o dt = .ok (ordered grammar r) ∧ r.documentTypes = [dt] ∧
      r.elements = scaffoldElements grammar o dt :=
  ⟨outline grammar o dt, scaffold_eq_outline o hdt, rfl, rfl⟩

theorem scaffold_eq_ok (o : ScaffoldOptions) (hdt : dt ∈ grammar.documentTypes) :
    ∃ r, scaffold grammar o dt = .ok r ∧ r.documentTypes = [dt] ∧
      ∀ n, r.elements.get? n = (scaffoldElements grammar o dt).get? n := by
  obtain ⟨r, hr, htypes, helements⟩ := scaffold_eq_ordered o hdt
  exact ⟨_, hr, htypes, fun n => helements ▸ get?_ordered grammar r n⟩

theorem mem_scaffoldAttributes (h : (e.attributes.map Attribute.name).Nodup) {a : String}
    {r : AttributeRule} : (a, r) ∈ (scaffoldAttributes .standard e).pairs ↔
      ∃ d ∈ e.attributes, d.required = true ∧ d.name = a ∧ ⟨true, d.enumValues.getD []⟩ = r := by
  have hnodup : ((e.attributes.filter fun d =>
      d.required || ScaffoldOptions.standard.optionalAttributes).map Attribute.name).Nodup :=
    h.sublist (List.filter_sublist.map _)
  rw [scaffoldAttributes, OrderedMap.pairs_ofList_map hnodup]
  simp only [List.mem_map, List.mem_filter, ScaffoldOptions.standard, Bool.or_false, Prod.mk.injEq]
  constructor
  · rintro ⟨d, ⟨hd, hrequired⟩, rfl, rfl⟩
    exact ⟨d, hd, hrequired, rfl, by rw [hrequired]⟩
  · rintro ⟨d, hd, hrequired, rfl, rfl⟩
    exact ⟨d, ⟨hd, hrequired⟩, rfl, by rw [hrequired]⟩

/-- An element outside the root has its required children listed with their bounds. -/
theorem mem_scaffoldRule (h : (e.children.map Child.name).Nodup) {c : String}
    {label : Option String} : (c, label) ∈ (scaffoldRule .standard e).children.pairs ↔
      ∃ d ∈ e.children, d.required = true ∧ d.name = c ∧ some d.cardinality = label := by
  have hnodup : ((e.children.filter Child.required).map Child.name).Nodup :=
    h.sublist (List.filter_sublist.map _)
  have hpairs : (scaffoldRule .standard e).children.pairs =
      (e.children.filter Child.required).map fun d => (d.name, some d.cardinality) :=
    OrderedMap.pairs_ofList_map hnodup _
  rw [hpairs]
  simp [and_assoc]

end Entries

/-! ## When a scaffold has no findings but open choices -/

/-- The declarations of a grammar do not contradict each other: children are declared, bounds are
ordered, and the values of enumerations match the patterns beside them. -/
structure Coherent (m : Model) : Prop where
  declared : ∀ e ∈ m.elements.values, ∀ c ∈ e.children, m.hasElement c.name = true
  bounds : ∀ e ∈ m.elements.values, ∀ c ∈ e.children, ∀ limit ∈ c.maxOccurs,
    c.minOccurs.val ≤ limit.val
  patterns : ∀ e ∈ m.elements.values, ∀ a ∈ e.attributes, ∀ p ∈ a.pattern,
    ∀ v ∈ a.enumValues.getD [], p.accepts v = true

/-- The children that a scaffold lists: in the root the document type alone, elsewhere those that
are required. -/
def ListsChild (m : Model) (dt n c : String) : Prop :=
  (m.root = some n ∧ c = dt) ∨ (m.root ≠ some n ∧ m.Requires n c)

/-- No two branches of an exclusive choice of an element have children that are listed. -/
def Apart (m : Model) (dt n : String) : Prop :=
  ∀ g ∈ m.choiceGroups n, g.exclusive = true → g.branches.Pairwise fun a b =>
    ¬((∃ c, ListsChild m dt n c ∧ c ∈ a.elements) ∧ ∃ c, ListsChild m dt n c ∧ c ∈ b.elements)

/-- A grammar admits the scaffold of a document type. -/
structure Fits (m : Model) (dt : String) : Prop where
  /-- The root requires no child beside the document type. -/
  alone : ∀ root ∈ m.root, ∀ c, m.Requires root c → c = dt
  /-- The document type may stand in the root exactly once. -/
  once : ∀ root ∈ m.root, ∀ c ∈ m.children root, c.name = dt →
    c.minOccurs.val ≤ 1 ∧ ∀ limit ∈ c.maxOccurs, 1 ≤ limit.val
  /-- What is listed in an entry does not come from two branches of an exclusive choice. -/
  exclusive : ∀ n, m.root = some n ∨ ReflTransGen m.Requires dt n → Apart m dt n

section Fits

variable {m : Model} {r : Restriction} {index : LineIndex} {root dt n : String} {e : Element}

theorem Coherent.declared_of_requires (h : Coherent m) {a b : String} (hab : m.Requires a b) :
    m.hasElement b = true := by
  obtain ⟨c, hc, -, rfl⟩ := hab
  cases he : m.element? a with
  | none =>
      rw [Model.children_of_none he] at hc
      exact absurd hc List.not_mem_nil
  | some e =>
      rw [Model.children_eq he] at hc
      exact h.declared e (OrderedMap.mem_values_of_get? he) c hc

/-- What a scaffold lists of attributes is what the grammar requires. -/
theorem Coherent.attributes (h : Coherent m) (he : e ∈ m.elements.values)
    (hnodup : (e.attributes.map Attribute.name).Nodup) {a : String} {rule : AttributeRule}
    (ha : (a, rule) ∈ (scaffoldAttributes .standard e).pairs) : ∃ d, e.attribute? a = some d ∧
      AttributeConforms d rule ∧ (d.enumValues = none → rule.values = []) := by
  obtain ⟨d, hd, -, rfl, rfl⟩ := (mem_scaffoldAttributes hnodup).1 ha
  refine ⟨d, find?_of_nodup hnodup hd, ⟨?_, ?_, fun _ => rfl⟩, ?_⟩
  · intro allowed hallowed v hv
    rw [hallowed] at hv
    exact hv
  · exact fun p hp v hv => h.patterns e he d hd p hp v hv
  · intro hnone
    simp only [hnone, Option.getD_none]

/-- A scaffold by its entries: that of the root, and those of what the document type requires. -/
structure Scaffolded (m : Model) (root dt : String) (e : Element) (r : Restriction) : Prop where
  isRoot : m.root = some root
  element : m.element? root = some e
  types : r.documentTypes = [dt]
  entries : ∀ n, r.elements.get? n =
    if n = root then some (scaffoldRoot .standard dt e)
    else if n ∈ m.requiredClosure dt then (m.element? n).map (scaffoldRule .standard) else none

/-- A grammar with a document type has a root, which is declared. -/
theorem exists_root_element (hregular : Grammar.Declarations.RegularElements m.elements)
    (hdt : dt ∈ m.documentTypes) :
    ∃ root e, m.root = some root ∧ m.element? root = some e ∧ e.xmlName = root := by
  unfold Model.documentTypes at hdt
  split at hdt
  case h_2 => exact absurd hdt List.not_mem_nil
  case h_1 root hroot =>
    cases he : m.element? root with
    | none =>
        rw [Model.childNames, Model.children_of_none he] at hdt
        exact absurd hdt List.not_mem_nil
    | some e => exact ⟨root, e, hroot, he, (hregular _ (OrderedMap.get?_eq_some_iff.1 he)).xmlName⟩

theorem exists_scaffolded (hregular : Grammar.Declarations.RegularElements m.elements)
    (hdt : dt ∈ m.documentTypes) : ∃ root e r, scaffold m .standard dt = .ok r ∧
      Scaffolded m root dt e r := by
  obtain ⟨root, e, hroot, he, hname⟩ := exists_root_element hregular hdt
  obtain ⟨r, hr, htypes, hentries⟩ := scaffold_eq_ok .standard hdt
  refine ⟨root, e, r, hr, hroot, he, htypes, fun n => ?_⟩
  rw [hentries, get?_scaffoldElements hroot he hname]

theorem Scaffolded.mem_keys (h : Scaffolded m root dt e r) :
    n ∈ r.elements.keys ↔ n = root ∨ m.hasElement n = true ∧ ReflTransGen m.Requires dt n := by
  rw [← OrderedMap.get?_isSome, h.entries]
  by_cases hn : n = root
  · simp [hn]
  · rw [if_neg hn, or_iff_right hn, ← Model.mem_requiredClosure_iff]
    split
    · next hmem =>
      obtain ⟨e', he'⟩ := Model.hasElement_iff.1 (Model.mem_requiredClosure_iff.1 hmem).1
      simp [he', hmem]
    · next hmem => simp [hmem]

/-- An entry is that of the root or of another element that the document type requires. -/
theorem Scaffolded.entry_cases (h : Scaffolded m root dt e r) {rule : ElementRule}
    (hmem : (n, rule) ∈ r.elements.pairs) :
    (n = root ∧ rule = scaffoldRoot .standard dt e) ∨
      n ≠ root ∧ ReflTransGen m.Requires dt n ∧
        ∃ e', m.element? n = some e' ∧ rule = scaffoldRule .standard e' := by
  have hget := OrderedMap.get?_eq_some_iff.2 hmem
  rw [h.entries] at hget
  split at hget
  · next hn => exact .inl ⟨hn, (Option.some.inj hget).symm⟩
  · next hn =>
    obtain ⟨hclosure, hget⟩ := Option.ite_none_right_eq_some.1 hget
    obtain ⟨e', he', rfl⟩ := Option.map_eq_some_iff.1 hget
    exact .inr ⟨hn, (Model.mem_requiredClosure_iff.1 hclosure).2, e', he', rfl⟩

theorem Scaffolded.root_mem (h : Scaffolded m root dt e r) :
    (root, scaffoldRoot .standard dt e) ∈ r.elements.pairs := by
  rw [← OrderedMap.get?_eq_some_iff, h.entries, if_pos rfl]

theorem keys_scaffoldRoot : (scaffoldRoot .standard dt e).children.keys = [dt] := rfl

theorem mem_keys_scaffoldRule (hregular : Regular n e) (he : m.element? n = some e) {c : String} :
    c ∈ (scaffoldRule .standard e).children.keys ↔ m.Requires n c := by
  rw [Model.Requires, Model.children_eq he]
  constructor
  · intro hc
    obtain ⟨label, hlabel⟩ := OrderedMap.exists_of_mem_keys hc
    obtain ⟨d, hd, hrequired, hname, -⟩ := (mem_scaffoldRule hregular.children).1 hlabel
    exact ⟨d, hd, by simpa [Child.required] using hrequired, hname⟩
  · rintro ⟨d, hd, hmin, hname⟩
    exact OrderedMap.mem_keys_of_mem ((mem_scaffoldRule hregular.children).2
      ⟨d, hd, by simpa [Child.required] using hmin, hname, rfl⟩)

theorem required_attributes (hregular : Regular n e) :
    ∀ a ∈ e.attributes, a.required = true → a.name ∈ (scaffoldAttributes .standard e).keys :=
  fun a ha hrequired => OrderedMap.mem_keys_of_mem
    ((mem_scaffoldAttributes hregular.attributes).2 ⟨a, ha, hrequired, rfl, rfl⟩)

/-- Whatever a scaffold lists is known to the grammar, and has an entry. -/
theorem Scaffolded.faithful (h : Scaffolded m root dt e r)
    (hregular : Grammar.Declarations.RegularElements m.elements) (hcoherent : Coherent m)
    (hdt : dt ∈ m.documentTypes) : FaithfulProfile ⟨m, r, index⟩ := by
  have hchildren : dt ∈ m.childNames root := by
    rwa [Model.documentTypes, h.isRoot] at hdt
  obtain ⟨c, hc⟩ := (mem_childNames root h.element).1 hchildren
  have hknown : m.hasElement dt = true := by
    have hname : c.name = dt := by simpa using List.find?_some hc
    rw [← hname]
    exact hcoherent.declared e (OrderedMap.mem_values_of_get? h.element) c
      (List.mem_of_find?_eq_some hc)
  have hdeclared : ∀ {n}, ReflTransGen m.Requires dt n → m.hasElement n = true := by
    intro n hn
    cases hn with
    | refl => exact hknown
    | tail _ hstep => exact hcoherent.declared_of_requires hstep
  refine ⟨fun n rule hmem => ?_, ?_, ?_⟩
  · rcases h.entry_cases hmem with ⟨rfl, rfl⟩ | ⟨hn, hreach, e', he', rfl⟩
    · have hreg := hregular _ (OrderedMap.get?_eq_some_iff.1 h.element)
      have hvalues := OrderedMap.mem_values_of_get? h.element
      refine ⟨e, h.element, rfl, rfl, rfl,
        fun a rule => hcoherent.attributes hvalues hreg.attributes,
        required_attributes hreg, fun k hk => ?_⟩
      obtain rfl := List.mem_singleton.1 hk
      exact ⟨⟨c, hc⟩, hknown, h.mem_keys.2 (.inr ⟨hknown, .refl⟩)⟩
    · have hreg := hregular _ (OrderedMap.get?_eq_some_iff.1 he')
      have hvalues := OrderedMap.mem_values_of_get? he'
      refine ⟨e', he', rfl, rfl, rfl, fun a rule => hcoherent.attributes hvalues hreg.attributes,
        required_attributes hreg, fun k hk => ?_⟩
      have hrequires := (mem_keys_scaffoldRule hreg he').1 hk
      have hreach' := hreach.tail hrequires
      refine ⟨?_, hdeclared hreach', h.mem_keys.2 (.inr ⟨hdeclared hreach', hreach'⟩)⟩
      obtain ⟨d, hd, -, rfl⟩ := hrequires
      rw [Model.children_eq he'] at hd
      exact ⟨d, find?_of_nodup hreg.children hd⟩
  · intro k hk
    rw [h.types, List.mem_singleton] at hk
    exact hk ▸ hdt
  · intro k hk n hn
    rw [h.types, List.mem_singleton] at hk
    subst hk
    exact h.mem_keys.2 (.inr ⟨hdeclared hn, hn⟩)

theorem labelConforms_once {c : Child} : LabelConforms c (some documentTypeLabel) ↔
    c.minOccurs.val ≤ 1 ∧ ∀ limit ∈ c.maxOccurs, 1 ≤ limit.val := by
  have hread : readLabel documentTypeLabel = .ok .once :=
    readLabel_label (o := .once) fun limit hlimit => (Option.some.inj hlimit) ▸ Nat.le_refl _
  simp only [LabelConforms, Option.some.injEq, forall_eq', hread, Except.ok.injEq, exists_eq_left',
    within, Bool.and_eq_true, decide_eq_true_eq]
  refine and_congr Iff.rfl ?_
  cases c.maxOccurs <;> simp [Occurs.once, Count.one]

theorem exclusive_iff (he : m.element? n = some e) {rule : ElementRule}
    (hactive : ∀ b, Active rule b ↔ ∃ c, ListsChild m dt n c ∧ c ∈ b.elements) :
    (∀ g ∈ e.choiceGroups, g.maxOccurs = some Count.one →
      g.branches.Pairwise fun a b => ¬(Active rule a ∧ Active rule b)) ↔ Apart m dt n := by
  have hgroups : m.choiceGroups n = e.choiceGroups := by rw [Model.choiceGroups, he]
  simp only [Apart, hgroups, hactive, ChoiceGroup.exclusive, beq_iff_eq]

theorem Scaffolded.settled_root (h : Scaffolded m root dt e r) (hregular : Regular root e) :
    Settled m root e (scaffoldRoot .standard dt e) ↔ (∀ c, m.Requires root c → c = dt) ∧
      (∀ c ∈ m.children root, c.name = dt →
        c.minOccurs.val ≤ 1 ∧ ∀ limit ∈ c.maxOccurs, 1 ≤ limit.val) ∧ Apart m dt root := by
  have hactive : ∀ b, Active (scaffoldRoot .standard dt e) b ↔
      ∃ c, ListsChild m dt root c ∧ c ∈ b.elements := by
    intro b
    simp [Active, keys_scaffoldRoot, ListsChild, h.isRoot]
  rw [← exclusive_iff h.element hactive, Model.children_eq h.element]
  constructor
  · rintro ⟨hcomplete, hbounds, hexclusive⟩
    refine ⟨fun c hc => ?_, fun c hc hname => ?_, hexclusive⟩
    · rcases hcomplete with hnone | hall
      · exact absurd hnone (List.cons_ne_nil _ _)
      · exact List.mem_singleton.1 (hall c hc)
    · have hfound : e.child? dt = some c := hname ▸ find?_of_nodup hregular.children hc
      exact labelConforms_once.1 (hbounds dt _ List.mem_cons_self c hfound)
  · rintro ⟨halone, honce, hexclusive⟩
    refine ⟨.inr fun c hc => List.mem_singleton.2 (halone c hc), fun c label hc d hd => ?_,
      hexclusive⟩
    obtain ⟨rfl, rfl⟩ := Prod.mk.inj (List.mem_singleton.1 hc)
    have hname : d.name = c := by simpa using List.find?_some hd
    exact labelConforms_once.2 (honce d (List.mem_of_find?_eq_some hd) hname)

/-- Outside the root, only exclusive choices can be unsettled. -/
theorem Scaffolded.settled_required (h : Scaffolded m root dt e r) {e' : Element}
    (hregular : Regular n e') (hcoherent : Coherent m) (hn : n ≠ root)
    (he' : m.element? n = some e') :
    Settled m n e' (scaffoldRule .standard e') ↔ Apart m dt n := by
  have hroot : ¬root = n := fun hsame => hn hsame.symm
  have hactive : ∀ b, Active (scaffoldRule .standard e') b ↔
      ∃ c, ListsChild m dt n c ∧ c ∈ b.elements := by
    intro b
    simp [Active, mem_keys_scaffoldRule hregular he', ListsChild, h.isRoot, hroot]
  rw [← exclusive_iff he' hactive]
  refine ⟨fun hsettled => hsettled.exclusive, fun hexclusive => ⟨.inr ?_, ?_, hexclusive⟩⟩
  · exact fun c hc => (mem_keys_scaffoldRule hregular he').2 hc
  · intro c label hc d hd
    obtain ⟨d', hd', -, rfl, rfl⟩ := (mem_scaffoldRule hregular.children).1 hc
    have hfound : e'.child? d'.name = some d' := find?_of_nodup hregular.children hd'
    obtain rfl := Option.some.inj (hd.symm.trans hfound)
    have hordered : Occurs.Ordered ⟨d.minOccurs, d.maxOccurs⟩ :=
      hcoherent.bounds e' (OrderedMap.mem_values_of_get? he') d hd'
    have hlabel : label ⟨d.minOccurs, d.maxOccurs⟩ = d.cardinality := rfl
    intro text htext
    rw [← Option.some.inj htext, ← hlabel]
    exact ⟨⟨d.minOccurs, d.maxOccurs⟩, readLabel_label hordered, within_self _⟩

end Fits

/-- For every document type of a loaded grammar that does not contradict itself there is a
scaffold, in which validation finds only open choices exactly if the grammar admits it. -/
theorem scaffold_only_open_iff (root? : Option String) (text : String) (m : Model)
    (hload : Model.load root? text = .ok m) (hcoherent : Coherent m) (dt : String)
    (hdt : dt ∈ m.documentTypes) : ∃ r, scaffold m .standard dt = .ok r ∧
      ∀ index, OnlyOpen (validate .standard ⟨m, r, index⟩) ↔ Fits m dt := by
  have hregular := Model.regular_of_load hload
  obtain ⟨root, e, r, hr, h⟩ := exists_scaffolded hregular hdt
  refine ⟨r, hr, fun index => ?_⟩
  rw [(h.faithful hregular hcoherent hdt).onlyOpen_iff]
  have hroot := h.settled_root (hregular _ (OrderedMap.get?_eq_some_iff.1 h.element))
  constructor
  · intro hsettled
    obtain ⟨halone, honce, hapart⟩ := hroot.1 (hsettled root _ h.root_mem e h.element)
    have hsame : ∀ {n}, n ∈ m.root → n = root := fun hn =>
      Option.some.inj ((Option.mem_def.1 hn).symm.trans h.isRoot)
    refine ⟨fun n hn => hsame hn ▸ halone, fun n hn => hsame hn ▸ honce, fun n hn => ?_⟩
    by_cases hne : n = root
    · exact hne ▸ hapart
    · have hreach := hn.resolve_left fun hisRoot => hne (hsame hisRoot)
      cases he' : m.element? n with
      | none =>
          intro g hg
          simp [Model.choiceGroups, he'] at hg
      | some e' =>
          have hclosure := Model.mem_requiredClosure_iff.2
            ⟨Model.hasElement_iff.2 ⟨e', he'⟩, hreach⟩
          have hrule := h.entries n
          rw [if_neg hne, if_pos hclosure, he', Option.map_some] at hrule
          have hreg := hregular _ (OrderedMap.get?_eq_some_iff.1 he')
          exact (h.settled_required hreg hcoherent hne he').1
            (hsettled n _ (OrderedMap.get?_eq_some_iff.1 hrule) e' he')
  · intro hfits n rule hmem e' he'
    rcases h.entry_cases hmem with ⟨rfl, rfl⟩ | ⟨hn, hreach, e'', he'', rfl⟩
    · obtain rfl := Option.some.inj (h.element.symm.trans he')
      exact hroot.2 ⟨hfits.alone n h.isRoot, hfits.once n h.isRoot,
        hfits.exclusive n (.inl h.isRoot)⟩
    · obtain rfl := Option.some.inj (he''.symm.trans he')
      have hreg := hregular _ (OrderedMap.get?_eq_some_iff.1 he'')
      exact (h.settled_required hreg hcoherent hn he'').2 (hfits.exclusive n (.inr hreach))

/-- An element with nothing but children. -/
def plainElement (name displayName : String) (children : List Child) : Element :=
  ⟨name, displayName, none, [], children, [], [], ""⟩

/-- A book is a text, which has lines. -/
def bookSchema : String :=
  "<xs:schema xmlns:xs='http://www.w3.org/2001/XMLSchema'>
  <xs:element name='book'><xs:complexType><xs:sequence>
    <xs:element ref='text'/>
  </xs:sequence></xs:complexType></xs:element>
  <xs:element name='line'/>
  <xs:element name='text'><xs:complexType><xs:sequence>
    <xs:element ref='line' maxOccurs='unbounded'/>
  </xs:sequence></xs:complexType></xs:element>
</xs:schema>"

def bookModel : Model where
  elements := ⟨[
    ("book", plainElement "book" "Book" [⟨"text", Count.one, some Count.one, []⟩]),
    ("line", plainElement "line" "Line" []),
    ("text", plainElement "text" "Text" [⟨"line", Count.one, none, []⟩])], by decide⟩
  enums := ∅
  root := some "book"

set_option maxRecDepth 10000 in
theorem load_bookSchema : Model.load none bookSchema = .ok bookModel := by
  obtain ⟨cs, hcs, hm⟩ : ∃ cs, bookSchema = String.ofList cs ∧
      Model.unsorted? cs = some bookModel := ⟨_, rfl, by decide +kernel⟩
  rw [hcs]
  exact Model.load_eq_ok hm (by decide) List.Pairwise.nil

theorem scaffold_bookSchema : Model.load none bookSchema = .ok bookModel ∧ Coherent bookModel ∧
    "text" ∈ bookModel.documentTypes ∧ ∃ r, scaffold bookModel .standard "text" = .ok r ∧
      ∀ index, OnlyOpen (validate .standard ⟨bookModel, r, index⟩) := by
  have hcoherent : Coherent bookModel := by constructor <;> decide
  have hdt : "text" ∈ bookModel.documentTypes := by decide
  have hfits : Fits bookModel "text" := by
    refine ⟨?_, by decide, fun n _ g hg => ?_⟩
    · rintro _ ⟨rfl⟩ c ⟨d, hd, -, rfl⟩
      obtain rfl := List.mem_singleton.1 hd
      rfl
    · have hnone : ∀ e ∈ bookModel.elements.values, e.choiceGroups = [] := by decide
      unfold Model.choiceGroups at hg
      split at hg
      · next e he =>
        rw [hnone e (OrderedMap.mem_values_of_get? he)] at hg
        exact absurd hg List.not_mem_nil
      · exact absurd hg List.not_mem_nil
  obtain ⟨r, hr, hopen⟩ :=
    scaffold_only_open_iff none bookSchema bookModel load_bookSchema hcoherent "text" hdt
  exact ⟨load_bookSchema, hcoherent, hdt, r, hr, fun index => (hopen index).2 hfits⟩

/-- A book has a cover before its text. -/
def coverSchema : String :=
  "<xs:schema xmlns:xs='http://www.w3.org/2001/XMLSchema'>
  <xs:element name='book'><xs:complexType><xs:sequence>
    <xs:element ref='cover'/>
    <xs:element ref='text'/>
  </xs:sequence></xs:complexType></xs:element>
  <xs:element name='cover'/>
  <xs:element name='text'/>
</xs:schema>"

def coverModel : Model where
  elements := ⟨[
    ("book", plainElement "book" "Book"
      [⟨"cover", Count.one, some Count.one, []⟩, ⟨"text", Count.one, some Count.one, []⟩]),
    ("cover", plainElement "cover" "Cover" []),
    ("text", plainElement "text" "Text" [])], by decide⟩
  enums := ∅
  root := some "book"

set_option maxRecDepth 10000 in
theorem load_coverSchema : Model.load none coverSchema = .ok coverModel := by
  obtain ⟨cs, hcs, hm⟩ : ∃ cs, coverSchema = String.ofList cs ∧
      Model.unsorted? cs = some coverModel := ⟨_, rfl, by decide +kernel⟩
  rw [hcs]
  exact Model.load_eq_ok hm (by decide) List.Pairwise.nil

/-- The root of the scaffold lists the text without the cover. -/
theorem scaffold_lacks_cover : ∃ m, Model.load none coverSchema = .ok m ∧ Coherent m ∧
    m.hasElement choiceKey = false ∧ "text" ∈ m.documentTypes ∧
      ∃ r, scaffold m .standard "text" = .ok r ∧
        ∀ index, ¬OnlyOpen (validate .standard ⟨m, r, index⟩) := by
  have hcoherent : Coherent coverModel := by constructor <;> decide
  have hdt : "text" ∈ coverModel.documentTypes := by decide
  have hregular := Model.regular_of_load load_coverSchema
  obtain ⟨root, e, r, hr, h⟩ := exists_scaffolded hregular hdt
  refine ⟨coverModel, load_coverSchema, hcoherent, by decide, hdt, r, hr, fun index hopen => ?_⟩
  have hroot : root = "book" := Option.some.inj (h.isRoot.symm.trans rfl)
  have hsettled := (h.faithful hregular hcoherent hdt).onlyOpen_iff.1 hopen root _ h.root_mem e
    h.element
  have hreg := hregular _ (OrderedMap.get?_eq_some_iff.1 h.element)
  have hrequires : coverModel.Requires root "cover" :=
    ⟨⟨"cover", Count.one, some Count.one, []⟩, by rw [hroot]; decide, Nat.le_refl _, rfl⟩
  exact absurd (((h.settled_root hreg).1 hsettled).1 "cover" hrequires) (by decide)

end Cascade

end GrammarProfile
