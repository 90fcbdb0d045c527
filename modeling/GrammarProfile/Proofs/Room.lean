import Mathlib
import GrammarProfile.Proofs.Intake
import GrammarProfile.Proofs.Labels

/-!
Expanding an element breaks no profile that has room for what it adds: validation reports no error
afterwards that it did not report before, but for choices that have to be made.
-/
namespace GrammarProfile.Cascade

open GrammarProfile.Grammar (Attribute Child ChoiceGroup Count Element Model Occurs)
open GrammarProfile.Profile
open GrammarProfile.Validation
open GrammarProfile.Yaml (Value Pairs)

/-! ## Grammars that keep their own rules -/

/-- The root and the required children of elements are declared, and no element has the name of
the key for the choice. Each declaration names a child or an attribute once, and neither bounds nor
enumerations contradict each other. -/
structure Sound (m : Model) : Prop where
  root : ∀ n ∈ m.root, m.hasElement n = true
  noChoice : m.hasElement choiceKey = false
  required : ∀ e ∈ m.elements.values, ∀ c ∈ e.children, 1 ≤ c.minOccurs.val →
    m.hasElement c.name = true
  children : ∀ e ∈ m.elements.values, (e.children.map Child.name).Nodup
  attributes : ∀ e ∈ m.elements.values, (e.attributes.map Attribute.name).Nodup
  bounds : ∀ e ∈ m.elements.values, ∀ c ∈ e.children, ∀ limit ∈ c.maxOccurs,
    c.minOccurs.val ≤ limit.val
  patterns : ∀ e ∈ m.elements.values, ∀ a ∈ e.attributes, ∀ p ∈ a.pattern,
    ∀ v ∈ a.enumValues.getD [], p.accepts v = true

section Sound

variable {m : Model} {o : ExpandOptions} {e : Element} {n : String} {x : Value}

theorem items_map_string (path : String) (i : ℕ) (values : List String) :
    Shape.items path Shape.attributeValue i (values.map .string) = ⟨values, []⟩ := by
  induction values generalizing i with
  | nil => rfl
  | cons v rest ih =>
      have hcons : Shape.items path Shape.attributeValue i ((v :: rest).map .string) =
          ⟨v :: (Shape.items path Shape.attributeValue (i + 1) (rest.map .string)).result,
            (Shape.items path Shape.attributeValue (i + 1) (rest.map .string)).flaws ++ []⟩ := rfl
      rw [hcons, ih]
      rfl

theorem attributeRule_requiredAttribute (path : String) (a : Attribute) :
    attributeRule path (requiredAttribute a) = ⟨⟨true, a.enumValues.getD []⟩, []⟩ := by
  unfold requiredAttribute
  cases ha : a.enumValues with
  | none => rfl
  | some values =>
      cases values with
      | nil => rfl
      | cons v rest =>
          have hread : attributeRule path (.mapping [(.string "required", .bool true),
              (.string "values", .sequence ((v :: rest).map .string))]) =
              ⟨⟨true, (Shape.items (path ++ "." ++ "values") Shape.attributeValue 0
                ((v :: rest).map .string)).result⟩,
                ((Shape.items (path ++ "." ++ "values") Shape.attributeValue 0
                  ((v :: rest).map .string)).flaws ++ []) ++ []⟩ := rfl
          dsimp only
          rw [hread, items_map_string]
          rfl

theorem attributeRule_identityAttribute (path : String) (required : Bool) :
    attributeRule path (identityAttribute required) = ⟨⟨required, []⟩, []⟩ := rfl

theorem Sound.wantedAttribute (h : Sound m) (he : e ∈ m.elements.values)
    (hx : wantedAttribute o e n = some x) : ∃ d, e.attribute? n = some d ∧
      ∃ written, AttributeConforms d written ∧ ∀ path, attributeRule path x = ⟨written, []⟩ := by
  unfold Cascade.wantedAttribute at hx
  split at hx
  · next a ha =>
      obtain rfl := Option.some.inj hx
      have hname := List.find?_some ha
      rw [Bool.and_eq_true, beq_iff_eq] at hname
      have hmem := List.mem_of_find?_eq_some ha
      have hfound : e.attribute? n = some a := hname.1 ▸ find?_of_nodup (h.attributes e he) hmem
      refine ⟨a, hfound, ⟨true, a.enumValues.getD []⟩, ⟨?_, ?_, fun _ => rfl⟩,
        fun path => attributeRule_requiredAttribute path a⟩
      · intro allowed hallowed v hv
        rw [hallowed] at hv
        exact hv
      · exact fun p hp v hv => h.patterns e he a hmem p hp v hv
  · split at hx
    · next hidentity =>
        obtain rfl := Option.some.inj hx
        obtain ⟨d, hd, hoptional⟩ := (Option.any_eq_true _ _).1 hidentity.2
        refine ⟨d, hd, ⟨o.idRequired, []⟩, ⟨?_, ?_, ?_⟩,
          fun path => attributeRule_identityAttribute path o.idRequired⟩
        · exact fun _ _ v hv => absurd hv List.not_mem_nil
        · exact fun _ _ v hv => absurd hv List.not_mem_nil
        · intro hrequired
          rw [hrequired] at hoptional
          exact absurd hoptional (by decide)
    · exact nomatch hx

theorem Sound.declares_required (h : Sound m) {a b : String} (hab : m.Requires a b) :
    m.hasElement b = true := by
  obtain ⟨c, hc, hmin, rfl⟩ := hab
  cases he : m.element? a with
  | none =>
      rw [Model.children_of_none he] at hc
      exact absurd hc List.not_mem_nil
  | some e =>
      rw [Model.children_eq he] at hc
      exact h.required e (OrderedMap.mem_values_of_get? he) c hc hmin

theorem Sound.wantedChild (h : Sound m) (he : m.element? n = some e) {c : String}
    (hx : wantedChild e c = some x) :
    m.Requires n c ∧ ∃ label, x = .string label ∧ ChildConforms m e c (some label) := by
  obtain ⟨d, hd, rfl⟩ := Option.map_eq_some_iff.1 hx
  have hname := List.find?_some hd
  rw [Bool.and_eq_true, beq_iff_eq] at hname
  have hmem := List.mem_of_find?_eq_some hd
  have hrequires : m.Requires n c :=
    ⟨d, Model.children_eq he ▸ hmem, by simpa [Child.required] using hname.2, hname.1⟩
  have hfound : e.child? c = some d :=
    hname.1 ▸ find?_of_nodup (h.children e (OrderedMap.mem_values_of_get? he)) hmem
  have hordered : Occurs.Ordered ⟨d.minOccurs, d.maxOccurs⟩ :=
    h.bounds e (OrderedMap.mem_values_of_get? he) d hmem
  refine ⟨hrequires, d.cardinality, rfl, h.declares_required hrequires, d, hfound,
    fun text htext => ?_⟩
  have hlabel : label ⟨d.minOccurs, d.maxOccurs⟩ = d.cardinality := rfl
  rw [← Option.some.inj htext, ← hlabel]
  exact ⟨⟨d.minOccurs, d.maxOccurs⟩, readLabel_label hordered, within_self _⟩

end Sound

/-! ## Profiles that have room -/

/-- The children that an entry has after an expansion: those that the element requires, if it is
mandatory, and in the root the document types that have an entry. -/
inductive Asked (grammar : Model) (element : String) (r : Restriction) (n : String) : String → Prop
  | required {c : String} (h : Mandatory grammar element n) (hc : grammar.Requires n c) :
      Asked grammar element r n c
  | type {dt : String} (h : grammar.root = some n) (hdt : dt ∈ r.documentTypes)
      (hentry : dt ∈ r.elements.keys ∨ Mandatory grammar element dt) :
      Asked grammar element r n dt

/-- Nothing in a profile is in the way of the children that an expansion adds. -/
structure HasRoom (grammar : Model) (element : String) (r : Restriction) : Prop where
  /-- A document type that the root does not list yet may stand in it once. -/
  types : ∀ n e, grammar.root = some n → grammar.element? n = some e → ∀ dt ∈ r.documentTypes,
    dt ∈ r.elements.keys ∨ Mandatory grammar element dt → dt ∉ (ruleOf r n).children.keys →
      ChildConforms grammar e dt (some documentTypeLabel)
  /-- A child that is added is no member of the choice. -/
  apart : ∀ n c, Asked grammar element r n c → c ∉ (ruleOf r n).children.keys →
    c ∉ (ruleOf r n).alternatives.keys
  /-- An exclusive choice of the grammar with a child that is added has but one branch with
  children. -/
  exclusive : ∀ n e, grammar.element? n = some e → ∀ g ∈ e.choiceGroups,
    g.maxOccurs = some Count.one →
      (∀ c, Asked grammar element r n c → g.contains c = true → c ∈ (ruleOf r n).children.keys) ∨
        g.branches.Pairwise fun a b =>
          ¬(Chosen (ruleOf r n) (Asked grammar element r n) a.elements ∧
            Chosen (ruleOf r n) (Asked grammar element r n) b.elements)

/-- What an expansion wants in the entry of an element. -/
structure Additions (grammar : Model) (o : ExpandOptions) (element : String) (r : Restriction)
    (n : String) (e : Element) (attributes children : String → Option Value) : Prop where
  attributes : ∀ a x, attributes a = some x → wantedAttribute o e a = some x
  children : ∀ c x, children c = some x → Mandatory grammar element n ∧ wantedChild e c = some x ∨
    grammar.root = some n ∧ c ∈ r.documentTypes ∧
      (c ∈ r.elements.keys ∨ Mandatory grammar element c) ∧ x = .string documentTypeLabel

section Room

variable {grammar : Model} {o : ExpandOptions} {element text n : String} {r : Restriction}
  {e : Element} {a c : String → Option Value} {root fields elements after : Pairs} {w : Value}

theorem Additions.asked (h : Additions grammar o element r n e a c) (hsound : Sound grammar)
    (he : grammar.element? n = some e) {name : String} {x : Value} (hx : c name = some x) :
    Asked grammar element r n name := by
  rcases h.children name x hx with ⟨hmandatory, hwanted⟩ | ⟨hroot, hdt, hentry, _⟩
  · exact .required hmandatory (hsound.wantedChild he hwanted).1
  · exact .type hroot hdt hentry

theorem Sound.ne_choiceKey (h : Sound grammar) (hn : grammar.hasElement n = true) :
    n ≠ choiceKey := by
  rintro rfl
  rw [h.noChoice] at hn
  exact absurd hn (by decide)

theorem Additions.suits (h : Additions grammar o element r n e a c) (hsound : Sound grammar)
    (hroom : HasRoom grammar element r) (he : grammar.element? n = some e)
    (hchoice : choiceKey ∉ (ruleOf r n).children.keys) : Suits grammar e (ruleOf r n) a c := by
  have hasked : ∀ k, c k ≠ none → Asked grammar element r n k := by
    intro k hk
    obtain ⟨x, hx⟩ := Option.ne_none_iff_exists'.1 hk
    exact h.asked hsound he hx
  refine ⟨fun k x hx => hsound.wantedAttribute (OrderedMap.mem_values_of_get? he)
    (h.attributes k x hx), fun k x hx => ?_, fun g hg hone => ?_⟩
  · have hapart := hroom.apart n k (h.asked hsound he hx)
    rcases h.children k x hx with ⟨_, hwanted⟩ | ⟨hroot, hdt, hentry, rfl⟩
    · obtain ⟨hrequires, label, rfl, hconforms⟩ := hsound.wantedChild he hwanted
      exact ⟨hsound.ne_choiceKey (hsound.declares_required hrequires), label, rfl,
        fun hnew => ⟨hconforms, hapart hnew⟩⟩
    · have hconforms := hroom.types n e hroot he k hdt hentry
      refine ⟨?_, documentTypeLabel, rfl, fun hnew => ⟨hconforms hnew, hapart hnew⟩⟩
      -- A document type with the name of the key for the choice would be a declared element.
      rintro rfl
      exact hsound.ne_choiceKey (hconforms hchoice).1 rfl
  · have hchosen : ∀ b : Grammar.Branch, Chosen (ruleOf r n) (fun k => c k ≠ none) b.elements →
        Chosen (ruleOf r n) (Asked grammar element r n) b.elements := by
      rintro b ⟨k, hk, hin⟩
      exact ⟨k, hk, hin.imp_right (hasked k)⟩
    rcases hroom.exclusive n e he g hg hone with hnone | hpairwise
    · exact .inl fun k hk hin => hnone k (hasked k hk) hin
    · exact .inr (hpairwise.imp fun hboth hab => hboth ⟨hchosen _ hab.1, hchosen _ hab.2⟩)

/-- The root has an entry after an expansion that has taken in what was wanted. -/
theorem Expanded.additions_root (h : Expanded grammar o r.documentTypes element elements after)
    (helements : IsEntries elements) (hkeys : ∀ n, n ∈ r.elements.keys ↔ n ∈ Pairs.names elements)
    (hsound : Sound grammar) (hn : grammar.root = some n) (hw : Pairs.get? after n = some w) :
    ∃ e a c before inner, grammar.element? n = some e ∧
      Sectioned (Pairs.get? elements n) before ∧ IsSection (some w) inner ∧
      Takes a c before inner ∧ Additions grammar o element r n e a c := by
  obtain ⟨before, hbefore⟩ := sectioned_get? helements n
  obtain ⟨present, completed, v, hpresent, hcompleted, hlists, hv⟩ := h.root n hn
  obtain rfl := Option.some.inj (hv.symm.trans hw)
  have htype : ∀ c x, wantedType present c = some x → grammar.root = some n ∧
      c ∈ r.documentTypes ∧ (c ∈ r.elements.keys ∨ Mandatory grammar element c) ∧
        x = .string documentTypeLabel := by
    intro c x hx
    obtain ⟨hc, rfl⟩ := Option.ite_some_none_eq_some.1 hx
    obtain ⟨hdt, hentry⟩ := (hpresent c).1 hc
    exact ⟨hn, hdt, hentry.imp_left (hkeys c).2, rfl⟩
  -- The entry is completed first if it is mandatory; then the document types are listed in it.
  cases hcompleted with
  | @mandatory e _ x hmandatory he hx =>
      obtain ⟨middle, hmiddle, hfirst⟩ := hx.takes hbefore.entry
      obtain ⟨inner, hinner, hsecond⟩ := hlists.takes hmiddle
      refine ⟨e, _, _, before, inner, he, hbefore, hinner, hfirst.trans hsecond, ?_, ?_⟩
      · intro k y hy
        rwa [Option.or_none] at hy
      · intro k y hy
        rcases Option.or_eq_some_iff.1 hy with hy | ⟨_, hy⟩
        · exact .inl ⟨hmandatory, hy⟩
        · exact .inr (htype k y hy)
  | other hnot =>
      obtain ⟨e, he⟩ := Model.hasElement_iff.1 (hsound.root n hn)
      obtain ⟨inner, hinner, htakes⟩ := hlists.takes hbefore.entry
      exact ⟨e, _, _, before, inner, he, hbefore, hinner, htakes, nofun,
        fun k y hy => .inr (htype k y hy)⟩

/-- Every entry after an expansion was there before, or has taken in what was wanted. -/
theorem Expanded.additions (h : Expanded grammar o r.documentTypes element elements after)
    (helements : IsEntries elements) (hkeys : ∀ n, n ∈ r.elements.keys ↔ n ∈ Pairs.names elements)
    (hsound : Sound grammar) (hw : Pairs.get? after n = some w) :
    Pairs.get? elements n = some w ∨ ∃ e a c before inner, grammar.element? n = some e ∧
      Sectioned (Pairs.get? elements n) before ∧ IsSection (some w) inner ∧
      Takes a c before inner ∧ Additions grammar o element r n e a c := by
  by_cases hn : grammar.root = some n
  · exact .inr (h.additions_root helements hkeys hsound hn hw)
  · obtain ⟨before, hbefore⟩ := sectioned_get? helements n
    have hcompleted := h.entries n hn
    rw [hw] at hcompleted
    generalize Pairs.get? elements n = v at hbefore hcompleted ⊢
    cases hcompleted with
    | @mandatory e _ _ hmandatory he hx =>
        obtain ⟨inner, hinner, htakes⟩ := hx.takes hbefore.entry
        exact .inr ⟨e, _, _, before, inner, he, hbefore, hinner, htakes, fun k y hy => hy,
          fun k y hy => .inl ⟨hmandatory, hy⟩⟩
    | other _ => exact .inl rfl

theorem ruleOf_eq (haccepted : Accepted text r root fields elements)
    (hread : (Profile.read text).profile = some r) {before : Pairs}
    (h : IsSection (Pairs.get? elements n) before) :
    ruleOf r n = (entryRule (entryPath n) before).result ∧
      (entryRule (entryPath n) before).flaws = [] := by
  rw [ruleOf, haccepted.get?_elements hread]
  have hflaws := haccepted.flaws_readEntry hread n
  generalize Pairs.get? elements n = v at h hflaws ⊢
  cases v with
  | none =>
      cases h
      exact ⟨rfl, rfl⟩
  | some v =>
      rw [← readEntry_section h]
      exact ⟨rfl, hflaws v rfl⟩

/-- What is read from an entry after an expansion has no flaws, and has grown at most. -/
theorem Expanded.grown_entry (h : Expanded grammar o r.documentTypes element elements after)
    (haccepted : Accepted text r root fields elements)
    (hread : (Profile.read text).profile = some r) (hsound : Sound grammar)
    (hroom : HasRoom grammar element r) (hw : Pairs.get? after n = some w) :
    (readEntry n w).flaws = [] ∧ (r.elements.get? n = some (readEntry n w).result ∨
      ∃ e, grammar.element? n = some e ∧ Grown grammar e (ruleOf r n) (readEntry n w).result) := by
  rcases h.additions haccepted.entries haccepted.keys hsound hw with
    hold | ⟨e, a, c, before, inner, he, hbefore, hinner, htakes, hadditions⟩
  · refine ⟨haccepted.flaws_readEntry hread n w hold, .inl ?_⟩
    rw [haccepted.get?_elements hread, hold, Option.map_some]
  · obtain ⟨attributes, hattributes⟩ := hbefore.attributes
    obtain ⟨children, hchildren⟩ := hbefore.children
    have hkeyed := hbefore.entry.keyed
    obtain ⟨hrule, hflaws⟩ := ruleOf_eq haccepted hread hbefore.entry
    have hchoice : choiceKey ∉ (ruleOf r n).children.keys := by
      rw [hrule, ← OrderedMap.get?_eq_none_iff, children_entryRule hkeyed hchildren, if_pos rfl]
    have hsuits := hadditions.suits hsound hroom he hchoice
    rw [hrule] at hsuits
    rw [readEntry_section hinner, hrule]
    exact ⟨htakes.flaws_eq_nil hkeyed hattributes hchildren hsuits hflaws,
      .inr ⟨e, he, htakes.grown hkeyed hattributes hchildren hsuits⟩⟩

theorem Expanded.grows (h : Expanded grammar o r.documentTypes element elements after)
    (haccepted : Accepted text r root fields elements)
    (hread : (Profile.read text).profile = some r) (hsound : Sound grammar)
    (hroom : HasRoom grammar element r) {grown : Restriction}
    (htypes : grown.documentTypes = r.documentTypes)
    (hget : ∀ n, grown.elements.get? n =
      (Pairs.get? after n).map fun w => (readEntry n w).result) : Grows grammar r grown := by
  refine ⟨htypes, fun n hn => ?_, fun n rule hrule => ?_⟩
  · have hafter : n ∈ Pairs.names after :=
      (h.mem_names haccepted.entries).2 (.inr (.inl ((haccepted.keys n).1 hn)))
    obtain ⟨w, hw⟩ := h.keyed.mem_names_iff.1 hafter
    rw [← OrderedMap.get?_isSome, hget, hw]
    rfl
  · rw [← OrderedMap.get?_eq_some_iff, hget] at hrule
    obtain ⟨w, hw, rfl⟩ := Option.map_eq_some_iff.1 hrule
    exact (h.grown_entry haccepted hread hsound hroom hw).2.imp_left OrderedMap.get?_eq_some_iff.1

theorem validateText_eq (settings : Settings) (grammar : Model)
    (h : (Profile.read text).profile = some r) : validateText settings grammar text =
      (Profile.read text).errors ++
        validate settings ⟨grammar, r, (Profile.read text).index⟩ := by
  unfold validateText
  dsimp only
  rw [h]

end Room

/-- Where the grammar keeps its own rules and the profile has room for what is added, all errors
after an expansion were reported before, but for choices that have to be made. -/
theorem expand_reports_nothing_new {grammar : Model} {element text : String} {r : Restriction}
    (o : ExpandOptions) (hknown : grammar.hasElement element = true)
    (haccepted : (Profile.read text).profile = some r) (hsound : Sound grammar)
    (hroom : HasRoom grammar element r) :
    ∃ tree, Yaml.read text = .ok tree ∧
      expand grammar o element text = .ok (Tree.render (expandTree grammar o element tree)) ∧
      ∀ again, Yaml.read again = .ok (expandTree grammar o element tree) →
        ∀ d ∈ validateText .standard grammar again, d.severity = .error →
          d.ruleId ≠ "choice.required-group-empty" → ∃ k ∈ validateText .standard grammar text,
            k.ruleId = d.ruleId ∧ k.path = d.path ∧ k.message = d.message := by
  obtain ⟨root, fields, elements, h⟩ := Profile.accepted_of_read haccepted
  refine ⟨_, h.read, expand_eq_ok h o hknown, fun again hagain d hd herror hrule => ?_⟩
  have hexpanded := expanded_expandElements grammar o r.documentTypes element h.entries
  obtain ⟨hflaws, hresult⟩ := h.ofTree haccepted
  rw [expandTree_eq h] at hagain
  obtain ⟨grown, hgrown, herrors, htypes, hget⟩ := read_withEntries h.keyed hflaws hexpanded.keyed
    (fun n w hw => (hexpanded.grown_entry h haccepted hsound hroom hw).1) hagain
  rw [hresult] at htypes
  have hgrows := hexpanded.grows h haccepted hsound hroom htypes hget
  rw [validateText_eq .standard grammar hgrown, herrors, List.nil_append] at hd
  rw [validateText_eq .standard grammar haccepted]
  obtain ⟨k, hk, hsame⟩ := Grows.exists_before (s := ⟨grammar, r, (Profile.read text).index⟩)
    (t := ⟨grammar, grown, (Profile.read again).index⟩) hgrows rfl hd ⟨herror, hrule⟩
  exact ⟨k, List.mem_append_right _ hk, hsame⟩

theorem sound_listGrammar : Sound listGrammar := by
  constructor <;> decide

/-- Entries for lists that have items. -/
def itemsEntries : Pairs :=
  [(.string "list", .mapping [(.string "children", .mapping [(.string "item", .string "1..*")])]),
    (.string "item", .null)]

def itemsProfile : String :=
  "profile: \x7belements: \x7blist: \x7bchildren: \x7bitem: 1..*\x7d\x7d, item: \x7d\x7d"

theorem read_itemsProfile : Yaml.read itemsProfile = .ok (entriesTree itemsEntries) :=
  Value.read_eq_ok rfl (by decide +kernel)

theorem expandTree_list : expandTree listGrammar .standard "list"
    (entriesTree [(.string "list", .null)]) = entriesTree itemsEntries := by
  cbv

/-- The grammar of lists has no choices and no root that could be in the way. -/
theorem hasRoom_listGrammar {r : Restriction}
    (h : ∀ n, (ruleOf r n).alternatives.keys = []) : HasRoom listGrammar "list" r where
  types := fun _ _ hn => nomatch hn
  apart := fun n c _ _ => by
    rw [h n]
    exact List.not_mem_nil
  exclusive := fun n e he g hg => by
    have hnone : ∀ e ∈ listGrammar.elements.values, e.choiceGroups = [] := by decide
    rw [hnone e (OrderedMap.mem_values_of_get? he)] at hg
    exact absurd hg List.not_mem_nil

theorem expand_list_reports : ∃ r tree again, (Profile.read listProfile).profile = some r ∧
    Yaml.read listProfile = .ok tree ∧
    expand listGrammar .standard "list" listProfile =
      .ok (Tree.render (expandTree listGrammar .standard "list" tree)) ∧
    Yaml.read again = .ok (expandTree listGrammar .standard "list" tree) ∧
    Sound listGrammar ∧ HasRoom listGrammar "list" r ∧
    ∀ d ∈ validateText .standard listGrammar again, d.severity = .error →
      d.ruleId ≠ "choice.required-group-empty" →
        ∃ k ∈ validateText .standard listGrammar listProfile,
          k.ruleId = d.ruleId ∧ k.path = d.path ∧ k.message = d.message := by
  obtain ⟨r, _, _, hr, _, hresult⟩ := accepted_entriesTree read_listProfile rfl
  have hplain : (r.elements.values.all fun rule => rule.alternatives.keys.isEmpty) = true := by
    rw [hresult]
    rfl
  have hroom : HasRoom listGrammar "list" r := by
    refine hasRoom_listGrammar fun n => ?_
    unfold ruleOf
    cases hrule : r.elements.get? n with
    | none => rfl
    | some rule =>
        have hmem := OrderedMap.mem_values_of_get? hrule
        exact List.isEmpty_iff.1 (List.all_eq_true.1 hplain rule hmem)
  have hknown : listGrammar.hasElement "list" = true := by decide
  obtain ⟨tree, htree, hexpand, hreports⟩ :=
    expand_reports_nothing_new .standard hknown hr sound_listGrammar hroom
  obtain rfl : entriesTree [(.string "list", .null)] = tree :=
    Except.ok.inj (read_listProfile.symm.trans htree)
  have hagain : Yaml.read itemsProfile = .ok (expandTree listGrammar .standard "list"
      (entriesTree [(.string "list", .null)])) := by
    rw [expandTree_list, read_itemsProfile]
  exact ⟨r, _, itemsProfile, hr, htree, hexpand, hagain, sound_listGrammar, hroom,
    hreports itemsProfile hagain⟩

/-- A grammar whose root holds either of two elements. -/
def eitherGrammar : Model :=
  ⟨.ofList [("a", ⟨"a", "a", none, [], [], [], [], ""⟩),
    ("b", ⟨"b", "b", none, [], [], [], [], ""⟩),
    ("r", ⟨"r", "r", none, [],
      [⟨"a", .zero, some .one, ["g"]⟩, ⟨"b", .zero, some .one, ["g"]⟩], [],
      [⟨"g", .one, some .one, [⟨"0", some "a", ["a"]⟩, ⟨"1", some "b", ["b"]⟩]⟩], ""⟩)],
    ∅, some "r"⟩

/-- A profile of both elements as document types. -/
def eitherFields (entries : Pairs) : Pairs :=
  [(.string "documentTypes", .sequence [.string "a", .string "b"]),
    (.string "elements", .mapping entries)]

def eitherRoot (entries : Pairs) : Pairs := [(.string "profile", .mapping (eitherFields entries))]

def eitherEntries : Pairs := [(.string "a", .null), (.string "b", .null)]

def eitherProfile : String :=
  "profile: \x7bdocumentTypes: [a, b], elements: \x7ba: , b: \x7d\x7d"

theorem read_eitherProfile : Yaml.read eitherProfile = .ok (.mapping (eitherRoot eitherEntries)) :=
  Value.read_eq_ok rfl (by decide +kernel)

/-- The root lists both elements. -/
def bothEntries : Pairs :=
  (.string "r", .mapping [(.string "children",
    .mapping [(.string "a", .string "1..1"), (.string "b", .string "1..1")])]) :: eitherEntries

def bothProfile : String := "profile: \x7bdocumentTypes: [a, b], elements: \x7br: " ++
  "\x7bchildren: \x7ba: 1..1, b: 1..1\x7d\x7d, a: , b: \x7d\x7d"

theorem read_bothProfile : Yaml.read bothProfile = .ok (.mapping (eitherRoot bothEntries)) :=
  Value.read_eq_ok String.ofList_append.symm (by decide +kernel)

theorem expandTree_either : expandTree eitherGrammar .standard "a"
    (.mapping (eitherRoot eitherEntries)) = .mapping (eitherRoot bothEntries) := by
  cbv

theorem validate_either (index : LineIndex) : validate .standard
    ⟨eitherGrammar, (Restriction.ofTree (eitherFields eitherEntries)).result, index⟩ = [] := by
  cbv

/-- Two branches of an exclusive choice that both have children are reported. -/
theorem exists_conflict {s : Subject} (name : String) {rule : ElementRule} {g : ChoiceGroup}
    (hrule : (name, rule) ∈ s.profile.elements.pairs) (hknown : s.grammar.hasElement name = true)
    (hg : g ∈ s.grammar.choiceGroups name) (hone : g.maxOccurs = some Count.one)
    (hboth : ¬g.branches.Pairwise fun a b => ¬(Active rule a ∧ Active rule b)) :
    ∃ d ∈ validate .standard s,
      d.severity = .error ∧ d.ruleId = "choice.exclusive-branch-conflict" := by
  rw [← Alternatives.clean_groupConflicts s name rule g] at hboth
  obtain ⟨d, hd, herror⟩ : ∃ d ∈ Alternatives.groupConflicts s name rule g,
      d.severity = .error := by simpa [Clean] using hboth
  have hconflict : d ∈ Alternatives.conflicts s name rule :=
    List.mem_flatMap.2 ⟨g, List.mem_filter.2 ⟨hg, by simpa [ChoiceGroup.exclusive] using hone⟩, hd⟩
  have hentry : d ∈ Alternatives.entry s name rule := by
    unfold Alternatives.entry
    rw [if_pos hknown]
    simp [hconflict]
  have hcheck : d ∈ Category.choice.check s := List.mem_flatMap.2 ⟨(name, rule), hrule, hentry⟩
  obtain ⟨k, hk, hseverity, hid, _⟩ := exists_mem_validate hcheck
  exact ⟨k, hk, hseverity.trans herror,
    hid.trans (Alternatives.reports_groupConflicts s name rule g d hd).2⟩

theorem conflict_both (index : LineIndex) : ∃ d ∈ validate .standard
    ⟨eitherGrammar, (Restriction.ofTree (eitherFields bothEntries)).result, index⟩,
      d.severity = .error ∧ d.ruleId = "choice.exclusive-branch-conflict" := by
  refine exists_conflict "r" List.mem_cons_self rfl List.mem_cons_self rfl fun h => ?_
  refine (List.pairwise_cons.1 h).1 _ List.mem_cons_self ⟨⟨"a", ?_, ?_⟩, ⟨"b", ?_, ?_⟩⟩
  all_goals decide

/-- The document types become children of the root, where they exclude each other. -/
theorem expand_breaks_either : ∃ r tree again,
    (Profile.read eitherProfile).profile = some r ∧ Yaml.read eitherProfile = .ok tree ∧
    expand eitherGrammar .standard "a" eitherProfile =
      .ok (Tree.render (expandTree eitherGrammar .standard "a" tree)) ∧
    Yaml.read again = .ok (expandTree eitherGrammar .standard "a" tree) ∧ Sound eitherGrammar ∧
    ∃ d ∈ validateText .standard eitherGrammar again, d.severity = .error ∧
      d.ruleId ≠ "choice.required-group-empty" ∧
      ∀ k ∈ validateText .standard eitherGrammar eitherProfile,
        ¬(k.ruleId = d.ruleId ∧ k.path = d.path ∧ k.message = d.message) := by
  have hflaws : (Restriction.ofTree (eitherFields eitherEntries)).flaws = [] := rfl
  have hflaws' : (Restriction.ofTree (eitherFields bothEntries)).flaws = [] := rfl
  have hbefore := Profile.read_eq_of_tree read_eitherProfile rfl hflaws
  have hafter := Profile.read_eq_of_tree read_bothProfile rfl hflaws'
  have hread := congrArg Reading.profile hbefore
  obtain ⟨root, fields, elements, h⟩ := Profile.accepted_of_read hread
  have hknown : eitherGrammar.hasElement "a" = true := by decide
  have hexpand := expand_eq_ok h .standard hknown
  rw [Except.ok.inj (h.read.symm.trans read_eitherProfile)] at hexpand
  have hagain : Yaml.read bothProfile = .ok (expandTree eitherGrammar .standard "a"
      (.mapping (eitherRoot eitherEntries))) := by
    rw [expandTree_either, read_bothProfile]
  obtain ⟨d, hd, herror, hid⟩ := conflict_both (LineIndex.ofText bothProfile)
  refine ⟨_, _, bothProfile, hread, read_eitherProfile, hexpand, hagain,
    by constructor <;> decide, d, ?_, herror, ?_, ?_⟩
  · rw [validateText_eq .standard eitherGrammar (congrArg Reading.profile hafter), hafter]
    dsimp only
    exact List.mem_append_right _ hd
  · rw [hid]
    decide
  · rw [validateText_eq .standard eitherGrammar hread, hbefore, validate_either]
    exact fun k hk => absurd hk List.not_mem_nil

end GrammarProfile.Cascade
