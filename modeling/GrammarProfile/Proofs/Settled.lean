import GrammarProfile.Proofs.Derivations
import GrammarProfile.Proofs.LocalDeclarations

/-!
What a type or an element of a schema resolves to does not depend on what was worked out before, and
neither does what it declares in passing.
-/
namespace GrammarProfile.Grammar

open GrammarProfile.Xml (Tag Node)

namespace Declarations

variable {document content : List Node} {d : Declarations} {α β : Type}

/-! ## What a complex type derives from -/

/-- The content in which a complex type derives from another one, and whether it is simple. -/
def derivation? (content : List Node) : Option (Xml.Element × Bool) :=
  match schemaElement? content "complexContent" with
  | some c => some (c, false)
  | none => (schemaElement? content "simpleContent").map (·, true)

def derive? (wrapper : Xml.Element) : Option Xml.Element :=
  (schemaElements wrapper.content).find? fun e =>
    e.tag.name == "extension" || e.tag.name == "restriction"

/-- The named complex type that a derivation refers to. -/
def baseOf? (d : Declarations) (derive : Xml.Element) : Option String :=
  match (derive.tag.attribute? "base").map (resolveTypeName derive.tag) with
  | some (.named b) => if d.complexTypes.contains b then some b else none
  | some (.builtin _) => none
  | none => none

/-- The named complex type that the content of a complex type derives from. -/
def base? (d : Declarations) (content : List Node) : Option String :=
  ((derivation? content).bind fun w => derive? w.1).bind d.baseOf?

/-- The content whose model a complex type adds to what it derives from. -/
def ownContent? (content : List Node) : Option (List Node) :=
  match derivation? content with
  | none => some content
  | some (wrapper, simple) => if simple then none else (derive? wrapper).map Xml.Element.content

/-- The type that a derivation gives, from its base and the names of all its bases. -/
def derived (d : Declarations) (derive : Xml.Element) (simple : Bool) (doc label : String)
    (base : ResolvedType × List String) : Resolving ResolvedType := do
  let attributes ← d.applyAttributes derive.content base.1.attributes
  if simple then pure ⟨.empty, attributes, [], base.2, doc⟩
  else do
    let own ← d.resolveContent derive.content
    let groups := Grammar.choiceGroups label own 0
    let doc := if doc.isEmpty then base.1.doc else doc
    if derive.tag.name == "extension" then
      pure ⟨.sequence .once [base.1.content, own], attributes, groups ++ base.1.choiceGroups,
        base.2, doc⟩
    else pure ⟨own, attributes, groups, base.2, doc⟩

/-- A base with the names of all bases. -/
def withBases (named : String → Resolving ResolvedType) :
    Option String → Resolving (ResolvedType × List String)
  | some b => do
    let base ← named b
    pure (base, b :: base.baseTypes)
  | none => pure (ResolvedType.empty, [])

theorem derivation?_eq_none (h : derivation? content = none) :
    schemaElement? content "complexContent" = none ∧ schemaElement? content "simpleContent" = none := by
  unfold derivation? at h
  cases hcomplex : schemaElement? content "complexContent" with
  | some c =>
      rw [hcomplex] at h
      cases h
  | none =>
      rw [hcomplex] at h
      exact ⟨rfl, Option.map_eq_none_iff.1 h⟩

theorem derivation?_eq_some {wrapper : Xml.Element} {simple : Bool}
    (h : derivation? content = some (wrapper, simple)) :
    (schemaElement? content "complexContent" = some wrapper ∧ simple = false) ∨
      (schemaElement? content "complexContent" = none ∧
        schemaElement? content "simpleContent" = some wrapper ∧ simple = true) := by
  unfold derivation? at h
  cases hcomplex : schemaElement? content "complexContent" with
  | some c =>
      rw [hcomplex] at h
      cases h
      exact .inl ⟨rfl, rfl⟩
  | none =>
      rw [hcomplex] at h
      obtain ⟨c, hsimple, hpair⟩ := Option.map_eq_some_iff.1 h
      cases hpair
      exact .inr ⟨rfl, hsimple, rfl⟩

variable (d) (named : String → Resolving ResolvedType) (label : String)

theorem resolveComplex_plain (h : derivation? content = none) :
    d.resolveComplex named content label = (do
      let model ← d.resolveContent content
      let attributes ← d.applyAttributes content ∅
      pure ⟨model, attributes, Grammar.choiceGroups label model 0, [], documentation content⟩) := by
  obtain ⟨hcomplex, hsimple⟩ := derivation?_eq_none h
  unfold resolveComplex
  simp only [hcomplex, hsimple, Option.map_none]

theorem resolveComplex_nothing {wrapper : Xml.Element} {simple : Bool}
    (h : derivation? content = some (wrapper, simple)) (hderive : derive? wrapper = none) :
    d.resolveComplex named content label =
      pure { ResolvedType.empty with doc := documentation content } := by
  unfold derive? at hderive
  unfold resolveComplex
  obtain ⟨hcomplex, rfl⟩ | ⟨hcomplex, hsimple, rfl⟩ := derivation?_eq_some h
  · simp only [hcomplex, hderive]
  · simp only [hcomplex, hsimple, Option.map_some, hderive]

theorem resolveComplex_derived {wrapper derive : Xml.Element} {simple : Bool}
    (h : derivation? content = some (wrapper, simple)) (hderive : derive? wrapper = some derive) :
    d.resolveComplex named content label =
      withBases named (d.baseOf? derive) >>=
        d.derived derive simple (documentation content) label := by
  unfold derive? at hderive
  unfold resolveComplex baseOf?
  obtain ⟨hcomplex, rfl⟩ | ⟨hcomplex, hsimple, rfl⟩ := derivation?_eq_some h
  case' inl => simp only [hcomplex, hderive]
  case' inr => simp only [hcomplex, hsimple, Option.map_some, hderive]
  all_goals
    cases (derive.tag.attribute? "base").map (resolveTypeName derive.tag) with
    | none => rfl
    | some name =>
        cases name with
        | builtin n => rfl
        | named b =>
            dsimp only
            split
            · rfl
            · rfl

/-- What a complex type asks of its base is all that it takes from other types. -/
theorem resolveComplex_congr {named named' : String → Resolving ResolvedType}
    (h : ∀ b, d.base? content = some b → named b = named' b) :
    d.resolveComplex named content label = d.resolveComplex named' content label := by
  cases hderivation : derivation? content with
  | none => rw [resolveComplex_plain d _ _ hderivation, resolveComplex_plain d _ _ hderivation]
  | some w =>
      obtain ⟨wrapper, simple⟩ := w
      cases hderive : derive? wrapper with
      | none =>
          rw [resolveComplex_nothing d _ _ hderivation hderive,
            resolveComplex_nothing d _ _ hderivation hderive]
      | some derive =>
          rw [resolveComplex_derived d _ _ hderivation hderive,
            resolveComplex_derived d _ _ hderivation hderive]
          have hbase : d.base? content = d.baseOf? derive := by
            rw [base?, hderivation, Option.bind_some, hderive, Option.bind_some]
          rw [hbase] at h
          cases hb : d.baseOf? derive with
          | none => rfl
          | some b => rw [withBases, withBases, h b hb]

/-! ## What is declared in passing -/

/-- The elements that the own content of a complex type declares in passing. -/
def ownElements (content : List Node) : List (String × Xml.Element) :=
  ((ownContent? content).map d.contentElements).getD []

/-- A complex type derives from a named one. -/
def Derives (a b : String) : Prop :=
  ∃ e, d.complexTypes.get? a = some e ∧ d.base? e.content = some b

/-- A named complex type or one that it derives from declares an element in passing. -/
inductive Declares : String → String × Xml.Element → Prop
  | own {name : String} {e : Xml.Element} {p : String × Xml.Element}
      (he : d.complexTypes.get? name = some e) (hp : p ∈ d.ownElements e.content) : Declares name p
  | inherited {name b : String} {e : Xml.Element} {p : String × Xml.Element}
      (he : d.complexTypes.get? name = some e) (hb : d.base? e.content = some b)
      (hp : Declares b p) : Declares name p

/-- An element declared in passing is known, or there is a global one of its name. -/
def Noted (s : Findings) (p : String × Xml.Element) : Prop :=
  d.elements.contains p.1 = true ∨ s.locals.get? p.1 = some p.2

/-- An element that is declared in passing, and no global one has its name. -/
structure InPassing (document : List Node) (name : String) (e : Xml.Element) : Prop where
  inside : DeclaredInside document name e
  notGlobal : d.elements.contains name = false

/-- Nothing found so far depends on the order in which it was asked for. -/
structure Settled (document : List Node) (F : String → Facets) (T : String → ResolvedType)
    (s : Findings) : Prop where
  facets : KnownFacets F s.facets
  types : ∀ name t, s.types.get? name = some t → t = T name ∧ ∀ p, d.Declares name p → d.Noted s p
  locals : ∀ name e, s.locals.get? name = some e → d.InPassing document name e

/-- A step comes to the same result from all settled findings, and notes what is in `D`. -/
def Yields (document : List Node) (F : String → Facets) (T : String → ResolvedType)
    (step : Resolving α) (a : α) (D : Set (String × Xml.Element)) : Prop :=
  ∀ s, d.Settled document F T s → After step s fun b s' =>
    b = a ∧ d.Settled document F T s' ∧ ∀ p, d.Noted s' p ↔ d.Noted s p ∨ p ∈ D

namespace Yields

variable {d} {F : String → Facets} {T : String → ResolvedType} {step : Resolving α} {a : α} {b : β}
  {D E : Set (String × Xml.Element)}

theorem pure : d.Yields document F T (Pure.pure a) a ∅ :=
  fun _ hs => .pure ⟨rfl, hs, fun _ => (or_iff_left id).symm⟩

theorem bind {next : α → Resolving β} (h : d.Yields document F T step a D)
    (hnext : d.Yields document F T (next a) b E) :
    d.Yields document F T (step >>= next) b (D ∪ E) := by
  intro s hs
  refine (h s hs).bind ?_
  rintro _ s' ⟨rfl, hs', hD⟩
  refine (hnext s' hs').mono ?_
  rintro _ s'' ⟨rfl, hs'', hE⟩
  refine ⟨rfl, hs'', fun p => ?_⟩
  rw [hE, hD, or_assoc, Set.mem_union]

/-- A step that notes nothing before another one. -/
theorem bind_silent {next : α → Resolving β} (h : d.Yields document F T step a ∅)
    (hnext : d.Yields document F T (next a) b E) : d.Yields document F T (step >>= next) b E := by
  have hboth := h.bind hnext
  rwa [Set.empty_union] at hboth

/-- A step before one that notes nothing. -/
theorem bind_pure {next : α → Resolving β} (h : d.Yields document F T step a D)
    (hnext : d.Yields document F T (next a) b ∅) : d.Yields document F T (step >>= next) b D := by
  have hboth := h.bind hnext
  rwa [Set.union_empty] at hboth

theorem foldlM {items : List β} {round : α → β → Resolving α}
    (h : ∀ a, ∀ b ∈ items, ∃ a', d.Yields document F T (round a b) a' ∅) (a : α) :
    ∃ a', d.Yields document F T (items.foldlM round a) a' ∅ := by
  induction items generalizing a with
  | nil => exact ⟨a, .pure⟩
  | cons b rest ih =>
      obtain ⟨a₁, h₁⟩ := h a b List.mem_cons_self
      obtain ⟨a₂, h₂⟩ := ih (fun a c hc => h a c (List.mem_cons_of_mem _ hc)) a₁
      exact ⟨a₂, by rw [List.foldlM_cons]; exact h₁.bind_silent h₂⟩

end Yields

/-! ## Attributes -/

section

variable {d} {F : String → Facets} {T : String → ResolvedType}

theorem yields_facets {step : StateM Facets.Known Facets} {f : Facets}
    (h : ∀ known, KnownFacets F known → After step known fun g s => g = f ∧ KnownFacets F s) :
    d.Yields document F T (do
      let s ← get
      let (f, known) := step.run s.facets
      set { s with facets := known }
      Pure.pure f) f ∅ := by
  intro s hs
  obtain ⟨hf, hknown⟩ := h s.facets hs.facets
  exact ⟨hf, ⟨hknown, hs.types, hs.locals⟩, fun _ => (or_iff_left id).symm⟩

theorem yields_lookupFacets (hF : d.SolvesFacets F) (h : Acyclic d.Restricts) (name : String) :
    d.Yields document F T (d.lookupFacets name) (F name) ∅ :=
  yields_facets fun _ hknown => after_simpleFacets_eq hF h name hknown

theorem yields_inlineFacets (hF : d.SolvesFacets F) (h : Acyclic d.Restricts) (content : List Node) :
    ∃ f, d.Yields document F T (d.inlineFacets content) f ∅ :=
  ⟨_, yields_facets fun known hknown => Facets.after_ofInlineType_eq (F := F) ∅ content
    (fun b _ _ hs => after_simpleFacets_eq hF h b hs) known hknown⟩

theorem yields_attributeRule? (hF : d.SolvesFacets F) (h : Acyclic d.Restricts) (e : Xml.Element) :
    ∃ rule, d.Yields document F T (d.attributeRule? e) rule ∅ := by
  unfold attributeRule?
  dsimp only
  split
  · exact ⟨_, .pure⟩
  · split
    · exact ⟨_, .pure⟩
    · split
      · exact ⟨_, ((yields_lookupFacets hF h _).bind_silent .pure).bind_silent .pure⟩
      · exact ⟨_, Yields.pure.bind_silent .pure⟩
      · obtain ⟨f, hf⟩ := yields_inlineFacets hF h _
        exact ⟨_, (hf.bind_silent .pure).bind_silent .pure⟩

theorem yields_applyAttributes (hF : d.SolvesFacets F) (h : Acyclic d.Restricts)
    (content : List Node) (inherited : OrderedMap Attribute) :
    ∃ attributes, d.Yields document F T (d.applyAttributes content inherited) attributes ∅ := by
  refine Yields.foldlM (fun attributes e _ => ?_) inherited
  obtain ⟨rule, hrule⟩ : ∃ rule, d.Yields document F T (d.attributeRule? e) rule ∅ :=
    yields_attributeRule? hF h e
  cases rule with
  | none => exact ⟨_, hrule.bind_silent .pure⟩
  | some rule =>
      cases rule with
      | declared a => exact ⟨_, hrule.bind_silent .pure⟩
      | prohibited name => exact ⟨_, hrule.bind_silent .pure⟩

/-! ## Types -/

/-- No name is declared in passing by two different elements. -/
def UniqueLocals (document : List Node) : Prop :=
  ∀ name e f, DeclaredInside document name e → DeclaredInside document name f → e = f

/-- A schema whose contents stand in a document, with the facets of its simple types. -/
structure Basis (document : List Node) (d : Declarations) (F : String → Facets) : Prop where
  grounded : d.Grounded document
  locals : UniqueLocals document
  facets : d.SolvesFacets F
  restrictions : Acyclic d.Restricts

/-- Elements declared in passing are noted, whichever comes first. -/
theorem noted_foldl (hlocals : UniqueLocals document) {declared : List (String × Xml.Element)}
    (hdeclared : ∀ p ∈ declared, DeclaredInside document p.1 p.2) (known : OrderedMap Xml.Element)
    (hknown : ∀ name e, known.get? name = some e → d.InPassing document name e) :
    ∃ locals, declared.foldl (fun known (p : String × Xml.Element) =>
        if d.elements.contains p.1 || known.contains p.1 then known else known.insert p.1 p.2)
        known = locals ∧
      (∀ name e, locals.get? name = some e → d.InPassing document name e) ∧
      ∀ p : String × Xml.Element,
        (d.elements.contains p.1 = true ∨ locals.get? p.1 = some p.2) ↔
          (d.elements.contains p.1 = true ∨ known.get? p.1 = some p.2) ∨ p ∈ declared := by
  induction declared generalizing known with
  | nil =>
      refine ⟨known, rfl, hknown, fun p => ?_⟩
      rw [or_iff_left List.not_mem_nil]
  | cons q rest ih =>
      have hrest := ih fun p hp => hdeclared p (List.mem_cons_of_mem _ hp)
      have hq := hdeclared q List.mem_cons_self
      rw [List.foldl_cons]
      split
      · next hseen =>
        obtain ⟨locals, hfold, hinside, hnoted⟩ := hrest known hknown
        refine ⟨locals, hfold, hinside, fun p => ?_⟩
        have hqnoted : d.elements.contains q.1 = true ∨ known.get? q.1 = some q.2 := by
          rw [Bool.or_eq_true, OrderedMap.contains_iff_get? (m := known)] at hseen
          refine hseen.imp_right ?_
          rintro ⟨e, he⟩
          rw [he, hlocals q.1 e q.2 (hknown q.1 e he).inside hq]
        rw [hnoted, List.mem_cons]
        refine ⟨Or.imp_right .inr, ?_⟩
        rintro (h | rfl | h)
        · exact .inl h
        · exact .inl hqnoted
        · exact .inr h
      · next hnew =>
        rw [Bool.or_eq_true, not_or, OrderedMap.contains_iff_get? (m := known), not_exists] at hnew
        have hinsert : ∀ p : String × Xml.Element, (known.insert q.1 q.2).get? p.1 = some p.2 ↔
            p = q ∨ known.get? p.1 = some p.2 := by
          intro p
          rw [OrderedMap.get?_insert]
          split
          · next hname =>
            rw [hname, or_iff_left (hnew.2 p.2), Prod.ext_iff, Option.some.injEq]
            exact ⟨fun h => ⟨hname, h.symm⟩, fun h => h.2.symm⟩
          · next hname => rw [or_iff_right fun h => hname (congrArg Prod.fst h)]
        obtain ⟨locals, hfold, hinside, hnoted⟩ := hrest (known.insert q.1 q.2) fun name e he => by
          obtain rfl | he := (hinsert (name, e)).1 he
          · exact ⟨hq, Bool.not_eq_true _ ▸ hnew.1⟩
          · exact hknown name e he
        refine ⟨locals, hfold, hinside, fun p => ?_⟩
        rw [hnoted, hinsert, List.mem_cons]
        tauto

variable {label : String}

theorem yields_resolveContent (hd : Basis document d F) (hcontent : Within document content) :
    d.Yields document F T (d.resolveContent content) (d.contentModel content)
      {p | p ∈ d.contentElements content} := by
  intro s hs
  obtain ⟨locals, hfold, hinside, hnoted⟩ := noted_foldl (d := d) hd.locals
    (fun p hp => declaredInside_contentElements hd.grounded hcontent hp) s.locals hs.locals
  have hsettled : d.Settled document F T { s with locals := locals } :=
    ⟨hs.facets, fun name t ht => ⟨(hs.types name t ht).1, fun p hp =>
      (hnoted p).2 (.inl ((hs.types name t ht).2 p hp))⟩, hinside⟩
  refine (After.modified (Q := fun _ s' => s' = { s with locals := locals }) ?_).bind ?_
  · exact congrArg (fun locals => { s with locals := locals }) hfold
  rintro _ _ rfl
  exact .pure ⟨rfl, hsettled, hnoted⟩

theorem yields_derived (hd : Basis document d F) {derive : Xml.Element}
    (hcontent : Within document derive.content) (simple : Bool) (doc label : String)
    (base : ResolvedType × List String) :
    ∃ t, d.Yields document F T (d.derived derive simple doc label base) t
      {p | p ∈ if simple then [] else d.contentElements derive.content} := by
  obtain ⟨attributes, hattributes⟩ : ∃ attributes, d.Yields document F T
      (d.applyAttributes derive.content base.1.attributes) attributes ∅ :=
    yields_applyAttributes hd.facets hd.restrictions _ _
  unfold derived
  cases simple with
  | true =>
      simp only [if_true, List.not_mem_nil, Set.ofPred_false]
      exact ⟨_, hattributes.bind_silent .pure⟩
  | false =>
      have hown := yields_resolveContent (T := T) hd hcontent
      simp only [Bool.false_eq_true, if_false]
      split
      · exact ⟨_, hattributes.bind_silent (hown.bind_pure .pure)⟩
      · exact ⟨_, hattributes.bind_silent (hown.bind_pure .pure)⟩

/-- The base of a complex type with the names of all its bases. -/
def basesBy (T : String → ResolvedType) : Option String → ResolvedType × List String
  | some b => (T b, b :: (T b).baseTypes)
  | none => (ResolvedType.empty, [])

theorem yields_withBases {named : String → Resolving ResolvedType} {D : String → Set (String × Xml.Element)}
    {base : Option String} (h : ∀ b, base = some b → d.Yields document F T (named b) (T b) (D b)) :
    d.Yields document F T (withBases named base) (basesBy T base) {p | ∃ b, base = some b ∧ p ∈ D b} := by
  cases base with
  | none =>
      have hempty : {p | ∃ b, none = some b ∧ p ∈ D b} = ∅ := by simp
      rw [hempty]
      exact .pure
  | some b =>
      have hsome : {p | ∃ b', some b = some b' ∧ p ∈ D b'} = D b := by simp
      rw [hsome]
      exact (h b rfl).bind_pure .pure

/-- What a complex type resolves to is the same for all ways to find its base. -/
theorem yields_resolveComplex (hd : Basis document d F) (hcontent : Within document content)
    (label : String) : ∃ t, ∀ (named : String → Resolving ResolvedType)
      (D : String → Set (String × Xml.Element)),
      (∀ b, d.base? content = some b → d.Yields document F T (named b) (T b) (D b)) →
      d.Yields document F T (d.resolveComplex named content label) t
        ({p | ∃ b, d.base? content = some b ∧ p ∈ D b} ∪ {p | p ∈ d.ownElements content}) := by
  cases hderivation : derivation? content with
  | none =>
      obtain ⟨attributes, hattributes⟩ : ∃ attributes,
          d.Yields document F T (d.applyAttributes content ∅) attributes ∅ :=
        yields_applyAttributes hd.facets hd.restrictions content ∅
      have hbase : d.base? content = none := by rw [base?, hderivation]; rfl
      have hown : d.ownElements content = d.contentElements content := by
        rw [ownElements, ownContent?, hderivation]
        rfl
      refine ⟨⟨d.contentModel content, attributes,
        Grammar.choiceGroups label (d.contentModel content) 0, [], documentation content⟩,
        fun named D _ => ?_⟩
      rw [resolveComplex_plain d named label hderivation, hbase, hown]
      simp only [reduceCtorEq, false_and, exists_false, Set.ofPred_false, Set.empty_union]
      exact (yields_resolveContent hd hcontent).bind_pure (hattributes.bind_silent .pure)
  | some w =>
      obtain ⟨wrapper, simple⟩ := w
      cases hderive : derive? wrapper with
      | none =>
          have hbase : d.base? content = none := by
            rw [base?, hderivation, Option.bind_some, hderive]
            rfl
          have hown : d.ownElements content = [] := by
            cases simple <;> simp [ownElements, ownContent?, hderivation, hderive]
          refine ⟨{ ResolvedType.empty with doc := documentation content }, fun named D _ => ?_⟩
          rw [resolveComplex_nothing d named label hderivation hderive, hbase, hown]
          simp only [reduceCtorEq, false_and, exists_false, Set.ofPred_false, List.not_mem_nil,
            Set.empty_union]
          exact .pure
      | some derive =>
          have hbase : d.base? content = d.baseOf? derive := by
            rw [base?, hderivation, Option.bind_some, hderive, Option.bind_some]
          have hown : d.ownElements content =
              if simple then [] else d.contentElements derive.content := by
            cases simple <;> simp [ownElements, ownContent?, hderivation, hderive]
          have hinner : Within document derive.content := by
            refine Within.of_mem ?_ (List.mem_of_find?_eq_some hderive)
            obtain ⟨hcomplex, -⟩ | ⟨-, hsimple, -⟩ := derivation?_eq_some hderivation
            · exact hcontent.schemaElement? hcomplex
            · exact hcontent.schemaElement? hsimple
          obtain ⟨t, ht⟩ := yields_derived (T := T) hd hinner simple (documentation content) label
            (basesBy T (d.baseOf? derive))
          refine ⟨t, fun named D hnamed => ?_⟩
          rw [resolveComplex_derived d named label hderivation hderive, hbase, hown]
          rw [hbase] at hnamed
          exact (yields_withBases hnamed).bind ht

/-- The type that a declaration resolves to by the types that it derives from. -/
def typeBy (d : Declarations) (T : String → ResolvedType) (name : String) : ResolvedType :=
  match d.complexTypes.get? name with
  | none => .empty
  | some e => ((d.resolveComplex (fun b => pure (T b)) e.content name).run .none).1

/-- Types that follow the derivations of complex types. -/
def SolvesTypes (d : Declarations) (T : String → ResolvedType) : Prop :=
  ∀ name, T name = d.typeBy T name

theorem exists_types (h : Acyclic d.Derives) : ∃ T, d.SolvesTypes T := by
  have hkeys : ∀ a b, d.Derives a b → a ∈ d.complexTypes.keys := fun a b hab =>
    OrderedMap.get?_isSome.1 (Option.isSome_iff_exists.2 ⟨_, hab.choose_spec.1⟩)
  refine exists_solution (h.wellFounded hkeys) d.typeBy fun T T' a hagree => ?_
  unfold typeBy
  cases he : d.complexTypes.get? a with
  | none => rfl
  | some e =>
      have hcongr : d.resolveComplex (fun b => pure (T b)) e.content a =
          d.resolveComplex (fun b => pure (T' b)) e.content a :=
        d.resolveComplex_congr a fun b hb => congrArg pure (hagree b ⟨e, he, hb⟩)
      exact congrArg (fun step : Resolving ResolvedType => (step.run .none).1) hcongr

theorem settled_none : d.Settled document F T .none :=
  ⟨fun _ _ h => absurd h (Option.some_ne_none _).symm, fun _ _ h => absurd h (Option.some_ne_none _).symm,
    fun _ _ h => absurd h (Option.some_ne_none _).symm⟩

/-- From settled findings a complex type comes to what its rule says. -/
theorem yields_declared (hd : Basis document d F) (hT : d.SolvesTypes T) {name : String}
    {e : Xml.Element} (he : d.complexTypes.get? name = some e)
    {named : String → Resolving ResolvedType}
    (hnamed : ∀ b, d.base? e.content = some b →
      d.Yields document F T (named b) (T b) {p | d.Declares b p}) :
    d.Yields document F T (d.resolveComplex named e.content name) (T name) {p | d.Declares name p} := by
  obtain ⟨t, ht⟩ := yields_resolveComplex (T := T) hd (hd.grounded.complexTypes name e he) name
  have hvalue : T name = t := by
    have hpure := ht (fun b => pure (T b)) (fun _ => ∅) (fun _ _ => .pure) .none settled_none
    have hrule := hT name
    unfold typeBy at hrule
    rw [he] at hrule
    exact hrule.trans hpure.1
  have hset : {p | d.Declares name p} =
      {p | ∃ b, d.base? e.content = some b ∧ d.Declares b p} ∪ {p | p ∈ d.ownElements e.content} := by
    ext p
    refine ⟨fun hp => ?_, ?_⟩
    · cases hp with
      | own he' hp =>
          rw [he] at he'
          cases he'
          exact .inr hp
      | inherited he' hb hp =>
          rw [he] at he'
          cases he'
          exact .inl ⟨_, hb, hp⟩
    · rintro (⟨b, hb, hp⟩ | hp)
      · exact .inherited he hb hp
      · exact .own he hp
  rw [hvalue, hset]
  exact ht named _ hnamed

theorem yields_resolveType (hd : Basis document d F) (hT : d.SolvesTypes T)
    (hderivations : Acyclic d.Derives) (fuel : Nat) : ∀ (opened : List String) (name : String),
    Way d.Derives d.complexTypes.keys opened name →
    d.complexTypes.keys.length < fuel + opened.length →
    d.Yields document F T (d.resolveType fuel opened name) (T name) {p | d.Declares name p} := by
  induction fuel with
  | zero =>
      intro opened name hway hfuel
      have hle := hway.length_le
      omega
  | succ fuel ih =>
      intro opened name hway hfuel s hs
      unfold resolveType
      refine (After.get (Q := fun a s' => a = s ∧ s' = s) ⟨rfl, rfl⟩).bind ?_
      rintro _ _ ⟨rfl, rfl⟩
      split
      · next t ht =>
        obtain ⟨rfl, hnoted⟩ := hs.types name t ht
        exact .pure ⟨rfl, hs, fun p => ⟨.inl, fun h => h.elim id (hnoted p)⟩⟩
      · split
        · next hnone =>
          have hempty : ∀ p, ¬d.Declares name p := by
            intro p hp
            cases hp with
            | own he _ => rw [hnone] at he; cases he
            | inherited he _ _ => rw [hnone] at he; cases he
          have hrule := hT name
          unfold typeBy at hrule
          rw [hnone] at hrule
          exact .pure ⟨hrule.symm, hs, fun p => (or_iff_left (hempty p)).symm⟩
        · next e he =>
          have hname : name ∈ d.complexTypes.keys :=
            OrderedMap.get?_isSome.1 (Option.isSome_iff_exists.2 ⟨e, he⟩)
          rw [if_neg (by simpa using hway.not_mem hderivations)]
          have hcomplex : d.Yields document F T
              (d.resolveComplex (d.resolveType fuel (name :: opened)) e.content name) (T name)
              {p | d.Declares name p} :=
            yields_declared hd hT he fun b hb =>
              ih (name :: opened) b (hway.cons hderivations hname ⟨e, he, hb⟩)
                (by rw [List.length_cons]; omega)
          refine (hcomplex _ hs).bind ?_
          rintro _ s₁ ⟨rfl, hs₁, hnoted⟩
          refine (After.modified (Q := fun _ s₂ => d.Settled document F T s₂ ∧ s₂.locals = s₁.locals)
            ⟨⟨hs₁.facets, fun n t ht => ?_, hs₁.locals⟩, rfl⟩).bind ?_
          · rw [OrderedMap.get?_insert] at ht
            split at ht
            · next hn =>
              subst hn
              exact ⟨(Option.some.inj ht).symm, fun p hp => (hnoted p).2 (.inr hp)⟩
            · exact hs₁.types n t ht
          · rintro _ s₂ ⟨hs₂, hlocals⟩
            refine .pure ⟨rfl, hs₂, fun p => ?_⟩
            rw [← hnoted, Noted, Noted, hlocals]

theorem yields_complexType (hd : Basis document d F) (hT : d.SolvesTypes T)
    (hderivations : Acyclic d.Derives) (name : String) :
    d.Yields document F T (d.complexType name) (T name) {p | d.Declares name p} := by
  have hsize : d.complexTypes.keys.length <
      d.complexTypes.size + 1 + ([] : List String).length := by
    rw [OrderedMap.keys, List.length_map]
    exact Nat.lt_succ_self _
  exact yields_resolveType hd hT hderivations _ [] name .nil hsize

/-- An element comes to one result, and declares the same elements in passing, whatever was
resolved before it. -/
theorem yields_resolveElement (hd : Basis document d F) (hT : d.SolvesTypes T)
    (hderivations : Acyclic d.Derives) (name : String) {e : Xml.Element}
    (he : Within document e.content) :
    ∃ v D, d.Yields document F T (d.resolveElement name e) v D := by
  have hnamed : ∀ b, d.Yields document F T (d.complexType b) (T b) {p | d.Declares b p} :=
    fun b => yields_complexType hd hT hderivations b
  unfold resolveElement
  dsimp only
  split
  · split
    · split
      · exact ⟨_, _, ((hnamed _).bind_pure .pure).bind_pure .pure⟩
      · exact ⟨_, _, Yields.pure.bind_pure .pure⟩
    · exact ⟨_, _, Yields.pure.bind_pure .pure⟩
  · split
    · next inline hinline =>
      obtain ⟨t, ht⟩ := yields_resolveComplex (T := T) hd (he.schemaElement? hinline) name
      exact ⟨_, _, ((ht d.complexType _ fun b _ => hnamed b).bind_pure .pure).bind_pure .pure⟩
    · exact ⟨_, _, Yields.pure.bind_pure .pure⟩

end

end Declarations

end GrammarProfile.Grammar
