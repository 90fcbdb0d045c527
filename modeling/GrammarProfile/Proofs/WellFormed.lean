import GrammarProfile.Proofs.Declared
import GrammarProfile.Proofs.Loaded
import GrammarProfile.Proofs.Selections

/-!
Every loaded model is well formed: its choice groups lie within the children of their element, its
enumerations have values, and a child without an entry of its own comes from a reference that names
no element.
-/
namespace GrammarProfile.Grammar

open GrammarProfile.Xml (Tag Node)

variable {α β σ : Type} {document content : List Node} {d : Declarations} {s s' : Findings}

/-! ## What holds after a step -/

/-- What a step comes to from a state. -/
def After (step : StateM σ α) (s : σ) (Q : α → σ → Prop) : Prop :=
  Q (step.run s).1 (step.run s).2

namespace After

variable {step : StateM σ α} {s : σ} {P Q : α → σ → Prop}

theorem pure {a : α} (h : Q a s) : After (Pure.pure a) s Q := h

theorem bind {next : α → StateM σ β} {Q : β → σ → Prop} (h : After step s P)
    (hnext : ∀ a s', P a s' → After (next a) s' Q) : After (step >>= next) s Q := hnext _ _ h

theorem get {Q : σ → σ → Prop} (h : Q s s) : After MonadState.get s Q := h

theorem modified {f : σ → σ} {Q : PUnit → σ → Prop} (h : Q ⟨⟩ (f s)) : After (modify f) s Q := h

theorem mono (h : After step s P) (hPQ : ∀ a s', P a s' → Q a s') : After step s Q := hPQ _ _ h

/-- What each round of a loop keeps holds after the loop. -/
theorem foldlM {items : List β} {round : α → β → StateM σ α} {a : α} (ha : Q a s)
    (h : ∀ a s, ∀ b ∈ items, Q a s → After (round a b) s Q) :
    After (items.foldlM round a) s Q := by
  induction items generalizing a s with
  | nil => exact ha
  | cons b rest ih =>
      rw [List.foldlM_cons]
      refine (h a s b List.mem_cons_self ha).bind fun a' s' ha' => ?_
      exact ih ha' fun a s c hc => h a s c (List.mem_cons_of_mem _ hc)

end After

/-! ## Enumerations have values -/

namespace Facets

/-- An enumeration has at least one value. -/
def Filled (f : Facets) : Prop := ∀ values, f.enums = some values → values ≠ []

def AllFilled (known : Known) : Prop := ∀ p ∈ known.pairs, p.2.Filled

theorem filled_none : Facets.none.Filled := fun _ h => nomatch h

theorem Filled.restrict {inherited : Facets} (h : inherited.Filled) (content : List Node) :
    (restrict inherited content).Filled := by
  intro values hvalues
  unfold Facets.restrict at hvalues
  dsimp only at hvalues
  split at hvalues
  · exact h values hvalues
  · next hsome =>
    cases hvalues
    exact fun hnil => hsome (List.isEmpty_iff.2 hnil)

section

variable {named : String → StateM Known Facets}

mutual

theorem after_ofSimpleType
    (hnamed : ∀ name s, AllFilled s → After (named name) s fun f s' => f.Filled ∧ AllFilled s') :
    ∀ (content : List Node) (s : Known), AllFilled s →
      After (ofSimpleType named content) s fun f s' => f.Filled ∧ AllFilled s'
  | [], s, hs => by
      unfold ofSimpleType
      exact .pure ⟨filled_none, hs⟩
  | .element tag inner :: rest, s, hs => by
      have hinline := after_ofInlineType hnamed inner s hs
      unfold ofSimpleType
      split
      · split
        · split
          · exact (hnamed _ s hs).bind fun f s' h => .pure ⟨h.1.restrict inner, h.2⟩
          · exact .pure ⟨filled_none.restrict inner, hs⟩
        · exact hinline.bind fun f s' h => .pure ⟨h.1.restrict inner, h.2⟩
      · exact after_ofSimpleType hnamed rest s hs
  | .text _ :: rest, s, hs => by
      unfold ofSimpleType
      exact after_ofSimpleType hnamed rest s hs
  | .remark :: rest, s, hs => by
      unfold ofSimpleType
      exact after_ofSimpleType hnamed rest s hs

theorem after_ofInlineType
    (hnamed : ∀ name s, AllFilled s → After (named name) s fun f s' => f.Filled ∧ AllFilled s') :
    ∀ (content : List Node) (s : Known), AllFilled s →
      After (ofInlineType named content) s fun f s' => f.Filled ∧ AllFilled s'
  | [], s, hs => by
      unfold ofInlineType
      exact .pure ⟨filled_none, hs⟩
  | .element tag inner :: rest, s, hs => by
      unfold ofInlineType
      split
      · exact after_ofSimpleType hnamed inner s hs
      · exact after_ofInlineType hnamed rest s hs
  | .text _ :: rest, s, hs => by
      unfold ofInlineType
      exact after_ofInlineType hnamed rest s hs
  | .remark :: rest, s, hs => by
      unfold ofInlineType
      exact after_ofInlineType hnamed rest s hs

end

end

end Facets

namespace Declarations

theorem after_facetsOf (d : Declarations) (fuel : ℕ) :
    ∀ (opened : List String) (name : String) (s : Facets.Known), Facets.AllFilled s →
      After (d.facetsOf fuel opened name) s fun f s' => f.Filled ∧ Facets.AllFilled s' := by
  induction fuel with
  | zero => exact fun _ _ s hs => .pure ⟨Facets.filled_none, hs⟩
  | succ fuel ih =>
      intro opened name s hs
      unfold facetsOf
      refine (After.get (Q := fun a s' => a = s ∧ s' = s) ⟨rfl, rfl⟩).bind ?_
      rintro _ _ ⟨rfl, rfl⟩
      split
      · next f hf => exact .pure ⟨hs _ (OrderedMap.get?_eq_some_iff.1 hf), hs⟩
      · split
        · exact .pure ⟨Facets.filled_none, hs⟩
        · split
          · exact .pure ⟨Facets.filled_none, hs⟩
          · refine (Facets.after_ofSimpleType (ih _) _ _ hs).bind fun f s' h => ?_
            refine (After.modified (Q := fun _ s'' => Facets.AllFilled s'') fun p hp => ?_).bind
              fun _ _ hfilled => .pure ⟨h.1, hfilled⟩
            rcases mem_setPair hp with rfl | hp
            · exact h.1
            · exact h.2 p hp

end Declarations

/-! ## Choice groups -/

/-- A choice group has branches, all of them with members, which are numbered in order; its
members are those of the branches. -/
structure ChoiceGroup.WellFormed (g : ChoiceGroup) : Prop where
  branches : g.branches ≠ []
  members : ∀ b ∈ g.branches, b.elements ≠ []
  ids : g.branches.map Branch.branchId =
    (List.range g.branches.length).map fun i => "branch_" ++ toString i
  union : ∀ n, n ∈ g.allElements ↔ ∃ b ∈ g.branches, n ∈ b.elements

theorem mem_allElements {g : ChoiceGroup} {n : String} :
    n ∈ g.allElements ↔ ∃ b ∈ g.branches, n ∈ b.elements := by
  rw [ChoiceGroup.allElements, Text.mem_nameSet, List.mem_flatMap]

theorem branches_ne_nil_of_mem_numberGroups {typeName : String} {g : ChoiceGroup}
    {sites : List ChoiceSite} {start : ℕ} (h : g ∈ numberGroups typeName start sites) :
    g.branches ≠ [] := by
  induction sites generalizing start with
  | nil => exact absurd h List.not_mem_nil
  | cons site rest ih =>
      rw [numberGroups] at h
      split at h
      · exact ih h
      · next hne =>
        rcases List.mem_cons.1 h with rfl | h
        · exact hne
        · exact ih h

theorem branchIds_branchesOf (items : List Particle) :
    (branchesOf items).map Branch.branchId =
      (List.range (branchesOf items).length).map fun i => "branch_" ++ toString i := by
  apply List.ext_getElem
  · simp
  · intro i h h'
    simp [branchesOf]

theorem wellFormed_of_mem_choiceGroups {typeName : String} {p : Particle} {start : ℕ}
    {g : ChoiceGroup} (hg : g ∈ choiceGroups typeName p start) :
    g.WellFormed ∧ ∀ n ∈ g.allElements, n ∈ p.mentions := by
  obtain ⟨c, hc, hbranches, -, -⟩ := Particle.placement_of_mem_choiceGroups hg
  refine ⟨⟨branches_ne_nil_of_mem_numberGroups hg, fun b hb hnil => ?_, ?_, fun n => mem_allElements⟩,
    fun n hn => ?_⟩
  · have helements := List.mem_map_of_mem (f := Branch.elements) (hbranches ▸ hb)
    rw [elements_branchesOf] at helements
    obtain ⟨q, hq, hset⟩ := List.mem_map.1 helements
    have hmentions : q.mentions = [] := Text.nameSet_eq_nil.1 (hset.trans hnil)
    have hsome := (List.mem_filter.1 hq).2
    rw [hmentions] at hsome
    exact absurd hsome (by decide)
  · rw [hbranches]
    exact branchIds_branchesOf c.items
  · obtain ⟨b, hb, hnb⟩ := mem_allElements.1 hn
    exact hc.sublist_mentions.subset (mem_branchesOf.1 ⟨b, hbranches ▸ hb, hnb⟩)

/-! ## Types -/

/-- Names that a content model can have: those of global elements, of elements that were met as
declared in passing, and those that are referred to. -/
def Known (document : List Node) (d : Declarations) (s : Findings) (n : String) : Prop :=
  d.elements.contains n = true ∨ n ∈ s.locals.keys ∨ Referred document n

/-- A type whose content model has known names only, and choice groups inside it. -/
structure ResolvedType.Sound (known : String → Prop) (t : ResolvedType) : Prop where
  names : ∀ n ∈ t.content.mentions, known n
  groups : ∀ g ∈ t.choiceGroups, g.WellFormed ∧ ∀ n ∈ g.allElements, n ∈ t.content.mentions

theorem ResolvedType.Sound.mono {known known' : String → Prop} {t : ResolvedType}
    (h : t.Sound known) (hknown : ∀ n, known n → known' n) : t.Sound known' :=
  ⟨fun n hn => hknown n (h.names n hn), h.groups⟩

theorem ResolvedType.sound_empty (known : String → Prop) {attributes : OrderedMap Attribute}
    {baseTypes : List String} {doc : String} :
    ResolvedType.Sound known ⟨.empty, attributes, [], baseTypes, doc⟩ := by
  refine ⟨fun n hn => ?_, fun g hg => absurd hg List.not_mem_nil⟩
  simp [Particle.empty, Particle.mentions, Particle.mentionsOf] at hn

/-- An extension adds to its base, with the choice groups of both. -/
theorem ResolvedType.Sound.extended {known : String → Prop} {base own : ResolvedType}
    (hbase : base.Sound known) (hown : own.Sound known) {attributes : OrderedMap Attribute}
    {baseTypes : List String} {doc : String} :
    ResolvedType.Sound known ⟨.sequence .once [base.content, own.content], attributes,
      own.choiceGroups ++ base.choiceGroups, baseTypes, doc⟩ := by
  have hmentions : ∀ n, n ∈ (Particle.sequence .once [base.content, own.content]).mentions ↔
      n ∈ base.content.mentions ∨ n ∈ own.content.mentions := by
    intro n
    simp [Particle.mentions, Particle.mentionsOf]
  refine ⟨fun n hn => ?_, fun g hg => ?_⟩
  · exact ((hmentions n).1 hn).elim (hbase.names n) (hown.names n)
  · rcases List.mem_append.1 hg with hg | hg
    · exact ⟨(hown.groups g hg).1, fun n hn => (hmentions n).2 (.inr ((hown.groups g hg).2 n hn))⟩
    · exact ⟨(hbase.groups g hg).1, fun n hn => (hmentions n).2 (.inl ((hbase.groups g hg).2 n hn))⟩

/-- Findings in which all types are sound, all enumerations have values, and every element noted
as declared in passing is one of the document. -/
structure Findings.Sound (document : List Node) (d : Declarations) (s : Findings) : Prop where
  types : ∀ p ∈ s.types.pairs, p.2.Sound (Known document d s)
  facets : Facets.AllFilled s.facets
  locals : ∀ p ∈ s.locals.pairs, DeclaredAs document p.1 p.2

/-- Sound findings that come after others: no element declared in passing is forgotten. -/
structure Later (document : List Node) (d : Declarations) (s s' : Findings) : Prop where
  sound : s'.Sound document d
  locals : s.locals.keys ⊆ s'.locals.keys

theorem Later.refl (h : s.Sound document d) : Later document d s s := ⟨h, List.Subset.refl _⟩

theorem Later.trans {s'' : Findings} (h : Later document d s s') (h' : Later document d s' s'') :
    Later document d s s'' := ⟨h'.sound, List.Subset.trans h.locals h'.locals⟩

theorem Later.known (h : Later document d s s') {n : String} (hn : Known document d s n) :
    Known document d s' n := hn.imp_right (Or.imp_left fun hlocal => h.locals hlocal)

namespace Declarations

/-! ## Steps -/

/-- Facets are looked up without a change to types and elements. -/
theorem after_facets {step : StateM Facets.Known Facets} (hs : s.Sound document d)
    (h : ∀ known, Facets.AllFilled known →
      After step known fun f known' => f.Filled ∧ Facets.AllFilled known') :
    (step.run s.facets).1.Filled ∧
      Later document d s { s with facets := (step.run s.facets).2 } := by
  obtain ⟨hfilled, hall⟩ := h s.facets hs.facets
  exact ⟨hfilled, ⟨hs.types, hall, hs.locals⟩, List.Subset.refl _⟩

theorem after_lookupFacets (hs : s.Sound document d) (name : String) :
    After (d.lookupFacets name) s fun f s' =>
      f.Filled ∧ Later document d s s' ∧ s'.locals = s.locals := by
  obtain ⟨hfilled, hlater⟩ := after_facets hs (d.after_facetsOf (d.simpleTypes.size + 1) [] name)
  exact ⟨hfilled, hlater, rfl⟩

theorem after_inlineFacets (hs : s.Sound document d) (content : List Node) :
    After (d.inlineFacets content) s fun _ s' => Later document d s s' :=
  (after_facets hs (Facets.after_ofInlineType
    (d.after_facetsOf (d.simpleTypes.size + 1) []) content)).2

theorem after_attributeRule? (hs : s.Sound document d) (e : Xml.Element) :
    After (d.attributeRule? e) s fun _ s' => Later document d s s' := by
  unfold attributeRule?
  dsimp only
  split
  · exact .pure (.refl hs)
  · split
    · exact .pure (.refl hs)
    · split
      · exact (after_lookupFacets hs _).bind fun _ _ h => .pure h.2.1
      · exact .pure (.refl hs)
      · exact (after_inlineFacets hs _).bind fun _ _ h => .pure h

theorem after_applyAttributes (hs : s.Sound document d) (content : List Node)
    (inherited : OrderedMap Attribute) :
    After (d.applyAttributes content inherited) s fun _ s' => Later document d s s' := by
  refine After.foldlM (.refl hs) fun attributes s' e _ hs' => ?_
  refine (after_attributeRule? hs'.sound e).bind fun rule s'' h => ?_
  split <;> exact .pure (hs'.trans h)

/-- Elements declared in passing are noted unless there is one of their name. -/
theorem noted_locals {P : String × Xml.Element → Prop} {declared : List (String × Xml.Element)}
    (h : ∀ p ∈ declared, d.elements.contains p.1 = false → P p) (known : OrderedMap Xml.Element)
    (hknown : ∀ p ∈ known.pairs, P p) :
    ∃ locals, declared.foldl (fun known (p : String × Xml.Element) =>
        if d.elements.contains p.1 || known.contains p.1 then known else known.insert p.1 p.2)
        known = locals ∧
      (∀ p ∈ locals.pairs, P p) ∧ known.keys ⊆ locals.keys ∧
        ∀ p ∈ declared, d.elements.contains p.1 = true ∨ p.1 ∈ locals.keys := by
  induction declared generalizing known with
  | nil => exact ⟨known, rfl, hknown, List.Subset.refl _, fun p hp => absurd hp List.not_mem_nil⟩
  | cons q rest ih =>
      have hrest := ih fun p hp => h p (List.mem_cons_of_mem _ hp)
      rw [List.foldl_cons]
      split
      · next hseen =>
        obtain ⟨locals, hfold, hall, hsub, hnames⟩ := hrest known hknown
        refine ⟨locals, hfold, hall, hsub, fun p hp => ?_⟩
        rcases List.mem_cons.1 hp with rfl | hp
        · rw [Bool.or_eq_true, OrderedMap.contains_iff (m := known)] at hseen
          exact hseen.imp_right fun hmem => hsub hmem
        · exact hnames p hp
      · next hnew =>
        have hinsert : ∀ p ∈ (known.insert q.1 q.2).pairs, P p := by
          intro p hp
          rcases mem_setPair hp with rfl | hp
          · rw [Bool.or_eq_true, not_or, Bool.not_eq_true] at hnew
            exact h q List.mem_cons_self hnew.1
          · exact hknown p hp
        have hkeys : ∀ n, n = q.1 ∨ n ∈ known.keys → n ∈ (known.insert q.1 q.2).keys :=
          fun n hn => mem_names_setPair.2 hn
        obtain ⟨locals, hfold, hall, hsub, hnames⟩ := hrest _ hinsert
        refine ⟨locals, hfold, hall, fun n hn => hsub (hkeys n (.inr hn)), fun p hp => ?_⟩
        rcases List.mem_cons.1 hp with rfl | hp
        · exact .inr (hsub (hkeys _ (.inl rfl)))
        · exact hnames p hp

theorem after_resolveContent (hd : d.Inside document) (hs : s.Sound document d)
    (hcontent : Node.tagsOf content ⊆ Node.tagsOf document) :
    After (d.resolveContent content) s fun p s' =>
      (∀ n ∈ p.mentions, Known document d s' n) ∧ Later document d s s' := by
  obtain ⟨locals, hfold, hall, hsub, hnames⟩ := noted_locals (d := d)
    (fun p hp _ => declaredAs_contentElements hd hcontent hp) s.locals hs.locals
  have hlater : Later document d s { s with locals := locals } := by
    refine ⟨⟨fun p hp => (hs.types p hp).mono fun n hn => ?_, hs.facets, hall⟩, hsub⟩
    exact hn.imp_right (Or.imp_left fun hlocal => hsub hlocal)
  refine (After.modified (Q := fun _ s' => s' = { s with locals := locals }) ?_).bind ?_
  · exact congrArg (fun locals => { s with locals := locals }) hfold
  rintro _ _ rfl
  refine .pure ⟨fun n hn => ?_, hlater⟩
  rcases mem_mentions_contentModel hd hcontent hn with hdeclared | href
  · obtain ⟨p, hp, rfl⟩ := List.mem_map.1 hdeclared
    exact (hnames p hp).imp_right .inl
  · exact .inr (.inr href)

/-! ## Types -/

/-- What a step does that resolves a type. -/
abbrev ResolvesType (document : List Node) (d : Declarations) (step : Resolving ResolvedType)
    (s : Findings) : Prop :=
  After step s fun t s' => t.Sound (Known document d s') ∧ Later document d s s'

theorem after_resolveComplex (hd : d.Inside document) {named : String → Resolving ResolvedType}
    (hnamed : ∀ name s, s.Sound document d → ResolvesType document d (named name) s)
    (hs : s.Sound document d) (hcontent : Node.tagsOf content ⊆ Node.tagsOf document)
    (label : String) : ResolvesType document d (d.resolveComplex named content label) s := by
  unfold resolveComplex
  dsimp only
  split
  · refine (after_resolveContent hd hs hcontent).bind fun model s₁ hmodel => ?_
    refine (after_applyAttributes hmodel.2.sound content ∅).bind fun attributes s₂ h => ?_
    exact .pure ⟨⟨fun n hn => h.known (hmodel.1 n hn), fun g hg => wellFormed_of_mem_choiceGroups hg⟩,
      hmodel.2.trans h⟩
  · next wrapper simple hwrapper =>
    have hinside : Node.tagsOf wrapper.content ⊆ Node.tagsOf document := by
      split at hwrapper
      · next c hc =>
        cases hwrapper
        exact (inside_of_schemaElement? hcontent hc).2
      · obtain ⟨c, hc, hpair⟩ := Option.map_eq_some_iff.1 hwrapper
        cases hpair
        exact (inside_of_schemaElement? hcontent hc).2
    split
    · exact .pure ⟨ResolvedType.sound_empty _, .refl hs⟩
    · next derive hderive =>
      have hown := (inside_of_mem_schemaElements hinside (List.mem_of_find?_eq_some hderive)).2
      -- Whatever the type derives from, what follows is the same.
      have hbase : ∀ {base : ResolvedType × List String} {s' : Findings},
          base.1.Sound (Known document d s') → Later document d s s' →
          After (Pure.pure base : Resolving (ResolvedType × List String)) s' fun base s'' =>
            base.1.Sound (Known document d s'') ∧ Later document d s s'' :=
        fun hsound hlater => .pure ⟨hsound, hlater⟩
      have hnone := @hbase (ResolvedType.empty, []) s (ResolvedType.sound_empty _) (.refl hs)
      split
      case' h_1 => split
      case' h_1.isTrue => refine (hnamed _ s hs).bind fun base s₀ h => ?_
      case' h_1.isTrue => refine (hbase h.1 h.2).bind fun base s₁ hb => ?_
      case' h_1.isFalse => refine hnone.bind fun base s₁ hb => ?_
      case' h_2 => refine hnone.bind fun base s₁ hb => ?_
      all_goals
        obtain ⟨hsound, hlater⟩ := hb
        refine (after_applyAttributes hlater.sound derive.content _).bind fun attributes s₂ h₂ => ?_
        have hlater₂ := hlater.trans h₂
        split
        · exact .pure ⟨ResolvedType.sound_empty _, hlater₂⟩
        · refine (after_resolveContent hd hlater₂.sound hown).bind fun own s₃ h₃ => ?_
          have hbase₃ := hsound.mono fun n hn => h₃.2.known (h₂.known hn)
          have hown₃ : ResolvedType.Sound (Known document d s₃)
              ⟨own, attributes, Grammar.choiceGroups label own 0, base.2, ""⟩ :=
            ⟨h₃.1, fun g hg => wellFormed_of_mem_choiceGroups hg⟩
          split
          · exact .pure ⟨hbase₃.extended hown₃, hlater₂.trans h₃.2⟩
          · exact .pure ⟨⟨hown₃.names, hown₃.groups⟩, hlater₂.trans h₃.2⟩

theorem after_resolveType (hd : d.Inside document) (fuel : ℕ) :
    ∀ (opened : List String) (name : String) (s : Findings), s.Sound document d →
      ResolvesType document d (d.resolveType fuel opened name) s := by
  induction fuel with
  | zero => exact fun _ _ s hs => .pure ⟨ResolvedType.sound_empty _, .refl hs⟩
  | succ fuel ih =>
      intro opened name s hs
      unfold resolveType
      refine (After.get (Q := fun a s' => a = s ∧ s' = s) ⟨rfl, rfl⟩).bind ?_
      rintro _ _ ⟨rfl, rfl⟩
      split
      · next known hknown =>
        exact .pure ⟨hs.types _ (OrderedMap.get?_eq_some_iff.1 hknown), .refl hs⟩
      · split
        · exact .pure ⟨ResolvedType.sound_empty _, .refl hs⟩
        · next e he =>
          split
          · exact .pure ⟨ResolvedType.sound_empty _, .refl hs⟩
          · have hinside := hd.complexTypes _ (OrderedMap.get?_eq_some_iff.1 he)
            refine (after_resolveComplex hd (ih _) hs hinside.2 name).bind fun t s₁ h => ?_
            refine (After.modified (Q := fun _ s₂ => Known document d s₂ = Known document d s₁ ∧
              Later document d s₁ s₂) ⟨rfl, ⟨fun p hp => ?_, h.2.sound.facets, h.2.sound.locals⟩,
                List.Subset.refl _⟩).bind fun _ s₂ h₂ => ?_
            · rcases mem_setPair hp with rfl | hp
              · exact h.1
              · exact h.2.sound.types p hp
            · exact .pure ⟨h₂.1 ▸ h.1, h.2.trans h₂.2⟩

end Declarations

/-! ## Elements -/

/-- An element with known children, choice groups among these, and at each child the identifiers
of the groups that hold it, in their order. -/
structure Element.Sound (known : String → Prop) (e : Element) : Prop where
  children : ∀ c ∈ e.children, known c.name
  groups : ∀ g ∈ e.choiceGroups, g.WellFormed ∧ ∀ n ∈ g.allElements, n ∈ e.children.map Child.name
  ids : ∀ c ∈ e.children, c.choiceGroupIds =
    (e.choiceGroups.filter fun g => decide (c.name ∈ g.allElements)).map ChoiceGroup.groupId

theorem Element.Sound.mono {known known' : String → Prop} {e : Element} (h : e.Sound known)
    (hknown : ∀ n, known n → known' n) : e.Sound known' :=
  ⟨fun c hc => hknown _ (h.children c hc), h.groups, h.ids⟩

theorem names_ofContent (groups : List ChoiceGroup) (p : Particle) :
    (Child.ofContent groups p).map Child.name = p.elementNames := by
  rw [Child.ofContent, List.map_map]
  exact (Particle.recorded p).keys

/-- The element that a sound type describes is sound. -/
theorem ResolvedType.Sound.element {known : String → Prop} {t : ResolvedType} (h : t.Sound known)
    {e : Element} (hchildren : e.children = Child.ofContent t.choiceGroups t.content)
    (hgroups : e.choiceGroups = t.choiceGroups) : e.Sound known := by
  have hnames : e.children.map Child.name = t.content.elementNames := by
    rw [hchildren, names_ofContent]
  refine ⟨fun c hc => ?_, fun g hg => ?_, fun c hc => ?_⟩
  · have hname : c.name ∈ t.content.elementNames := hnames ▸ List.mem_map_of_mem hc
    exact h.names _ (List.mem_eraseDups.1 hname)
  · obtain ⟨hwell, hmem⟩ := h.groups g (hgroups ▸ hg)
    exact ⟨hwell, fun n hn => hnames ▸ List.mem_eraseDups.2 (hmem n hn)⟩
  · rw [hchildren] at hc
    obtain ⟨⟨name, o⟩, -, rfl⟩ := List.mem_map.1 hc
    rw [hgroups]
    refine congrArg (List.map _) (List.filter_congr fun g _ => ?_)
    rw [Bool.eq_iff_iff, ChoiceGroup.contains_iff, decide_eq_true_iff, mem_allElements]

namespace Declarations

theorem after_resolveElement (hd : d.Inside document) (hs : s.Sound document d) {name : String}
    {e : Xml.Element} (he : e.Inside document) :
    After (d.resolveElement name e) s fun e s' =>
      e.Sound (Known document d s') ∧ Later document d s s' := by
  have htype : ∀ {r : Option String × ResolvedType} {s' : Findings},
      r.2.Sound (Known document d s') → Later document d s s' →
      After (Pure.pure r : Resolving (Option String × ResolvedType)) s' fun r s'' =>
        r.2.Sound (Known document d s'') ∧ Later document d s s'' :=
    fun hsound hlater => .pure ⟨hsound, hlater⟩
  have hnone : ∀ typeName : Option String, After (Pure.pure (typeName, ResolvedType.empty) :
      Resolving (Option String × ResolvedType)) s fun r s' =>
        r.2.Sound (Known document d s') ∧ Later document d s s' :=
    fun _ => htype (ResolvedType.sound_empty _) (.refl hs)
  unfold resolveElement
  dsimp only
  split
  · split
    · split
      · refine (after_resolveType hd _ _ _ s hs).bind fun t s₁ h => ?_
        refine (htype h.1 h.2).bind fun r s₂ hr => ?_
        exact .pure ⟨hr.1.element rfl rfl, hr.2⟩
      · exact (hnone _).bind fun r s₂ hr => .pure ⟨hr.1.element rfl rfl, hr.2⟩
    · exact (hnone _).bind fun r s₂ hr => .pure ⟨hr.1.element rfl rfl, hr.2⟩
  · split
    · next inline hinline =>
      have hinside := (inside_of_schemaElement? he.2 hinline).2
      refine (after_resolveComplex hd (after_resolveType hd _ _) hs hinside name).bind
        fun t s₁ h => ?_
      refine (htype h.1 h.2).bind fun r s₂ hr => ?_
      exact .pure ⟨hr.1.element rfl rfl, hr.2⟩
    · exact (hnone _).bind fun r s₂ hr => .pure ⟨hr.1.element rfl rfl, hr.2⟩

/-- Elements with children that are known so far. -/
def AllSound (document : List Node) (d : Declarations) (s : Findings)
    (elements : OrderedMap Element) : Prop :=
  ∀ p ∈ elements.pairs, p.2.Sound (Known document d s)

theorem AllSound.later {elements : OrderedMap Element} (h : AllSound document d s elements)
    (hlater : Later document d s s') : AllSound document d s' elements :=
  fun p hp => (h p hp).mono fun _ hn => hlater.known hn

/-- Sound elements that come after others, none of which is lost. -/
structure Added (document : List Node) (d : Declarations) (s s' : Findings)
    (done done' : OrderedMap Element) : Prop where
  sound : AllSound document d s' done'
  later : Later document d s s'
  keys : done.keys ⊆ done'.keys

theorem Added.refl {done : OrderedMap Element} (hs : s.Sound document d)
    (h : AllSound document d s done) : Added document d s s done done :=
  ⟨h, .refl hs, List.Subset.refl _⟩

theorem Added.trans {s'' : Findings} {a b c : OrderedMap Element}
    (h : Added document d s s' a b) (h' : Added document d s' s'' b c) :
    Added document d s s'' a c :=
  ⟨h'.sound, h.later.trans h'.later, List.Subset.trans h.keys h'.keys⟩

theorem after_resolveElements (hd : d.Inside document) {declared : List (String × Xml.Element)}
    (hdeclared : ∀ p ∈ declared, p.2.Inside document) {done : OrderedMap Element}
    (hs : s.Sound document d) (hdone : AllSound document d s done) :
    After (d.resolveElements declared done) s fun done' s' =>
      Added document d s s' done done' ∧ ∀ p ∈ declared, p.1 ∈ done'.keys := by
  unfold resolveElements
  induction declared generalizing done s with
  | nil => exact .pure ⟨.refl hs hdone, fun p hp => absurd hp List.not_mem_nil⟩
  | cons q rest ih =>
      rw [List.foldlM_cons]
      have hq : q.2.Inside document := hdeclared q List.mem_cons_self
      refine After.bind (P := fun done' s' => Added document d s s' done done' ∧ q.1 ∈ done'.keys)
        ?_ fun done₁ s₁ h₁ => ?_
      · refine (after_resolveElement hd hs hq).bind fun e s₁ h => .pure ⟨⟨?_, h.2, ?_⟩, ?_⟩
        · intro p hp
          rcases mem_setPair hp with rfl | hp
          · exact h.1
          · exact hdone.later h.2 p hp
        · exact fun n hn => mem_names_setPair.2 (.inr hn)
        · exact mem_names_setPair.2 (.inl rfl)
      · obtain ⟨hadded, hname⟩ := h₁
        refine (ih (fun p hp => hdeclared p (List.mem_cons_of_mem _ hp)) hadded.later.sound
          hadded.sound).mono fun done₂ s₂ h₂ => ⟨hadded.trans h₂.1, fun p hp => ?_⟩
        rcases List.mem_cons.1 hp with rfl | hp
        · exact h₂.1.keys hname
        · exact h₂.2 p hp

/-! ## Elements declared in passing -/

/-- The names that declarations of a document have and that no element is kept under yet. -/
def waiting (document : List Node) (done : OrderedMap Element) : Finset String :=
  ((Node.tagsOf document).filterMap fun t => t.attribute? "name").toFinset \ done.keys.toFinset

theorem card_waiting_le (document : List Node) (done : OrderedMap Element) :
    (waiting document done).card ≤ (Node.tagsOf document).length :=
  calc (waiting document done).card
    _ ≤ ((Node.tagsOf document).filterMap fun t => t.attribute? "name").toFinset.card :=
        Finset.card_le_card Finset.sdiff_subset
    _ ≤ ((Node.tagsOf document).filterMap fun t => t.attribute? "name").length :=
        List.toFinset_card_le _
    _ ≤ (Node.tagsOf document).length := List.length_filterMap_le _ _

theorem card_waiting_lt {done done' : OrderedMap Element} (hkeys : done.keys ⊆ done'.keys)
    {name : String} {e : Xml.Element} (he : DeclaredAs document name e) (hnew : name ∉ done.keys)
    (hname : name ∈ done'.keys) : (waiting document done').card < (waiting document done).card := by
  refine Finset.card_lt_card (Finset.ssubset_iff_of_subset ?_ |>.2 ⟨name, ?_, ?_⟩)
  · intro n hn
    rw [waiting, Finset.mem_sdiff, List.mem_toFinset, List.mem_toFinset] at hn ⊢
    exact ⟨hn.1, fun hmem => hn.2 (hkeys hmem)⟩
  · rw [waiting, Finset.mem_sdiff, List.mem_toFinset, List.mem_toFinset]
    exact ⟨List.mem_filterMap.2 ⟨e.tag, he.inside.1, he.name⟩, hnew⟩
  · rw [waiting, Finset.mem_sdiff, List.mem_toFinset, List.mem_toFinset]
    exact fun h => h.2 hname

/-- With a round for each name that a declaration has, no element declared in passing is left
out: each round adds one of those that wait. -/
theorem after_resolveLocals (hd : d.Inside document) (fuel : ℕ) :
    ∀ {done : OrderedMap Element} {s : Findings}, s.Sound document d →
      AllSound document d s done → (waiting document done).card < fuel →
      After (d.resolveLocals fuel done) s fun done' s' =>
        Added document d s s' done done' ∧ s'.locals.keys ⊆ done'.keys := by
  induction fuel with
  | zero => exact fun _ _ hcard => absurd hcard (Nat.not_lt_zero _)
  | succ fuel ih =>
      intro done s hs hdone hcard
      have hpending : ∀ {p}, p ∈ s.locals.pairs.filter (fun p => !done.contains p.1) →
          DeclaredAs document p.1 p.2 ∧ p.1 ∉ done.keys := by
        intro p hp
        obtain ⟨hmem, hnew⟩ := List.mem_filter.1 hp
        refine ⟨hs.locals p hmem, fun hkey => ?_⟩
        rw [OrderedMap.contains_iff.2 hkey] at hnew
        exact absurd hnew (by decide)
      unfold resolveLocals
      refine (After.get (Q := fun a s' => a = s ∧ s' = s) ⟨rfl, rfl⟩).bind ?_
      rintro _ _ ⟨rfl, rfl⟩
      split
      · next hnone =>
        refine .pure ⟨.refl hs hdone, fun n hn => ?_⟩
        obtain ⟨e, he⟩ := OrderedMap.exists_of_mem_keys hn
        have hseen := List.filter_eq_nil_iff.1 hnone (n, e) he
        simpa [OrderedMap.contains_iff] using hseen
      · next hsome =>
        obtain ⟨q, hq⟩ := List.exists_mem_of_ne_nil _ hsome
        refine (after_resolveElements hd (fun p hp => (hpending hp).1.inside) hs hdone).bind
          fun done₁ s₁ h₁ => ?_
        have hless := card_waiting_lt h₁.1.keys (hpending hq).1 (hpending hq).2 (h₁.2 q hq)
        exact (ih h₁.1.later.sound h₁.1.sound (by omega)).mono fun done₂ s₂ h₂ =>
          ⟨h₁.1.trans h₂.1, h₂.2⟩

theorem after_resolveEnums (hs : s.Sound document d) :
    After d.resolveEnums s fun enums s' =>
      (∀ p ∈ enums.pairs, p.2 ≠ []) ∧ Later document d s s' ∧ s'.locals = s.locals := by
  refine After.foldlM ⟨fun p hp => absurd hp List.not_mem_nil, .refl hs, rfl⟩
    fun enums s₁ name _ h₁ => ?_
  obtain ⟨hfilled, hlater, hlocals⟩ := h₁
  refine (after_lookupFacets hlater.sound name).bind fun f s₂ h₂ => ?_
  obtain ⟨hf, hlater₂, hlocals₂⟩ := h₂
  split
  · next values hvalues =>
    refine .pure ⟨fun p hp => ?_, hlater.trans hlater₂, hlocals₂.trans hlocals⟩
    rcases mem_setPair hp with rfl | hp
    · exact hf values hvalues
    · exact hfilled p hp
  · exact .pure ⟨hfilled, hlater.trans hlater₂, hlocals₂.trans hlocals⟩

/-- The names of the elements that content models were found to declare in passing. -/
def localNames (d : Declarations) (content : List Node) : List String :=
  ((d.resolveAll content).run .none).2.locals.keys

end Declarations

/-- A name that no global element has and no content model declares, but that is referred to. -/
structure Dangling (content : List Node) (name : String) : Prop where
  notGlobal : (Declarations.ofContent content).elements.contains name = false
  notLocal : name ∉ (Declarations.ofContent content).localNames content
  referred : Referred content name

/-- What holds of the elements and enumerations of a schema, and of the elements it was found to
declare. -/
structure Complete (content : List Node) (elements : OrderedMap Element)
    (enums : OrderedMap (List String)) : Prop where
  sound : ∀ p ∈ elements.pairs, p.2.Sound fun n =>
    elements.contains n = true ∨ Dangling content n
  globals : ∀ n ∈ (Declarations.ofContent content).elements.keys, elements.contains n = true
  enums : ∀ p ∈ enums.pairs, p.2 ≠ []

theorem complete_resolveAll (content : List Node) :
    After ((Declarations.ofContent content).resolveAll content) .none fun r _ =>
      Complete content r.1 r.2 := by
  have hd := Declarations.inside_ofContent content
  have hnone : Findings.none.Sound content (Declarations.ofContent content) :=
    ⟨fun p hp => absurd hp List.not_mem_nil, fun p hp => absurd hp List.not_mem_nil,
      fun p hp => absurd hp List.not_mem_nil⟩
  -- What is known of the names at the end is said of the findings that are left.
  have hall : After ((Declarations.ofContent content).resolveAll content) .none fun r s =>
      Declarations.AllSound content (Declarations.ofContent content) s r.1 ∧
        s.locals.keys ⊆ r.1.keys ∧
        (∀ n ∈ (Declarations.ofContent content).elements.keys, n ∈ r.1.keys) ∧
        ∀ p ∈ r.2.pairs, p.2 ≠ [] := by
    unfold Declarations.resolveAll
    refine (Declarations.after_resolveElements hd hd.elements hnone
      (fun p hp => absurd hp List.not_mem_nil)).bind fun globals s₁ h₁ => ?_
    refine (Declarations.after_resolveLocals hd _ h₁.1.later.sound h₁.1.sound
      (Nat.lt_succ_of_le (Declarations.card_waiting_le content globals))).bind
      fun elements s₂ h₂ => ?_
    refine (Declarations.after_resolveEnums h₂.1.later.sound).bind fun enums s₃ h₃ => ?_
    obtain ⟨hfilled, hlater, hlocals⟩ := h₃
    refine .pure ⟨h₂.1.sound.later hlater, hlocals ▸ h₂.2, fun n hn => ?_, hfilled⟩
    obtain ⟨e, he⟩ := OrderedMap.exists_of_mem_keys hn
    exact h₂.1.keys (h₁.2 (n, e) he)
  obtain ⟨hsound, hlocals, hglobals, henums⟩ := hall
  refine ⟨fun p hp => (hsound p hp).mono fun n hn => ?_, fun n hn =>
    OrderedMap.contains_iff.2 (hglobals n hn), henums⟩
  by_cases helement : n ∈ (((Declarations.ofContent content).resolveAll content).run .none).1.1.keys
  · exact .inl (OrderedMap.contains_iff.2 helement)
  · have hglobal : n ∉ (Declarations.ofContent content).elements.keys :=
      fun hmem => helement (hglobals n hmem)
    have hlocal := fun hmem => helement (hlocals hmem)
    rcases hn with hn | hn | hn
    · exact absurd (OrderedMap.contains_iff.1 hn) hglobal
    · exact absurd hn hlocal
    · exact .inr ⟨by rw [← Bool.not_eq_true, OrderedMap.contains_iff]; exact hglobal, hlocal, hn⟩

namespace Model

/-- A model that is well formed: each element is kept under its own name and names no child and
no attribute twice; its choice groups have numbered branches with members, all of them children,
and each child has the identifiers of the groups that hold it; the root is an element, and
enumerations have values. A child without an entry comes from a reference that dangles. -/
structure WellFormed (content : List Node) (m : Model) : Prop where
  regular : ∀ p ∈ m.elements.pairs, Regular p.1 p.2
  elements : ∀ p ∈ m.elements.pairs, p.2.Sound fun n =>
    m.hasElement n = true ∨ Dangling content n
  root : ∀ r, m.root = some r → m.hasElement r = true
  enums : ∀ p ∈ m.enums.pairs, p.2 ≠ []

theorem contains_sorted (m : OrderedMap α) (n : String) : m.sorted.contains n = m.contains n :=
  (List.mergeSort_perm _ _).any_eq

theorem Complete.wellFormed {elements : OrderedMap Element} {enums : OrderedMap (List String)}
    (h : Complete content elements enums) (hregular : Declarations.RegularElements elements)
    {root : Option String} (hroot : ∀ r, root = some r → elements.contains r = true) :
    WellFormed content ⟨elements.sorted, enums.sorted, root⟩ := by
  refine ⟨fun p hp => hregular p (List.mem_mergeSort.1 hp), fun p hp => ?_, fun r hr => ?_,
    fun p hp => h.enums p (List.mem_mergeSort.1 hp)⟩
  · refine (h.sound p (List.mem_mergeSort.1 hp)).mono fun n hn => hn.imp_left fun hmem => ?_
    exact (contains_sorted elements n).trans hmem
  · exact (contains_sorted elements r).trans (hroot r hr)

/-- The elements of a loaded model are those that its schema resolves to, in order. -/
theorem elements_of_load {root? : Option String} {text : String} {m : Model}
    (h : load root? text = .ok m) : ∃ content, m.elements =
      (((Declarations.ofContent content).resolveAll content).run .none).1.1.sorted := by
  unfold load at h
  split at h
  · cases h
  · unfold ofDocument at h
    split at h
    · cases h
    · cases h
    · next tag content _ =>
      refine ⟨content, ?_⟩
      split at h
      · cases h
      · dsimp only at h
        split at h
        next elements enums found hrun =>
          rw [hrun]
          split at h
          · cases h
            rfl
          · split at h
            · cases h
              rfl
            · cases h

/-- The choice groups of a loaded element lie within its children. -/
theorem sound_of_load {root? : Option String} {text n : String} {m : Model} {e : Element}
    (h : load root? text = .ok m) (he : m.element? n = some e) : ∃ known, e.Sound known := by
  obtain ⟨content, helements⟩ := elements_of_load h
  have hcomplete : Complete content _ _ := complete_resolveAll content
  have hp : (n, e) ∈ m.elements.pairs := OrderedMap.get?_eq_some_iff.1 he
  rw [helements] at hp
  exact ⟨_, hcomplete.sound _ (List.mem_mergeSort.1 hp)⟩

/-- Every model that is loaded from a schema document is well formed. -/
theorem wellFormed_of_load {root? : Option String} {text : String} {m : Model}
    (h : load root? text = .ok m) : ∃ tag content,
      Xml.readDocument text.toList = .ok (.element tag content) ∧ m.WellFormed content := by
  unfold load at h
  split at h
  · cases h
  · next document hread =>
    unfold ofDocument at h
    split at h
    · cases h
    · cases h
    · next tag content =>
      refine ⟨tag, content, hread, ?_⟩
      split at h
      · cases h
      · have hcomplete := complete_resolveAll content
        have hnone : KeyedTypes .none := fun _ hp => absurd hp List.not_mem_nil
        have hregular :=
          ((Declarations.ofContent content).establishes_resolveAll content _ hnone).1
        unfold After at hcomplete
        dsimp only at h
        split at h
        next elements enums found hrun =>
          rw [hrun] at hcomplete hregular
          split at h
          · cases h
            refine Complete.wellFormed hcomplete hregular fun r hr => ?_
            exact hcomplete.globals r (List.mem_of_find?_eq_some hr)
          · split at h
            · next root hroot =>
              cases h
              refine Complete.wellFormed hcomplete hregular fun r hr => ?_
              exact Option.some.inj hr ▸ hroot
            · cases h

/-- A type that derives from itself, with a choice between an element that is declared nowhere
and one that is declared in passing. -/
def partSchema : String :=
  "<xs:schema xmlns:xs='http://www.w3.org/2001/XMLSchema'>
  <xs:simpleType name='tone'><xs:restriction>
    <xs:enumeration value='low'/>
  </xs:restriction></xs:simpleType>
  <xs:complexType name='part'><xs:complexContent><xs:extension base='part'>
    <xs:choice>
      <xs:element ref='ghost'/>
      <xs:element name='line'/>
    </xs:choice>
    <xs:attribute name='pitch' type='tone'/>
  </xs:extension></xs:complexContent></xs:complexType>
  <xs:element name='book' type='part'/>
</xs:schema>"

def partModel : Model where
  elements := ⟨[
    ("book", ⟨"book", "Book", some "part", ["part"],
      [⟨"ghost", .zero, some .one, ["part:choice_0"]⟩,
        ⟨"line", .zero, some .one, ["part:choice_0"]⟩],
      [⟨"pitch", false, some "tone", some ["low"], none, none⟩],
      [⟨"part:choice_0", .one, some .one,
        [⟨"branch_0", some "ghost", ["ghost"]⟩, ⟨"branch_1", some "line", ["line"]⟩]⟩], ""⟩),
    ("line", ⟨"line", "Line", none, [], [], [], [], ""⟩)], by decide⟩
  enums := ⟨[("tone", ["low"])], by decide⟩
  root := some "book"

set_option maxRecDepth 10000 in
theorem load_partSchema : load none partSchema = .ok partModel := by
  obtain ⟨cs, hcs, hm⟩ : ∃ cs, partSchema = String.ofList cs ∧
      unsorted? cs = some partModel := ⟨_, rfl, by decide +kernel⟩
  rw [hcs]
  exact load_eq_ok hm (by decide) (by decide)

theorem wellFormed_partSchema : load none partSchema = .ok partModel ∧ ∃ tag content,
    Xml.readDocument partSchema.toList = .ok (.element tag content) ∧
      partModel.WellFormed content ∧ Dangling content "ghost" := by
  obtain ⟨tag, content, hread, hwell⟩ := wellFormed_of_load load_partSchema
  refine ⟨load_partSchema, tag, content, hread, hwell, ?_⟩
  have hbook := hwell.elements _ (List.mem_cons_self (a := ("book", _)))
  exact (hbook.children _ List.mem_cons_self).resolve_left (by decide)

end Model

end GrammarProfile.Grammar
