import GrammarProfile.Proofs.GroupNumbers

/-!
The children of an element are the elements that some content models name: that of its type, and
those of the types that this one extends.
-/
namespace GrammarProfile.Grammar

open GrammarProfile.Xml (Tag Node)

variable {document content : List Node} {d : Declarations} {s : Findings}

/-! ## What a content model declares in passing -/

section Nodes

variable {group : String → Particle} {declared : String → List (String × Xml.Element)}

mutual

/-- A content model mentions what it declares in passing. -/
theorem mentions_localElements (hgroup : ∀ g, ∀ p ∈ declared g, p.1 ∈ (group g).mentions) :
    ∀ (node : Node), ∀ p ∈ localElements declared node,
      ∃ q, particle? group node = some q ∧ p.1 ∈ q.mentions
  | .text _, p, hp => absurd hp List.not_mem_nil
  | .remark, p, hp => absurd hp List.not_mem_nil
  | .element tag content, p, hp => by
      have hitems := mentions_localElementsOf hgroup content p
      unfold localElements at hp
      unfold particle?
      split at hp
      · exact absurd hp List.not_mem_nil
      · next hschema =>
        rw [if_neg hschema]
        split at hp
        · next helement =>
          split at hp
          · next href hname =>
            obtain rfl := List.mem_singleton.1 hp
            rw [helement, href, hname]
            exact ⟨_, rfl, by rw [Particle.mentions]; exact List.mem_cons_self⟩
          · exact absurd hp List.not_mem_nil
        · next hname =>
          rw [hname]
          exact ⟨_, rfl, by rw [Particle.mentions]; exact hitems hp⟩
        · next hname =>
          rw [hname]
          exact ⟨_, rfl, by rw [Particle.mentions]; exact hitems hp⟩
        · next hname =>
          rw [hname]
          exact ⟨_, rfl, by rw [Particle.mentions]; exact hitems hp⟩
        · next hname =>
          split at hp
          · next reference href =>
            rw [hname, href]
            exact ⟨_, rfl, by rw [Particle.mentions]; exact hgroup _ p hp⟩
          · exact absurd hp List.not_mem_nil
        · exact absurd hp List.not_mem_nil

theorem mentions_localElementsOf (hgroup : ∀ g, ∀ p ∈ declared g, p.1 ∈ (group g).mentions) :
    ∀ (nodes : List Node), ∀ p ∈ localElementsOf declared nodes,
      p.1 ∈ Particle.mentionsOf (particles group nodes)
  | [], p, hp => absurd hp List.not_mem_nil
  | node :: rest, p, hp => by
      have hnode := mentions_localElements hgroup node p
      have hrest := mentions_localElementsOf hgroup rest p
      rw [localElementsOf, List.mem_append] at hp
      rw [particles]
      rcases hp with hp | hp
      · obtain ⟨q, hq, hmem⟩ := hnode hp
        rw [hq, Particle.mentionsOf]
        exact List.mem_append_left _ hmem
      · split
        · rw [Particle.mentionsOf]
          exact List.mem_append_right _ (hrest hp)
        · exact hrest hp

end

end Nodes

namespace Declarations

theorem mentions_groupElements (d : Declarations) (fuel : ℕ) : ∀ (opened : List String) (g : String),
    ∀ p ∈ d.groupElements fuel opened g, p.1 ∈ (d.groupContent fuel opened g).mentions := by
  induction fuel with
  | zero => exact fun _ _ p hp => absurd hp List.not_mem_nil
  | succ fuel ih =>
      intro opened g p hp
      unfold groupElements at hp
      unfold groupContent
      split at hp
      · exact absurd hp List.not_mem_nil
      · split at hp
        · exact absurd hp List.not_mem_nil
        · next hclosed =>
          rw [if_neg hclosed]
          split at hp
          · next node hnode =>
            obtain ⟨q, hq, hmem⟩ := mentions_localElements (ih (g :: opened)) node p hp
            rw [hnode, Option.bind_some, hq]
            exact hmem
          · exact absurd hp List.not_mem_nil

theorem mentions_contentElements {p : String × Xml.Element} (hp : p ∈ d.contentElements content) :
    p.1 ∈ (d.contentModel content).mentions := by
  unfold contentElements at hp
  unfold contentModel
  split at hp
  · next node hnode =>
    obtain ⟨q, hq, hmem⟩ := mentions_localElements (d.mentions_groupElements _ []) node p hp
    rw [hnode, Option.bind_some, hq]
    exact hmem
  · exact absurd hp List.not_mem_nil

/-! ## The content models that a type takes up -/

/-- The named complex type that the content of a complex type extends. -/
def extended? (d : Declarations) (content : List Node) : Option String :=
  match derivation? content with
  | none => none
  | some (wrapper, simple) =>
    if simple then none
    else (derive? wrapper).bind fun e => if e.tag.name == "extension" then d.baseOf? e else none

/-- A complex type takes up a content model: its own, or one that the type it extends takes up. -/
inductive TakesUp (d : Declarations) : List Node → List Node → Prop
  | own {content model : List Node} (h : ownContent? content = some model) : TakesUp d content model
  | inherited {content model : List Node} {b : String} {e : Xml.Element}
      (hb : d.extended? content = some b) (he : d.complexTypes.get? b = some e)
      (hmodel : TakesUp d e.content model) : TakesUp d content model

/-- A type has the names of the content models that it takes up. Where types derive from each other
in a circle, it may miss some. -/
structure Composed (d : Declarations) (content : List Node) (t : ResolvedType) : Prop where
  sound : ∀ n ∈ t.content.mentions,
    ∃ model, d.TakesUp content model ∧ n ∈ (d.contentModel model).mentions
  complete : Acyclic d.Derives → ∀ model, d.TakesUp content model →
    (d.contentModel model).mentions ⊆ t.content.mentions

def ComposedAs (d : Declarations) (name : String) (t : ResolvedType) : Prop :=
  ∀ e, d.complexTypes.get? name = some e → d.Composed e.content t

theorem not_mem_mentions_empty (n : String) : n ∉ Particle.empty.mentions := by
  simp [Particle.empty, Particle.mentions, Particle.mentionsOf]

theorem contains_of_baseOf? {derive : Xml.Element} {b : String} (h : d.baseOf? derive = some b) :
    ∃ e, d.complexTypes.get? b = some e := by
  unfold baseOf? at h
  split at h
  · split at h
    · next hcontains =>
      cases h
      exact OrderedMap.contains_iff_get?.1 hcontains
    · cases h
  · cases h
  · cases h

section

variable {wrapper derive : Xml.Element} {simple : Bool}

theorem ownContent?_derived (h : derivation? content = some (wrapper, simple))
    (hderive : derive? wrapper = some derive) :
    ownContent? content = if simple then none else some derive.content := by
  rw [ownContent?, h]
  dsimp only
  rw [hderive, Option.map_some]

theorem extended?_derived (h : derivation? content = some (wrapper, simple))
    (hderive : derive? wrapper = some derive) : d.extended? content =
      if simple then none else if derive.tag.name == "extension" then d.baseOf? derive else none := by
  rw [extended?, h]
  dsimp only
  rw [hderive, Option.bind_some]

theorem nothing_derived (h : derivation? content = some (wrapper, simple))
    (hderive : derive? wrapper = none) : ownContent? content = none ∧ d.extended? content = none := by
  cases simple <;> simp [ownContent?, extended?, h, hderive]

end

/-- What a type extends is among the named complex types. -/
theorem exists_of_extended? {b : String} (h : d.extended? content = some b) :
    ∃ e, d.complexTypes.get? b = some e := by
  unfold extended? at h
  split at h
  · cases h
  · split at h
    · cases h
    · obtain ⟨derive, -, hb⟩ := Option.bind_eq_some_iff.1 h
      split at hb
      · exact contains_of_baseOf? hb
      · cases hb

/-- A type that has the names of its own content model and of the type that it extends. -/
theorem Composed.of_parts {t : ResolvedType} (base : ResolvedType)
    (hbase : ∀ b, d.extended? content = some b → d.ComposedAs b base)
    (h : ∀ n, n ∈ t.content.mentions ↔
      (∃ own, ownContent? content = some own ∧ n ∈ (d.contentModel own).mentions) ∨
        (∃ b, d.extended? content = some b) ∧ n ∈ base.content.mentions) :
    d.Composed content t := by
  refine ⟨fun n hn => ?_, fun hacyclic model hmodel n hn => (h n).2 ?_⟩
  · obtain ⟨own, hown, hn⟩ | ⟨⟨b, hb⟩, hn⟩ := (h n).1 hn
    · exact ⟨own, .own hown, hn⟩
    · obtain ⟨e, he⟩ := exists_of_extended? hb
      obtain ⟨model, hmodel, hmem⟩ := (hbase b hb e he).sound n hn
      exact ⟨model, .inherited hb he hmodel, hmem⟩
  · cases hmodel with
    | own hown => exact .inl ⟨model, hown, hn⟩
    | inherited hb he hmodel =>
        exact .inr ⟨⟨_, hb⟩, (hbase _ hb _ he).complete hacyclic model hmodel hn⟩

/-- Only where types derive from each other in a circle, a type may be cut off. -/
theorem composed_empty (h : ¬Acyclic d.Derives) : d.Composed content .empty :=
  ⟨fun n hn => absurd hn (not_mem_mentions_empty n), fun hacyclic => absurd hacyclic h⟩

theorem TakesUp.within (hd : d.Grounded document) {model : List Node} (h : d.TakesUp content model)
    (hcontent : Within document content) : Within document model := by
  induction h with
  | @own content model hown =>
      unfold ownContent? at hown
      split at hown
      · exact Option.some.inj hown ▸ hcontent
      · next wrapper simple hderivation =>
        split at hown
        · cases hown
        · obtain ⟨derive, hderive, rfl⟩ := Option.map_eq_some_iff.1 hown
          refine Within.of_mem ?_ (List.mem_of_find?_eq_some hderive)
          obtain ⟨hcomplex, -⟩ | ⟨-, hsimple, -⟩ := derivation?_eq_some hderivation
          · exact hcontent.schemaElement? hcomplex
          · exact hcontent.schemaElement? hsimple
  | inherited _ he _ ih => exact ih (hd.complexTypes _ _ he)

/-! ### What is found out of types -/

/-- Findings in which every type has the names of the content models that it takes up. -/
structure Traced (document : List Node) (d : Declarations) (s : Findings) : Prop where
  types : ∀ p ∈ s.types.pairs, d.ComposedAs p.1 p.2
  locals : ∀ p ∈ s.locals.pairs, d.InPassing document p.1 p.2

theorem Traced.of_eq {s' : Findings} (h : Traced document d s)
    (heq : s'.types = s.types ∧ s'.locals = s.locals) : Traced document d s' := by
  refine ⟨?_, ?_⟩
  · rw [heq.1]
    exact h.types
  · rw [heq.2]
    exact h.locals

/-- What working out a named type comes to. -/
def Traces (document : List Node) (d : Declarations) (named : String → Resolving ResolvedType)
    (b : String) : Prop :=
  ∀ s, Traced document d s → After (named b) s fun t s' => d.ComposedAs b t ∧ Traced document d s'

theorem traced_resolveContent (hd : d.Grounded document) (hcontent : Within document content)
    (hs : Traced document d s) : After (d.resolveContent content) s fun p s' =>
      p = d.contentModel content ∧ Traced document d s' := by
  obtain ⟨locals, hfold, hall, -⟩ := noted_locals (d := d) (P := fun p => d.InPassing document p.1 p.2)
    (fun p hp hnew => ⟨declaredInside_contentElements hd hcontent hp, hnew⟩) s.locals hs.locals
  refine (After.modified (Q := fun _ s' => s' = { s with locals := locals }) ?_).bind ?_
  · exact congrArg (fun locals => { s with locals := locals }) hfold
  rintro _ _ rfl
  exact .pure ⟨rfl, hs.types, hall⟩

theorem traced_withBases {named : String → Resolving ResolvedType} {b? : Option String}
    (hnamed : ∀ b, b? = some b → Traces document d named b) (hs : Traced document d s) :
    After (withBases named b?) s fun base s' =>
      ((∀ b, b? = some b → d.ComposedAs b base.1) ∧ (b? = none → base.1 = .empty)) ∧
        Traced document d s' := by
  cases b? with
  | none => exact .pure ⟨⟨fun _ h => (Option.some_ne_none _ h.symm).elim, fun _ => rfl⟩, hs⟩
  | some b =>
      refine (hnamed b rfl s hs).bind fun t s₁ h => .pure ⟨⟨fun b' hb => ?_, nofun⟩, h.2⟩
      exact Option.some.inj hb ▸ h.1

theorem traced_derived (hd : d.Grounded document) (hcontent : Within document content)
    {wrapper derive : Xml.Element} {simple : Bool}
    (hderivation : derivation? content = some (wrapper, simple))
    (hderive : derive? wrapper = some derive) {base : ResolvedType × List String}
    (hbase : ∀ b, d.baseOf? derive = some b → d.ComposedAs b base.1)
    (hnone : d.baseOf? derive = none → base.1 = .empty) (hs : Traced document d s)
    (doc label : String) : After (d.derived derive simple doc label base) s fun t s' =>
      d.Composed content t ∧ Traced document d s' := by
  have hown := ownContent?_derived hderivation hderive
  have hextended := extended?_derived (d := d) hderivation hderive
  have hparts : ∀ b, d.extended? content = some b → d.ComposedAs b base.1 := by
    intro b hb
    rw [hextended] at hb
    split at hb
    · cases hb
    · split at hb
      · exact hbase b hb
      · cases hb
  unfold derived
  refine (d.keeps_applyAttributes derive.content _).bind fun attributes s₁ h₁ => ?_
  have hs₁ := hs.of_eq h₁
  split
  · next hsimple =>
    refine .pure ⟨.of_parts base.1 hparts fun n => ?_, hs₁⟩
    rw [hown, hextended, if_pos hsimple, if_pos hsimple]
    simp [not_mem_mentions_empty]
  · next hsimple =>
    rw [if_neg hsimple] at hown hextended
    refine (traced_resolveContent hd (TakesUp.within hd (.own hown) hcontent) hs₁).bind ?_
    rintro _ s₂ ⟨rfl, hs₂⟩
    dsimp only
    split
    · next hname =>
      refine .pure ⟨.of_parts base.1 hparts fun n => ?_, hs₂⟩
      rw [if_pos hname] at hextended
      have hmissing : n ∈ base.1.content.mentions → ∃ b, d.baseOf? derive = some b := by
        intro hn
        cases hb : d.baseOf? derive with
        | some b => exact ⟨b, rfl⟩
        | none =>
            rw [hnone hb] at hn
            exact absurd hn (not_mem_mentions_empty n)
      rw [hown, hextended, Particle.mentions, Particle.mentionsOf, Particle.mentionsOf,
        Particle.mentionsOf, List.append_nil, List.mem_append, or_comm,
        and_iff_right_of_imp hmissing]
      simp
    · next hname =>
      refine .pure ⟨.of_parts base.1 hparts fun n => ?_, hs₂⟩
      rw [if_neg hname] at hextended
      rw [hown, hextended]
      simp

/-- A complex type takes the names of its own content model, and those of a type that it extends. -/
theorem traced_resolveComplex (hd : d.Grounded document) (hcontent : Within document content)
    {named : String → Resolving ResolvedType}
    (hnamed : ∀ b, d.base? content = some b → Traces document d named b)
    (hs : Traced document d s) (label : String) :
    After (d.resolveComplex named content label) s fun t s' =>
      d.Composed content t ∧ Traced document d s' := by
  cases hderivation : derivation? content with
  | none =>
      have hown : ownContent? content = some content := by rw [ownContent?, hderivation]
      have hextended : d.extended? content = none := by rw [extended?, hderivation]
      rw [resolveComplex_plain d named label hderivation]
      refine (traced_resolveContent hd hcontent hs).bind ?_
      rintro _ s₁ ⟨rfl, hs₁⟩
      refine (d.keeps_applyAttributes content ∅).bind fun attributes s₂ h₂ => ?_
      refine .pure ⟨.of_parts .empty (fun b hb => ?_) fun n => ?_, hs₁.of_eq h₂⟩
      · exact absurd (hextended.symm.trans hb) (Option.some_ne_none b).symm
      · simp [hown, hextended]
  | some w =>
      obtain ⟨wrapper, simple⟩ := w
      cases hderive : derive? wrapper with
      | none =>
          obtain ⟨hown, hextended⟩ := nothing_derived (d := d) hderivation hderive
          rw [resolveComplex_nothing d named label hderivation hderive]
          refine .pure ⟨.of_parts .empty (fun b hb => ?_) fun n => ?_, hs⟩
          · exact absurd (hextended.symm.trans hb) (Option.some_ne_none b).symm
          · simp [hown, hextended, ResolvedType.empty, not_mem_mentions_empty]
      | some derive =>
          have hbase : d.base? content = d.baseOf? derive := by
            rw [base?, hderivation, Option.bind_some, hderive, Option.bind_some]
          rw [hbase] at hnamed
          rw [resolveComplex_derived d named label hderivation hderive]
          refine (traced_withBases hnamed hs).bind fun base s₁ h₁ => ?_
          exact traced_derived hd hcontent hderivation hderive h₁.1.1 h₁.1.2 h₁.2 _ label

/-- A named type is found as its declaration says. It is cut off only in a circle of types. -/
theorem traces_resolveType (hd : d.Grounded document) (fuel : ℕ) :
    ∀ (opened : List String) (name : String),
      (Acyclic d.Derives → Way d.Derives d.complexTypes.keys opened name ∧
        d.complexTypes.keys.length < fuel + opened.length) →
      Traces document d (d.resolveType fuel opened) name := by
  induction fuel with
  | zero =>
      intro opened name hway s hs
      have hcircle : ¬Acyclic d.Derives := by
        intro hacyclic
        have hle := (hway hacyclic).1.length_le
        have hlt := (hway hacyclic).2
        omega
      exact .pure ⟨fun _ _ => composed_empty hcircle, hs⟩
  | succ fuel ih =>
      intro opened name hway s hs
      unfold resolveType
      refine (After.get (Q := fun a s' => a = s ∧ s' = s) ⟨rfl, rfl⟩).bind ?_
      rintro _ _ ⟨rfl, rfl⟩
      split
      · next known hknown =>
        exact .pure ⟨hs.types _ (OrderedMap.get?_eq_some_iff.1 hknown), hs⟩
      · split
        · next hnone =>
          exact .pure ⟨fun e he => absurd (hnone.symm.trans he) (Option.some_ne_none e).symm, hs⟩
        · next e he =>
          have hname : name ∈ d.complexTypes.keys :=
            OrderedMap.get?_isSome.1 (Option.isSome_iff_exists.2 ⟨e, he⟩)
          split
          · next hopened =>
            refine .pure ⟨fun _ _ => composed_empty fun hacyclic => ?_, hs⟩
            exact (hway hacyclic).1.not_mem hacyclic (List.contains_iff_mem.1 hopened)
          · have hbase : ∀ b, d.base? e.content = some b →
                Traces document d (d.resolveType fuel (name :: opened)) b := by
              refine fun b hb => ih (name :: opened) b fun hacyclic => ?_
              refine ⟨(hway hacyclic).1.cons hacyclic hname ⟨e, he, hb⟩, ?_⟩
              have hlt := (hway hacyclic).2
              rw [List.length_cons]
              omega
            refine (traced_resolveComplex hd (hd.complexTypes name e he) hbase hs name).bind
              fun t s₁ h₁ => ?_
            have htype : d.ComposedAs name t := by
              intro e' he'
              exact Option.some.inj (he.symm.trans he') ▸ h₁.1
            refine (After.modified (Q := fun _ s₂ => Traced document d s₂) ⟨fun p hp => ?_,
              h₁.2.locals⟩).bind fun _ s₂ hs₂ => .pure ⟨htype, hs₂⟩
            rcases mem_setPair hp with rfl | hp
            · exact htype
            · exact h₁.2.types p hp

theorem traces_complexType (hd : d.Grounded document) (name : String) :
    Traces document d d.complexType name := by
  refine traces_resolveType hd _ [] name fun _ => ⟨.nil, ?_⟩
  rw [OrderedMap.keys, List.length_map]
  exact Nat.lt_succ_self _

/-! ## The content models of an element -/

/-- The content of the complex type of an element, be it named or not. -/
def typeContent? (d : Declarations) (e : Xml.Element) : Option (List Node) :=
  match (e.tag.attribute? "type").map (resolveTypeName e.tag) with
  | some (.named t) => (d.complexTypes.get? t).map Xml.Element.content
  | some (.builtin _) => none
  | none => (schemaElement? e.content "complexType").map Xml.Element.content

/-- A content model that the type of an element takes up. -/
def Shapes (d : Declarations) (e : Xml.Element) (model : List Node) : Prop :=
  ∃ content, d.typeContent? e = some content ∧ d.TakesUp content model

/-- An element whose children are named in the content models that its type takes up. -/
structure Described (d : Declarations) (e : Xml.Element) (v : Element) : Prop where
  sound : ∀ n ∈ v.children.map Child.name,
    ∃ model, d.Shapes e model ∧ n ∈ (d.contentModel model).mentions
  complete : Acyclic d.Derives → ∀ model, d.Shapes e model →
    (d.contentModel model).mentions ⊆ v.children.map Child.name

theorem mem_names_ofContent {groups : List ChoiceGroup} {p : Particle} {n : String} :
    n ∈ (Child.ofContent groups p).map Child.name ↔ n ∈ p.mentions := by
  rw [names_ofContent]
  exact List.mem_eraseDups

theorem Composed.described {e : Xml.Element} {t : ResolvedType} {v : Element}
    (htype : d.typeContent? e = some content) (h : d.Composed content t)
    (hv : v.children = Child.ofContent t.choiceGroups t.content) : d.Described e v := by
  refine ⟨fun n hn => ?_, fun hacyclic model hmodel n hn => ?_⟩
  · rw [hv, mem_names_ofContent] at hn
    obtain ⟨model, hmodel, hmem⟩ := h.sound n hn
    exact ⟨model, ⟨content, htype, hmodel⟩, hmem⟩
  · obtain ⟨content', htype', hmodel⟩ := hmodel
    rw [hv, mem_names_ofContent]
    rw [htype] at htype'
    cases htype'
    exact h.complete hacyclic model hmodel hn

theorem described_empty {e : Xml.Element} {v : Element} (htype : d.typeContent? e = none)
    (hv : v.children = []) : d.Described e v := by
  refine ⟨fun n hn => ?_, fun _ model hmodel => ?_⟩
  · rw [hv] at hn
    exact absurd hn List.not_mem_nil
  · obtain ⟨content, hcontent, -⟩ := hmodel
    exact absurd (htype.symm.trans hcontent) (Option.some_ne_none content).symm

theorem traced_resolveElement (hd : d.Grounded document) (hs : Traced document d s) (name : String)
    {e : Xml.Element} (he : Within document e.content) :
    After (d.resolveElement name e) s fun v s' => d.Described e v ∧ Traced document d s' := by
  unfold resolveElement
  dsimp only
  split
  · next t ht =>
    split
    · next t =>
      have htype : d.typeContent? e = (d.complexTypes.get? t).map Xml.Element.content := by
        rw [typeContent?, ht]
      split
      · next hcontains =>
        obtain ⟨c, hc⟩ := OrderedMap.contains_iff_get?.1 hcontains
        rw [hc, Option.map_some] at htype
        refine (traces_complexType hd t s hs).bind fun r s₁ h₁ => ?_
        exact .pure ⟨(h₁.1 c hc).described htype rfl, h₁.2⟩
      · next hcontains =>
        have hnone : d.complexTypes.get? t = none := by
          by_contra hsome
          exact hcontains (OrderedMap.contains_iff_get?.2 (Option.ne_none_iff_exists'.1 hsome))
        rw [hnone, Option.map_none] at htype
        exact .pure ⟨described_empty htype rfl, hs⟩
    · exact .pure ⟨described_empty (by rw [typeContent?, ht]) rfl, hs⟩
  · next hnone =>
    have htype : d.typeContent? e = (schemaElement? e.content "complexType").map
        Xml.Element.content := by
      rw [typeContent?, hnone]
    split
    · next inline hinline =>
      rw [hinline, Option.map_some] at htype
      refine (traced_resolveComplex hd (he.schemaElement? hinline)
        (fun b _ => traces_complexType hd b) hs name).bind fun r s₁ h₁ => ?_
      exact .pure ⟨h₁.1.described htype rfl, h₁.2⟩
    · next hinline =>
      rw [hinline, Option.map_none] at htype
      exact .pure ⟨described_empty htype rfl, hs⟩

/-- The declaration that an element of a model comes from: a global one, or under a name that none
of these has, one that is made in passing. -/
def Origin (document : List Node) (d : Declarations) (name : String) (e : Xml.Element) : Prop :=
  d.elements.get? name = some e ∨ d.InPassing document name e

theorem Origin.within (hd : d.Grounded document) {name : String} {e : Xml.Element}
    (h : Origin document d name e) : Within document e.content :=
  h.elim (hd.elements name e) fun hpassing => .of_inner hpassing.inside.inner

def AllDescribed (document : List Node) (d : Declarations) (elements : OrderedMap Element) : Prop :=
  ∀ p ∈ elements.pairs, ∃ e, Origin document d p.1 e ∧ d.Described e p.2

theorem traced_resolveElements (hd : d.Grounded document) (hs : Traced document d s)
    {declared : List (String × Xml.Element)}
    (hdeclared : ∀ p ∈ declared, Origin document d p.1 p.2) {done : OrderedMap Element}
    (hdone : AllDescribed document d done) :
    After (d.resolveElements declared done) s fun done' s' =>
      AllDescribed document d done' ∧ Traced document d s' := by
  refine After.foldlM ⟨hdone, hs⟩ fun done s p hp h => ?_
  have horigin := hdeclared p hp
  refine (traced_resolveElement hd h.2 p.1 (horigin.within hd)).bind fun v s' hv =>
    .pure ⟨fun q hq => ?_, hv.2⟩
  rcases mem_setPair hq with rfl | hq
  · exact ⟨p.2, horigin, hv.1⟩
  · exact h.1 q hq

theorem traced_resolveLocals (hd : d.Grounded document) (fuel : ℕ) :
    ∀ {done : OrderedMap Element} {s : Findings}, Traced document d s →
      AllDescribed document d done → After (d.resolveLocals fuel done) s fun done' s' =>
        AllDescribed document d done' ∧ Traced document d s' := by
  induction fuel with
  | zero => exact fun hs hdone => .pure ⟨hdone, hs⟩
  | succ fuel ih =>
      intro done s hs hdone
      have hpending : ∀ p ∈ s.locals.pairs.filter (fun p => !done.contains p.1),
          Origin document d p.1 p.2 := fun p hp => .inr (hs.locals p (List.mem_filter.1 hp).1)
      unfold resolveLocals
      refine (After.get (Q := fun a s' => a = s ∧ s' = s) ⟨rfl, rfl⟩).bind ?_
      rintro _ _ ⟨rfl, rfl⟩
      split
      · exact .pure ⟨hdone, hs⟩
      · exact (traced_resolveElements hd hs hpending hdone).bind fun _ _ h => ih h.2 h.1

theorem keeps_resolveEnums (d : Declarations) : After d.resolveEnums s fun _ s' =>
    s'.types = s.types ∧ s'.locals = s.locals := by
  refine After.foldlM ⟨rfl, rfl⟩ fun enums s' name _ hs' => ?_
  refine (d.keeps_lookupFacets name).bind fun f s'' h => ?_
  split <;> exact .pure ⟨h.1.trans hs'.1, h.2.trans hs'.2⟩

theorem traced_resolveAll (hd : d.Grounded document) (content : List Node) :
    After (d.resolveAll content) .none fun r s =>
      AllDescribed document d r.1 ∧ Traced document d s := by
  have hnone : Traced document d .none :=
    ⟨fun _ hp => absurd hp List.not_mem_nil, fun _ hp => absurd hp List.not_mem_nil⟩
  have hglobals : ∀ p ∈ d.elements.pairs, Origin document d p.1 p.2 := fun p hp =>
    .inl (OrderedMap.get?_eq_some_iff.2 hp)
  unfold resolveAll
  refine (traced_resolveElements hd hnone hglobals fun _ hp => absurd hp List.not_mem_nil).bind
    fun globals s₁ h₁ => ?_
  refine (traced_resolveLocals hd _ h₁.2 h₁.1).bind fun elements s₂ h₂ => ?_
  exact d.keeps_resolveEnums.bind fun enums s₃ h₃ => .pure ⟨h₂.1, h₂.2.of_eq h₃⟩

end Declarations

end GrammarProfile.Grammar
