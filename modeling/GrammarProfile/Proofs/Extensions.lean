import GrammarProfile.Proofs.AnyOrder
import GrammarProfile.Proofs.TakenModels

/-!
An extension only adds. What a complex type takes from the named type that it extends stands in it as
it stands there: the children first and with no smaller bounds, the choice groups after its own, and
the attributes in their order, as far as the extension does not prohibit them.
-/
namespace GrammarProfile

namespace OrderedMap

variable {α : Type}

theorem keys_erase (m : OrderedMap α) (name : String) :
    (m.erase name).keys = m.keys.filter (· != name) := by
  rw [keys, keys, List.filter_map]
  rfl

theorem get?_erase (m : OrderedMap α) {name n : String} (h : n ≠ name) :
    (m.erase name).get? n = m.get? n := by
  refine Option.ext fun value => ?_
  rw [get?_eq_some_iff, get?_eq_some_iff]
  exact List.mem_filter.trans (and_iff_left (bne_iff_ne.2 h))

end OrderedMap

namespace Grammar

open GrammarProfile.Xml (Tag Node)

variable {document content own : List Node} {d : Declarations} {s s' s'' : Findings}

/-! ## Bounds of parts that follow each other -/

namespace Occurs

/-- Both bounds are no larger. -/
structure AtMost (o o' : Occurs) : Prop where
  min : o.min.val ≤ o'.min.val
  most : o.most ≤ o'.most

theorem AtMost.trans {a b c : Occurs} (hab : a.AtMost b) (hbc : b.AtMost c) : a.AtMost c :=
  ⟨hab.min.trans hbc.min, hab.most.trans hbc.most⟩

theorem atMost_add (o p : Occurs) : o.AtMost (o.add p) := by
  have hle : ∀ a b : Count, a.val ≤ (a.add b).val := fun a b =>
    Nat.le_min.2 ⟨Nat.le_add_right _ _, a.le_limit⟩
  refine ⟨hle _ _, ?_⟩
  obtain ⟨lo, _ | hi⟩ := o
  · exact le_refl _
  · obtain ⟨lo', _ | hi'⟩ := p
    · exact le_top
    · exact Nat.cast_le.2 (hle hi hi')

end Occurs

namespace Particle

/-- Of two parts that follow each other once, the bounds of every name add up. -/
theorem bound_sequence_once (p q : Particle) (n : String) :
    Tally.bound (sequence .once [p, q]).occurrences n =
      (Tally.bound p.occurrences n).add (Tally.bound q.occurrences n) := by
  have hempty : Tally.bound .empty n = .never := rfl
  have hmerge : ∀ a b : Tally, (Tally.merge a b).bound n = (a.bound n).add (b.bound n) :=
    fun a b => Tally.bound_foldl_mergeOne b.pairs b.distinct a n
  simp only [occurrences, occurrencesOf, List.foldl_cons, List.foldl_nil, Tally.bound_scale,
    Occurs.times_once, hmerge, hempty, Tally.never_add]

theorem elementNames_sequence (o : Occurs) (p q : Particle) :
    p.elementNames <+: (sequence o [p, q]).elementNames := by
  rw [elementNames, elementNames, mentions, mentionsOf, Text.eraseDups_append]
  exact List.prefix_append _ _

end Particle

/-- The bounds of a child. -/
def Child.occurs (c : Child) : Occurs := ⟨c.minOccurs, c.maxOccurs⟩

theorem Child.occurs_of_mem {groups : List ChoiceGroup} {p : Particle} {c : Child}
    (hc : c ∈ ofContent groups p) : c.occurs = Tally.bound p.occurrences c.name := by
  obtain ⟨⟨n, o⟩, hp, rfl⟩ := List.mem_map.1 hc
  rw [Tally.bound, OrderedMap.get?_eq_some_iff.2 hp]
  rfl

/-- The children that a type gives to an element. -/
def ResolvedType.children (t : ResolvedType) : List Child :=
  Child.ofContent t.choiceGroups t.content

namespace Declarations

/-! ## Attributes that an extension names -/

/-- The name of the attribute that an attribute element declares or refers to. -/
def attributeName? (e : Xml.Element) : Option String :=
  match e.tag.attribute? "ref" with
  | some r => some (localName r)
  | none => e.tag.attribute? "name"

/-- An attribute element stands directly under a node, or in a group that is referred to there. -/
inductive HoldsAttribute (d : Declarations) : List Node → Xml.Element → Prop
  | direct {content : List Node} {e : Xml.Element} (he : e ∈ schemaElements content)
      (htag : e.tag.name = "attribute") : HoldsAttribute d content e
  | grouped {content : List Node} {r group e : Xml.Element} {name : String}
      (hr : r ∈ schemaElements content) (htag : r.tag.name = "attributeGroup")
      (href : (r.tag.attribute? "ref").map localName = some name)
      (hgroup : d.attributeGroups.get? name = some group)
      (he : HoldsAttribute d group.content e) : HoldsAttribute d content e

/-- An attribute is prohibited under a node. -/
def Prohibits (d : Declarations) (content : List Node) (n : String) : Prop :=
  ∃ e, d.HoldsAttribute content e ∧ attributeName? e = some n ∧
    e.tag.attribute? "use" = some "prohibited"

/-- An attribute is declared under a node. -/
def DeclaresAttribute (d : Declarations) (content : List Node) (n : String) : Prop :=
  ∃ e, d.HoldsAttribute content e ∧ attributeName? e = some n ∧
    e.tag.attribute? "use" ≠ some "prohibited"

theorem holdsAttribute_of_mem (fuel : ℕ) : ∀ (visited : List String) (content : List Node),
    ∀ e ∈ (d.attributeElements fuel visited (schemaElements content)).1,
      d.HoldsAttribute content e := by
  induction fuel with
  | zero => exact fun _ _ e he => absurd he List.not_mem_nil
  | succ fuel ih =>
      intro visited content
      unfold attributeElements
      refine List.foldlRecOn (motive := fun r : List Xml.Element × List String =>
        ∀ e ∈ r.1, d.HoldsAttribute content e) _ _ (fun e he => absurd he List.not_mem_nil) ?_
      rintro ⟨found, visited⟩ hfound r hr
      dsimp only at hfound ⊢
      split
      · next hattribute =>
        refine List.forall_mem_append.2 ⟨hfound, fun e he => ?_⟩
        obtain rfl := List.mem_singleton.1 he
        exact .direct hr (beq_iff_eq.1 hattribute)
      · split
        · next hgroup =>
          split
          · exact hfound
          · next name hname =>
            split
            · exact hfound
            · next group hget =>
              split
              · exact hfound
              · refine List.forall_mem_append.2 ⟨hfound, fun e he => ?_⟩
                exact .grouped hr (beq_iff_eq.1 hgroup) hname hget (ih _ _ e he)
        · exact hfound

/-- Attributes with those of a base in their order, and new ones after them. -/
structure TakesOver (d : Declarations) (own : List Node) (base attributes : OrderedMap Attribute) :
    Prop where
  order : ∃ kept added, attributes.keys = kept ++ added ∧ kept.Sublist base.keys ∧
    (∀ n ∈ base.keys, ¬d.Prohibits own n → n ∈ kept) ∧ ∀ n ∈ added, d.DeclaresAttribute own n
  same : ∀ n a, base.get? n = some a → ¬d.Prohibits own n → ¬d.DeclaresAttribute own n →
    attributes.get? n = some a

theorem TakesOver.refl (attributes : OrderedMap Attribute) : d.TakesOver own attributes attributes :=
  ⟨⟨attributes.keys, [], (List.append_nil _).symm, List.Sublist.refl _, fun _ hn _ => hn,
    fun _ hn => absurd hn List.not_mem_nil⟩, fun _ _ ha _ _ => ha⟩

section

variable {base attributes : OrderedMap Attribute} {n : String}

theorem TakesOver.insert (h : d.TakesOver own base attributes) (hn : d.DeclaresAttribute own n)
    (a : Attribute) : d.TakesOver own base (attributes.insert n a) := by
  obtain ⟨kept, added, hkeys, hsub, hall, hnew⟩ := h.order
  refine ⟨?_, fun m b hb hprohibited hdeclared => ?_⟩
  · rw [OrderedMap.keys_insert]
    split
    · exact ⟨kept, added, hkeys, hsub, hall, hnew⟩
    · refine ⟨kept, added ++ [n], ?_, hsub, hall, List.forall_mem_append.2 ⟨hnew, ?_⟩⟩
      · rw [hkeys, List.append_assoc]
      · exact fun m hm => List.mem_singleton.1 hm ▸ hn
  · have hne : m ≠ n := fun hmn => hdeclared (hmn ▸ hn)
    rw [OrderedMap.get?_insert, if_neg hne]
    exact h.same m b hb hprohibited hdeclared

theorem TakesOver.erase (h : d.TakesOver own base attributes) (hn : d.Prohibits own n) :
    d.TakesOver own base (attributes.erase n) := by
  obtain ⟨kept, added, hkeys, hsub, hall, hnew⟩ := h.order
  refine ⟨⟨kept.filter (· != n), added.filter (· != n), ?_, List.filter_sublist.trans hsub,
    fun m hm hprohibited => ?_, fun m hm => hnew m (List.mem_of_mem_filter hm)⟩,
    fun m b hb hprohibited hdeclared => ?_⟩
  · rw [OrderedMap.keys_erase, hkeys, List.filter_append]
  · have hne : m ≠ n := fun hmn => hprohibited (hmn ▸ hn)
    exact List.mem_filter.2 ⟨hall m hm hprohibited, bne_iff_ne.2 hne⟩
  · have hne : m ≠ n := fun hmn => hprohibited (hmn ▸ hn)
    rw [OrderedMap.get?_erase _ hne]
    exact h.same m b hb hprohibited hdeclared

end

/-- What an attribute element says of an attribute. -/
def Says (e : Xml.Element) : AttributeRule → Prop
  | .declared a => attributeName? e = some a.name ∧ e.tag.attribute? "use" ≠ some "prohibited"
  | .prohibited n => attributeName? e = some n ∧ e.tag.attribute? "use" = some "prohibited"

theorem says_attributeRule? (e : Xml.Element) : After (d.attributeRule? e) s fun rule _ =>
    ∀ r, rule = some r → Says e r := by
  unfold attributeRule?
  dsimp only
  split
  · exact .pure nofun
  · next name hname =>
    have hname : attributeName? e = some name := hname
    have huse : (e.tag.attribute? "use").getD "optional" = "prohibited" ↔
        e.tag.attribute? "use" = some "prohibited" := by
      cases e.tag.attribute? "use" <;> simp
    split
    · next hprohibited =>
      have hprohibited := huse.1 (beq_iff_eq.1 hprohibited)
      exact .pure fun r hr => Option.some.inj hr ▸ ⟨hname, hprohibited⟩
    · next hdeclared =>
      have hdeclared := fun h => hdeclared (beq_iff_eq.2 (huse.2 h))
      split
      · exact After.bind (P := fun _ _ => True) trivial fun _ _ _ =>
          .pure fun r hr => Option.some.inj hr ▸ ⟨hname, hdeclared⟩
      · exact .pure fun r hr => Option.some.inj hr ▸ ⟨hname, hdeclared⟩
      · exact After.bind (P := fun _ _ => True) trivial fun _ _ _ =>
          .pure fun r hr => Option.some.inj hr ▸ ⟨hname, hdeclared⟩

theorem takesOver_applyAttributes (own : List Node) (base : OrderedMap Attribute) :
    After (d.applyAttributes own base) s fun attributes _ => d.TakesOver own base attributes := by
  have hheld : ∀ e ∈ (d.attributeElements (d.attributeGroups.size + 1) [] (schemaElements own)).1,
      d.HoldsAttribute own e := holdsAttribute_of_mem _ [] own
  refine After.foldlM (.refl base) fun attributes s e he h => ?_
  have hheld := hheld e he
  refine (says_attributeRule? e).bind fun rule s' hrule => ?_
  split
  · next a => exact .pure (h.insert ⟨e, hheld, hrule _ rfl⟩ a)
  · next n => exact .pure (h.erase ⟨e, hheld, hrule _ rfl⟩)
  · exact .pure h

/-! ## Extensions -/

/-- The content of a complex type is an extension of a named complex type; `extension` is the element
that says so. -/
structure Extends (d : Declarations) (content : List Node) (extension : Xml.Element) (b : String) :
    Prop where
  derived : ∃ wrapper, schemaElement? content "complexContent" = some wrapper ∧
    derive? wrapper = some extension
  kind : extension.tag.name = "extension"
  base : d.baseOf? extension = some b

/-- A type under a label that extends another one only adds to it. -/
structure OnlyAdds (d : Declarations) (label : String) (own : List Node) (b : String)
    (base t : ResolvedType) : Prop where
  names : base.children.map Child.name <+: t.children.map Child.name
  bounds : ∀ c ∈ base.children, ∀ c' ∈ t.children, c'.name = c.name → c.occurs.AtMost c'.occurs
  groups : t.choiceGroups =
    Grammar.choiceGroups label (d.contentModel own) 0 ++ base.choiceGroups
  bases : t.baseTypes = b :: base.baseTypes
  attributes : d.TakesOver own base.attributes t.attributes

theorem OnlyAdds.of_parts {label b : String} {base t : ResolvedType}
    (hcontent : t.content = .sequence .once [base.content, d.contentModel own])
    (hgroups : t.choiceGroups =
      Grammar.choiceGroups label (d.contentModel own) 0 ++ base.choiceGroups)
    (hbases : t.baseTypes = b :: base.baseTypes)
    (hattributes : d.TakesOver own base.attributes t.attributes) : d.OnlyAdds label own b base t := by
  refine ⟨?_, fun c hc c' hc' hname => ?_, hgroups, hbases, hattributes⟩
  · rw [ResolvedType.children, ResolvedType.children, names_ofContent, names_ofContent, hcontent]
    exact Particle.elementNames_sequence _ _ _
  · rw [Child.occurs_of_mem hc, Child.occurs_of_mem hc', hname, hcontent,
      Particle.bound_sequence_once]
    exact Occurs.atMost_add _ _

/-- What a type that has been found takes from the types of its schema that it extends. -/
def Adds (d : Declarations) (s : Findings) (label : String) (content : List Node)
    (t : ResolvedType) : Prop :=
  ∀ extension b, d.Extends content extension b → ∃ base, s.types.get? b = some base ∧
    d.OnlyAdds label extension.content b base t

end Declarations

/-- No type that has been found is forgotten or changed. -/
def Findings.Kept (s s' : Findings) : Prop :=
  ∀ name t, s.types.get? name = some t → s'.types.get? name = some t

namespace Declarations

theorem Adds.mono {label : String} {t : ResolvedType} (h : d.Adds s label content t)
    (hkept : s.Kept s') : d.Adds s' label content t := by
  intro extension b hextends
  obtain ⟨base, hbase, hadds⟩ := h extension b hextends
  exact ⟨base, hkept b base hbase, hadds⟩

/-- Findings in which the named types only add to those that they extend. -/
def Additive (d : Declarations) (s : Findings) : Prop :=
  ∀ name t, s.types.get? name = some t → ∀ e, d.complexTypes.get? name = some e →
    d.Adds s name e.content t

/-- Findings that come after others while some types are being worked out. -/
structure Further (d : Declarations) (opened : List String) (s s' : Findings) : Prop where
  additive : d.Additive s'
  kept : s.Kept s'
  fresh : ∀ n ∈ s'.types.keys, n ∈ s.types.keys ∨ n ∉ opened

theorem Further.of_types_eq {opened : List String} (hs : d.Additive s) (h : s'.types = s.types) :
    d.Further opened s s' := by
  have hkept : s.Kept s' := fun name t ht => h ▸ ht
  refine ⟨fun name t ht e he => ?_, hkept, fun n hn => .inl (h ▸ hn)⟩
  exact (hs name t (h ▸ ht) e he).mono hkept

theorem Further.trans {opened : List String} (h : d.Further opened s s')
    (h' : d.Further opened s' s'') : d.Further opened s s'' :=
  ⟨h'.additive, fun name t ht => h'.kept name t (h.kept name t ht),
    fun n hn => (h'.fresh n hn).elim (h.fresh n) .inr⟩

/-- What working out a named type comes to. -/
def FindsType (d : Declarations) (opened : List String) (named : String → Resolving ResolvedType)
    (b : String) : Prop :=
  ∀ s, d.Additive s → After (named b) s fun t s' =>
    (∀ e, d.complexTypes.get? b = some e → s'.types.get? b = some t) ∧ d.Further opened s s'

section

variable {opened : List String} {named : String → Resolving ResolvedType} {label : String}

theorem found_withBases {b? : Option String}
    (hnamed : ∀ b, b? = some b → d.FindsType opened named b) (hs : d.Additive s) :
    After (withBases named b?) s fun base s' =>
      (∀ b, b? = some b → base.2 = b :: base.1.baseTypes ∧
        ∀ e, d.complexTypes.get? b = some e → s'.types.get? b = some base.1) ∧
        d.Further opened s s' := by
  cases b? with
  | none => exact .pure ⟨nofun, .of_types_eq hs rfl⟩
  | some b =>
      refine (hnamed b rfl s hs).bind fun t s₁ h => .pure ⟨fun b' hb => ?_, h.2⟩
      cases hb
      exact ⟨rfl, h.1⟩

theorem onlyAdds_derived {derive : Xml.Element} (hkind : derive.tag.name = "extension") {b : String}
    {base : ResolvedType × List String} (hbases : base.2 = b :: base.1.baseTypes) (doc : String) :
    After (d.derived derive false doc label base) s fun t _ =>
      d.OnlyAdds label derive.content b base.1 t := by
  unfold derived
  refine (takesOver_applyAttributes derive.content base.1.attributes).bind fun attributes s₁ h₁ => ?_
  refine After.bind (P := fun model _ => model = d.contentModel derive.content) rfl ?_
  rintro _ s₂ rfl
  dsimp only
  rw [if_pos (beq_iff_eq.2 hkind)]
  exact .pure (.of_parts rfl rfl hbases h₁)

theorem keeps_derived {derive : Xml.Element} (simple : Bool) (base : ResolvedType × List String)
    (doc : String) : After (d.derived derive simple doc label base) s fun _ s' =>
      s'.types = s.types := by
  unfold derived
  refine (d.keeps_applyAttributes derive.content _).bind fun attributes s₁ h₁ => ?_
  split
  · exact .pure h₁.1
  · refine (d.keeps_resolveContent derive.content).bind fun model s₂ h₂ => ?_
    dsimp only
    split <;> exact .pure (h₂.trans h₁.1)

theorem Extends.derivation? {extension : Xml.Element} {b : String}
    (h : d.Extends content extension b) : ∃ wrapper,
      Declarations.derivation? content = some (wrapper, false) ∧ derive? wrapper = some extension := by
  obtain ⟨wrapper, hwrapper, hderive⟩ := h.derived
  exact ⟨wrapper, by rw [Declarations.derivation?, hwrapper], hderive⟩

/-- A complex type only adds to the named type that it extends. -/
theorem adds_resolveComplex (hnamed : ∀ b, d.base? content = some b → d.FindsType opened named b)
    (hs : d.Additive s) (label : String) :
    After (d.resolveComplex named content label) s fun t s' =>
      d.Adds s' label content t ∧ d.Further opened s s' := by
  cases hderivation : Declarations.derivation? content with
  | none =>
      rw [resolveComplex_plain d named label hderivation]
      refine (d.keeps_resolveContent content).bind fun model s₁ h₁ => ?_
      refine (d.keeps_applyAttributes content ∅).bind fun attributes s₂ h₂ => ?_
      refine .pure ⟨fun extension b hextends => ?_, .of_types_eq hs (h₂.1.trans h₁)⟩
      obtain ⟨wrapper, hsome, -⟩ := hextends.derivation?
      exact absurd (hderivation.symm.trans hsome) (Option.some_ne_none _).symm
  | some w =>
      obtain ⟨wrapper, simple⟩ := w
      have hextension : ∀ {extension b}, d.Extends content extension b →
          simple = false ∧ derive? wrapper = some extension := by
        intro extension b hextends
        obtain ⟨wrapper', hsome, hderive⟩ := hextends.derivation?
        cases hderivation.symm.trans hsome
        exact ⟨rfl, hderive⟩
      cases hderive : derive? wrapper with
      | none =>
          rw [resolveComplex_nothing d named label hderivation hderive]
          refine .pure ⟨fun extension b hextends => ?_, .of_types_eq hs rfl⟩
          exact absurd (hderive.symm.trans (hextension hextends).2) (Option.some_ne_none _).symm
      | some derive =>
          have hbase : d.base? content = d.baseOf? derive := by
            rw [base?, hderivation, Option.bind_some, hderive, Option.bind_some]
          rw [hbase] at hnamed
          rw [resolveComplex_derived d named label hderivation hderive]
          refine (found_withBases hnamed hs).bind fun base s₁ h₁ => ?_
          have hkeeps : After (d.derived derive simple (documentation content) label base) s₁
              fun _ s' => s'.types = s₁.types := keeps_derived simple base _
          refine ⟨fun extension b hextends => ?_, h₁.2.trans (.of_types_eq h₁.2.additive hkeeps)⟩
          obtain ⟨rfl, hsome⟩ := hextension hextends
          obtain rfl := Option.some.inj (hderive.symm.trans hsome)
          obtain ⟨hbases, hfound⟩ := h₁.1 b hextends.base
          obtain ⟨e, he⟩ := contains_of_baseOf? hextends.base
          refine ⟨base.1, ?_, onlyAdds_derived hextends.kind hbases _⟩
          rw [hkeeps]
          exact hfound e he

/-- A declared type is found, and no later step changes it. -/
theorem findsType_resolveType (hderivations : Acyclic d.Derives) (fuel : ℕ) :
    ∀ (opened : List String) (name : String), Way d.Derives d.complexTypes.keys opened name →
      d.complexTypes.keys.length < fuel + opened.length →
      d.FindsType opened (d.resolveType fuel opened) name := by
  induction fuel with
  | zero =>
      intro opened name hway hfuel
      have hle := hway.length_le
      omega
  | succ fuel ih =>
      intro opened name hway hfuel s hs
      unfold resolveType
      refine (After.get (Q := fun a s' => a = s ∧ s' = s) ⟨rfl, rfl⟩).bind ?_
      rintro _ _ ⟨rfl, rfl⟩
      split
      · next known hknown => exact .pure ⟨fun _ _ => hknown, .of_types_eq hs rfl⟩
      · next hunknown =>
        split
        · next hnone =>
          refine .pure ⟨fun e he => ?_, .of_types_eq hs rfl⟩
          exact absurd (hnone.symm.trans he) (Option.some_ne_none e).symm
        · next e he =>
          have hclosed := hway.not_mem hderivations
          have hname : name ∈ d.complexTypes.keys :=
            OrderedMap.get?_isSome.1 (Option.isSome_iff_exists.2 ⟨e, he⟩)
          rw [if_neg (by simpa using hclosed)]
          have hbase : ∀ b, d.base? e.content = some b →
              d.FindsType (name :: opened) (d.resolveType fuel (name :: opened)) b := fun b hb =>
            ih (name :: opened) b (hway.cons hderivations hname ⟨e, he, hb⟩)
              (by rw [List.length_cons]; omega)
          refine (adds_resolveComplex hbase hs name).bind fun t s₁ h₁ => ?_
          have hnew : name ∉ s₁.types.keys := fun hmem =>
            (h₁.2.fresh name hmem).elim (OrderedMap.get?_eq_none_iff.1 hunknown)
              fun hopened => hopened List.mem_cons_self
          have hget : ∀ n, (s₁.types.insert name t).get? n =
              if n = name then some t else s₁.types.get? n := OrderedMap.get?_insert _ _ _
          have hkept : s₁.Kept { s₁ with types := s₁.types.insert name t } := by
            intro n u hu
            have hne : n ≠ name := by
              rintro rfl
              exact hnew (OrderedMap.get?_isSome.1 (Option.isSome_iff_exists.2 ⟨u, hu⟩))
            exact (hget n).trans ((if_neg hne).trans hu)
          refine (After.modified (Q := fun _ s₂ => s₂.types.get? name = some t ∧
            d.Further opened _ s₂) ⟨(hget name).trans (if_pos rfl), fun n u hu e' he' => ?_,
              fun n u hu => hkept n u (h₁.2.kept n u hu), fun n hn => ?_⟩).bind
            fun _ s₂ h₂ => .pure ⟨fun _ _ => h₂.1, h₂.2⟩
          · refine Adds.mono ?_ hkept
            rw [hget] at hu
            split at hu
            · next hn =>
              cases hu
              subst hn
              exact Option.some.inj (he.symm.trans he') ▸ h₁.1
            · exact h₁.2.additive n u hu e' he'
          · rcases mem_names_setPair.1 hn with rfl | hn
            · exact .inr hclosed
            · exact (h₁.2.fresh n hn).imp_right fun hnot hmem => hnot (List.mem_cons_of_mem _ hmem)

theorem findsType_complexType (hderivations : Acyclic d.Derives) (name : String) :
    d.FindsType [] d.complexType name := by
  refine findsType_resolveType hderivations _ [] name .nil ?_
  rw [OrderedMap.keys, List.length_map]
  exact Nat.lt_succ_self _

end

/-! ### Whatever was resolved before -/

/-- Findings that come about when types are worked out in any order. -/
inductive Found (d : Declarations) : Findings → Prop
  | none : Found d .none
  | complexType {s : Findings} (hs : Found d s) (name : String) :
      Found d ((d.complexType name).run s).2
  | inline {s : Findings} (hs : Found d s) (content : List Node) (label : String) :
      Found d ((d.resolveComplex d.complexType content label).run s).2
  | simpleType {s : Findings} (hs : Found d s) (name : String) :
      Found d ((d.lookupFacets name).run s).2

theorem additive_none : d.Additive .none := fun _ _ h => absurd h (Option.some_ne_none _).symm

theorem Found.additive (hderivations : Acyclic d.Derives) (hs : d.Found s) : d.Additive s := by
  induction hs with
  | none => exact additive_none
  | complexType hs name ih => exact (findsType_complexType hderivations name _ ih).2.additive
  | inline hs content label ih =>
      exact (adds_resolveComplex (fun b _ => findsType_complexType hderivations b) ih
        label).2.additive
  | simpleType hs name ih =>
      have hfurther : d.Further [] _ _ := .of_types_eq ih rfl
      exact hfurther.additive

/-- An extension only adds to the named type that it extends, be it the type of a name or one that
has no name, and whatever was resolved before. -/
theorem extension_only_adds (hderivations : Acyclic d.Derives) (hs : d.Found s) :
    (∀ name e, d.complexTypes.get? name = some e → After (d.complexType name) s fun t s' =>
      s'.types.get? name = some t ∧ s.Kept s' ∧ d.Adds s' name e.content t) ∧
    ∀ content label, After (d.resolveComplex d.complexType content label) s fun t s' =>
      s.Kept s' ∧ d.Adds s' label content t := by
  have hadditive := hs.additive hderivations
  refine ⟨fun name e he => ?_, fun content label => ?_⟩
  · obtain ⟨hfound, hfurther⟩ : _ ∧ _ := findsType_complexType hderivations name s hadditive
    have hget := hfound e he
    exact ⟨hget, hfurther.kept, hfurther.additive name _ hget e he⟩
  · obtain ⟨hadds, hfurther⟩ : _ ∧ _ :=
      adds_resolveComplex (fun b _ => findsType_complexType hderivations b) hadditive label
    exact ⟨hfurther.kept, hadds⟩

/-! ### Extensions of extensions -/

/-- A type holds what another one holds, with the groups and bases of that one at the end. -/
structure BuildsOn (b : String) (base t : ResolvedType) : Prop where
  names : base.children.map Child.name <+: t.children.map Child.name
  bounds : ∀ c ∈ base.children, ∀ c' ∈ t.children, c'.name = c.name → c.occurs.AtMost c'.occurs
  groups : base.choiceGroups <:+ t.choiceGroups
  bases : b :: base.baseTypes <:+ t.baseTypes

theorem OnlyAdds.buildsOn {label b : String} {base t : ResolvedType}
    (h : d.OnlyAdds label own b base t) : BuildsOn b base t where
  names := h.names
  bounds := h.bounds
  groups := h.groups ▸ List.suffix_append _ _
  bases := h.bases ▸ List.suffix_refl _

theorem BuildsOn.trans {a b : String} {low mid t : ResolvedType} (h : BuildsOn a low mid)
    (h' : BuildsOn b mid t) : BuildsOn a low t := by
  refine ⟨h.names.trans h'.names, fun c hc c' hc' hname => ?_, h.groups.trans h'.groups,
    (h.bases.trans (List.suffix_cons _ _)).trans h'.bases⟩
  obtain ⟨k, hk, hkname⟩ := List.mem_map.1 (h.names.subset (List.mem_map_of_mem hc))
  exact (h.bounds c hc k hk hkname).trans (h'.bounds k hk c' hc' (hname.trans hkname.symm))

/-- A named complex type is an extension of another one. -/
def ExtendsType (d : Declarations) (name b : String) : Prop :=
  ∃ e extension, d.complexTypes.get? name = some e ∧ d.Extends e.content extension b

/-- Over any number of extensions a type that was found builds on the one at their end. -/
theorem Additive.buildsOn (hs : d.Additive s) {name b : String} {t : ResolvedType}
    (ht : s.types.get? name = some t) (hchain : Relation.TransGen d.ExtendsType name b) :
    ∃ base, s.types.get? b = some base ∧ BuildsOn b base t := by
  induction hchain with
  | single hextends =>
      obtain ⟨e, extension, he, hextends⟩ := hextends
      obtain ⟨base, hbase, hadds⟩ := hs name t ht e he extension _ hextends
      exact ⟨base, hbase, hadds.buildsOn⟩
  | tail _ hextends ih =>
      obtain ⟨mid, hmid, hbuilds⟩ := ih
      obtain ⟨e, extension, he, hextends⟩ := hextends
      obtain ⟨base, hbase, hadds⟩ := hs _ mid hmid e he extension _ hextends
      exact ⟨base, hbase, hadds.buildsOn.trans hbuilds⟩

/-! ## The elements of a grammar -/

/-- An element has all that a type has. -/
structure Shows (v : Element) (t : ResolvedType) : Prop where
  children : v.children = t.children
  attributes : v.attributes = t.attributes.values
  groups : v.choiceGroups = t.choiceGroups
  bases : v.baseTypes = t.baseTypes

/-- An element has what its type has, which only adds to the type that it extends. -/
def ShowsType (d : Declarations) (s : Findings) (e : Xml.Element) (v : Element) : Prop :=
  ∀ content, d.typeContent? e = some content →
    ∃ label t, Shows v t ∧ d.Adds s label content t

theorem ShowsType.mono {e : Xml.Element} {v : Element} (h : d.ShowsType s e v)
    (hkept : s.Kept s') : d.ShowsType s' e v := by
  intro content hcontent
  obtain ⟨label, t, hv, ht⟩ := h content hcontent
  exact ⟨label, t, hv, ht.mono hkept⟩

theorem showsType_resolveElement (hderivations : Acyclic d.Derives) (hs : d.Additive s)
    (name : String) (e : Xml.Element) : After (d.resolveElement name e) s fun v s' =>
      d.ShowsType s' e v ∧ d.Further [] s s' := by
  have hnothing : ∀ {v : Element}, d.typeContent? e = none → d.ShowsType s e v ∧ d.Further [] s s :=
    fun hnone => ⟨fun content hcontent =>
      absurd (hnone.symm.trans hcontent) (Option.some_ne_none _).symm, .of_types_eq hs rfl⟩
  unfold resolveElement
  dsimp only
  split
  · next t ht =>
    split
    · next t =>
      have htype : d.typeContent? e = (d.complexTypes.get? t).map Xml.Element.content := by
        rw [typeContent?, ht]
      split
      · next hcontains =>
        obtain ⟨c, hc⟩ := OrderedMap.contains_iff_get?.1 hcontains
        rw [hc, Option.map_some] at htype
        refine (findsType_complexType hderivations t s hs).bind fun r s₁ h₁ => .pure ⟨?_, h₁.2⟩
        intro content hcontent
        cases htype.symm.trans hcontent
        exact ⟨t, r, ⟨rfl, rfl, rfl, rfl⟩, h₁.2.additive t r (h₁.1 c hc) c hc⟩
      · next hcontains =>
        have hnone : d.complexTypes.get? t = none := by
          by_contra hsome
          exact hcontains (OrderedMap.contains_iff_get?.2 (Option.ne_none_iff_exists'.1 hsome))
        rw [hnone, Option.map_none] at htype
        exact .pure (hnothing htype)
    · exact .pure (hnothing (by rw [typeContent?, ht]))
  · next hnone =>
    have htype : d.typeContent? e = (schemaElement? e.content "complexType").map
        Xml.Element.content := by
      rw [typeContent?, hnone]
    split
    · next inline hinline =>
      rw [hinline, Option.map_some] at htype
      refine (adds_resolveComplex (fun b _ => findsType_complexType hderivations b) hs name).bind
        fun r s₁ h₁ => .pure ⟨?_, h₁.2⟩
      intro content hcontent
      cases htype.symm.trans hcontent
      exact ⟨name, r, ⟨rfl, rfl, rfl, rfl⟩, h₁.1⟩
    · next hinline =>
      rw [hinline, Option.map_none] at htype
      exact .pure (hnothing htype)

/-- The elements that have been resolved, each with a declaration that it comes from. -/
def AllShown (document : List Node) (d : Declarations) (s : Findings)
    (elements : OrderedMap Element) : Prop :=
  ∀ p ∈ elements.pairs, ∃ e, Origin document d p.1 e ∧ d.ShowsType s e p.2

theorem found_resolveElement (hs : d.Found s) (name : String) (e : Xml.Element) :
    After (d.resolveElement name e) s fun _ s' => d.Found s' := by
  unfold resolveElement
  dsimp only
  split
  · split
    · next t _ =>
      split
      · have htype : After (d.complexType t) s fun _ s' => d.Found s' := hs.complexType t
        exact htype.bind fun _ _ h => .pure h
      · exact .pure hs
    · exact .pure hs
  · split
    · next inline _ =>
      have htype : After (d.resolveComplex d.complexType inline.content name) s
          fun _ s' => d.Found s' := hs.inline inline.content name
      exact htype.bind fun _ _ h => .pure h
    · exact .pure hs

section

variable (hd : d.Grounded document) (hderivations : Acyclic d.Derives)

include hd hderivations

theorem shown_resolveElements {declared : List (String × Xml.Element)}
    (hdeclared : ∀ p ∈ declared, Origin document d p.1 p.2) {done : OrderedMap Element}
    (hdone : AllShown document d s done) (hs : d.Found s) (htraced : Traced document d s) :
    After (d.resolveElements declared done) s fun done' s' =>
      AllShown document d s' done' ∧ d.Found s' ∧ Traced document d s' := by
  refine After.foldlM ⟨hdone, hs, htraced⟩ fun done s p hp ⟨hdone, hs, htraced⟩ => ?_
  have horigin := hdeclared p hp
  have hstep : After (d.resolveElement p.1 p.2) s fun v s' => (d.ShowsType s' p.2 v ∧ s.Kept s') ∧
      d.Found s' ∧ Traced document d s' := by
    obtain ⟨hshows, hfurther⟩ : _ ∧ _ :=
      showsType_resolveElement hderivations (hs.additive hderivations) p.1 p.2
    obtain ⟨-, htraced⟩ : _ ∧ _ := traced_resolveElement hd htraced p.1 (horigin.within hd)
    exact ⟨⟨hshows, hfurther.kept⟩, found_resolveElement hs p.1 p.2, htraced⟩
  refine hstep.bind fun v s' ⟨⟨hshows, hkept⟩, hfound⟩ => .pure ⟨fun q hq => ?_, hfound⟩
  rcases mem_setPair hq with rfl | hq
  · exact ⟨p.2, horigin, hshows⟩
  · obtain ⟨e, he, hv⟩ := hdone q hq
    exact ⟨e, he, hv.mono hkept⟩

theorem shown_resolveLocals (fuel : ℕ) : ∀ {done : OrderedMap Element} {s : Findings},
    AllShown document d s done → d.Found s → Traced document d s →
      After (d.resolveLocals fuel done) s fun done' s' => AllShown document d s' done' ∧ d.Found s' := by
  induction fuel with
  | zero => exact fun hdone hs _ => .pure ⟨hdone, hs⟩
  | succ fuel ih =>
      intro done s hdone hs htraced
      have hpending : ∀ p ∈ s.locals.pairs.filter (fun p => !done.contains p.1),
          Origin document d p.1 p.2 := fun p hp => .inr (htraced.locals p (List.mem_filter.1 hp).1)
      unfold resolveLocals
      refine (After.get (Q := fun a s' => a = s ∧ s' = s) ⟨rfl, rfl⟩).bind ?_
      rintro _ _ ⟨rfl, rfl⟩
      split
      · exact .pure ⟨hdone, hs⟩
      · exact (shown_resolveElements hd hderivations hpending hdone hs htraced).bind
          fun _ _ h => ih h.1 h.2.1 h.2.2

/-- All that is resolved when a schema is loaded are steps that work out types, and the elements have
what their types have. -/
theorem shown_resolveAll (content : List Node) : After (d.resolveAll content) .none fun r s =>
    AllShown document d s r.1 ∧ d.Found s := by
  have hnone : Traced document d .none :=
    ⟨fun _ hp => absurd hp List.not_mem_nil, fun _ hp => absurd hp List.not_mem_nil⟩
  have hglobals : ∀ p ∈ d.elements.pairs, Origin document d p.1 p.2 := fun p hp =>
    .inl (OrderedMap.get?_eq_some_iff.2 hp)
  unfold resolveAll
  refine (shown_resolveElements hd hderivations hglobals (fun _ hp => absurd hp List.not_mem_nil)
    .none hnone).bind fun globals s₁ h₁ => ?_
  refine (shown_resolveLocals hd hderivations _ h₁.1 h₁.2.1 h₁.2.2).bind fun elements s₂ h₂ => ?_
  have henums : After d.resolveEnums s₂ fun _ s₃ => d.Found s₃ ∧ s₂.Kept s₃ := by
    refine After.foldlM ⟨h₂.2, fun _ _ ht => ht⟩ fun enums s₃ name _ ⟨hfound, hkept⟩ => ?_
    have hlookup : After (d.lookupFacets name) s₃ fun _ s₄ => d.Found s₄ ∧ s₂.Kept s₄ :=
      ⟨hfound.simpleType name, hkept⟩
    refine hlookup.bind fun f s₄ h₄ => ?_
    split <;> exact .pure h₄
  refine henums.bind fun enums s₃ h₃ => .pure ⟨fun p hp => ?_, h₃.1⟩
  obtain ⟨e, he, hv⟩ := h₂.1 p hp
  exact ⟨e, he, hv.mono h₃.2⟩

end

end Declarations

namespace Model

open Declarations

/-- An element of a loaded grammar shows what the resolved type of its declaration has, and this type
only adds to the named type that it extends. -/
theorem element_shows_type {root? : Option String} {text n : String} {tag : Tag} {m : Model}
    {v : Element} (hread : Xml.readDocument text.toList = .ok (.element tag content))
    (hload : load root? text = .ok m) (hderivations : Acyclic (ofContent content).Derives)
    (hv : m.element? n = some v) :
    ∃ s, (ofContent content).Found s ∧ ∃ e, Origin content (ofContent content) n e ∧
      (ofContent content).ShowsType s e v := by
  obtain ⟨hshown, hfound⟩ : _ ∧ _ :=
    shown_resolveAll (grounded_ofContent content) hderivations content
  have helements : m.elements = (((ofContent content).resolveAll content).run .none).1.1.sorted := by
    have hparts := map_parts_ofDocument root? tag content
    rw [load, hread] at hload
    dsimp only at hload
    rw [hload] at hparts
    split at hparts
    · dsimp only at hparts
      split at hparts
      · exact congrArg Prod.fst (Except.ok.inj hparts)
      · cases hparts
    · cases hparts
  have hp : (n, v) ∈ m.elements.pairs := OrderedMap.get?_eq_some_iff.1 hv
  rw [helements] at hp
  exact ⟨_, hfound, hshown (n, v) (List.mem_mergeSort.1 hp)⟩

end Model

namespace Declarations

open Model (schemaNode)

/-- An extension of lines with a tune and a key, and without a tone. -/
def noteExtension : Xml.Element where
  tag := ⟨some schemaUri, "extension", [⟨none, "base", "line"⟩], [⟨some "xs", schemaUri⟩]⟩
  content :=
    [schemaNode "sequence" []
        [schemaNode "element" [("ref", "tune")] [], schemaNode "element" [("ref", "mark")] []],
      schemaNode "attributeGroup" [("ref", "silent")] [],
      schemaNode "attribute" [("name", "key")] [],
      schemaNode "attribute" [("name", "pitch"), ("use", "required")] []]

def noteType : Xml.Element where
  tag := ⟨some schemaUri, "complexType", [⟨none, "name", "note"⟩], [⟨some "xs", schemaUri⟩]⟩
  content := [schemaNode "complexContent" [] [.element noteExtension.tag noteExtension.content]]

/-- Lines with marks and rests, and notes that extend them. -/
def noteContent : List Node :=
  [schemaNode "complexType" [("name", "line")]
      [schemaNode "choice" [("maxOccurs", "2")]
        [schemaNode "element" [("ref", "mark")] [], schemaNode "element" [("ref", "rest")] []],
      schemaNode "attribute" [("name", "pace")] [],
      schemaNode "attribute" [("name", "tone")] [],
      schemaNode "attribute" [("name", "pitch")] []],
    schemaNode "attributeGroup" [("name", "silent")]
      [schemaNode "attribute" [("name", "tone"), ("use", "prohibited")] []],
    .element noteType.tag noteType.content]

theorem acyclic_noteContent : Acyclic (ofContent noteContent).Derives :=
  acyclic_derives (fun n => if n = "note" then 1 else 0) (by decide +kernel)

theorem extends_noteType :
    (ofContent noteContent).Extends noteType.content noteExtension "line" :=
  ⟨⟨⟨_, [.element noteExtension.tag noteExtension.content]⟩, rfl, rfl⟩, rfl, by decide +kernel⟩

/-- A note has the pace of a line before its own key. Marks are allowed once more in a note. -/
theorem note_adds_to_line : Acyclic (ofContent noteContent).Derives ∧
    (ofContent noteContent).Found .none ∧ ∃ line t s',
      ((ofContent noteContent).complexType "note").run .none = (t, s') ∧
      s'.types.get? "line" = some line ∧
      (ofContent noteContent).OnlyAdds "note" noteExtension.content "line" line t ∧
      line.attributes.keys = ["pace", "tone", "pitch"] ∧
      t.attributes.keys = ["pace", "pitch", "key"] ∧
      t.children.map (fun c => (c.name, c.minOccurs.val, c.maxOccurs.map Count.val)) =
        [("mark", 1, some 3), ("rest", 0, some 2), ("tune", 1, some 1)] := by
  obtain ⟨hnamed, -⟩ := extension_only_adds acyclic_noteContent .none
  obtain ⟨-, -, hadds⟩ : _ ∧ _ ∧ _ := hnamed "note" noteType rfl
  obtain ⟨line, hline, honly⟩ := hadds noteExtension "line" extends_noteType
  have hfound : let found := ((ofContent noteContent).complexType "note").run .none
      (found.2.types.get? "line").map (fun t => t.attributes.keys) =
          some ["pace", "tone", "pitch"] ∧
        found.1.attributes.keys = ["pace", "pitch", "key"] ∧
        found.1.children.map (fun c => (c.name, c.minOccurs.val, c.maxOccurs.map Count.val)) =
          [("mark", 1, some 3), ("rest", 0, some 2), ("tune", 1, some 1)] := by decide +kernel
  dsimp only at hfound
  generalize hrun : ((ofContent noteContent).complexType "note").run .none = found
    at hline honly hfound
  obtain ⟨hkeys, hnote⟩ := hfound
  rw [hline, Option.map_some, Option.some.injEq] at hkeys
  exact ⟨acyclic_noteContent, .none, line, found.1, found.2, rfl, hline, honly, hkeys, hnote⟩

end Declarations

end Grammar

end GrammarProfile
