import GrammarProfile.Proofs.Labels
import GrammarProfile.Proofs.Settled
import GrammarProfile.Proofs.WellFormed

/-!
The identifiers of choice groups. They are numbered for each type anew, so those that an element
collects from its type and the bases of its type are different as far as the labels of these types
are. Named types have their names as labels. A type without a name is labelled like the element that
it belongs to, which may also be the name of a base.
-/
namespace GrammarProfile.Grammar

variable {α : Type} {label : String} {labels : List String} {groups own : List ChoiceGroup}

/-! ## Identifiers -/

/-- The identifier of a choice group by the label of its type and its number. -/
def groupIdOf (label : String) (i : ℕ) : String := label ++ ":choice_" ++ toString i

theorem toList_groupIdOf (label : String) (i : ℕ) : (groupIdOf label i).toList =
    (label.toList ++ ":choice".toList) ++ '_' :: Nat.toDigits 10 i := by
  simp [groupIdOf, Nat.toString_eq_repr, Nat.toList_repr]

/-- Digits at the end are told from what is before them by a mark that is no digit. -/
theorem eq_of_digits {a b ds es : List Char} {c : Char} (hc : c.isDigit = false)
    (hds : ∀ d ∈ ds, d.isDigit = true) (hes : ∀ d ∈ es, d.isDigit = true)
    (h : a ++ c :: ds = b ++ c :: es) : a = b ∧ ds = es := by
  have htake : ∀ {x ns : List Char}, (∀ d ∈ ns, d.isDigit = true) →
      (x ++ c :: ns).reverse.takeWhile Char.isDigit = ns.reverse := by
    intro x ns hns
    rw [List.reverse_append, List.reverse_cons, List.append_assoc,
      List.takeWhile_append_of_pos fun d hd => hns d (List.mem_reverse.1 hd), List.singleton_append,
      List.takeWhile_cons_of_neg (by simp [hc]), List.append_nil]
  have hdigits : ds = es := by
    rw [← List.reverse_inj, ← htake hds, h, htake hes]
  rw [hdigits] at h
  exact ⟨List.append_cancel_right h, hdigits⟩

theorem groupIdOf_inj {l : String} {i j : ℕ} (h : groupIdOf l i = groupIdOf label j) :
    l = label ∧ i = j := by
  have hlist := congrArg String.toList h
  rw [toList_groupIdOf, toList_groupIdOf] at hlist
  obtain ⟨hlabel, hdigits⟩ := eq_of_digits (by decide)
    (fun _ hd => Text.isDigit_of_mem_toDigits hd) (fun _ hd => Text.isDigit_of_mem_toDigits hd) hlist
  have hnumber := Text.decimal?_toDigits i
  rw [hdigits, Text.decimal?_toDigits] at hnumber
  exact ⟨String.toList_inj.1 (List.append_cancel_right hlabel), (Option.some.inj hnumber).symm⟩

theorem ids_numberGroups (typeName : String) (sites : List ChoiceSite) (start : ℕ) :
    (numberGroups typeName start sites).map ChoiceGroup.groupId =
      (List.range' start (numberGroups typeName start sites).length).map (groupIdOf typeName) := by
  induction sites generalizing start with
  | nil => rfl
  | cons site rest ih =>
      rw [numberGroups]
      split
      · exact ih start
      · rw [List.map_cons, ih, List.length_cons, List.range'_succ, List.map_cons]
        rfl

/-! ## Blocks of groups -/

/-- Groups that are numbered from zero under a label. -/
def IsBlock (label : String) (own : List ChoiceGroup) : Prop :=
  own.map ChoiceGroup.groupId = (List.range own.length).map (groupIdOf label)

/-- Choice groups in blocks, one for each label. -/
inductive InBlocks : List String → List ChoiceGroup → Prop
  | nil : InBlocks [] []
  | cons {label : String} {labels : List String} {own groups : List ChoiceGroup}
      (hown : IsBlock label own) (hrest : InBlocks labels groups) :
      InBlocks (label :: labels) (own ++ groups)

theorem isBlock_nil (label : String) : IsBlock label [] := rfl

theorem isBlock_choiceGroups (label : String) (p : Particle) :
    IsBlock label (choiceGroups label p 0) := by
  unfold IsBlock
  rw [List.range_eq_range']
  exact ids_numberGroups label _ 0

theorem InBlocks.single (h : IsBlock label own) : InBlocks [label] own := by
  simpa using InBlocks.cons h .nil

theorem IsBlock.mem (h : IsBlock label own) {id : String}
    (hid : id ∈ own.map ChoiceGroup.groupId) :
    (∃ i, id = groupIdOf label i) ∧ groupIdOf label 0 ∈ own.map ChoiceGroup.groupId := by
  have hsome : 0 < own.length := by
    rw [← List.length_map ChoiceGroup.groupId]
    exact List.length_pos_of_mem hid
  rw [h] at hid ⊢
  obtain ⟨i, _, rfl⟩ := List.mem_map.1 hid
  exact ⟨⟨i, rfl⟩, List.mem_map_of_mem (List.mem_range.2 hsome)⟩

theorem IsBlock.nodup (h : IsBlock label own) : (own.map ChoiceGroup.groupId).Nodup := by
  rw [h]
  exact List.nodup_range.map fun _ _ hij => (groupIdOf_inj hij).2

/-- An identifier belongs to one of the labels, whose first identifier is then used as well. -/
theorem InBlocks.exists_label (h : InBlocks labels groups) {id : String}
    (hid : id ∈ groups.map ChoiceGroup.groupId) : ∃ l ∈ labels, (∃ i, id = groupIdOf l i) ∧
      groupIdOf l 0 ∈ groups.map ChoiceGroup.groupId := by
  induction h with
  | nil => exact absurd hid List.not_mem_nil
  | @cons label _ _ _ hown _ ih =>
      rw [List.map_append] at hid ⊢
      rcases List.mem_append.1 hid with hid | hid
      · obtain ⟨hlabel, hzero⟩ := hown.mem hid
        exact ⟨label, List.mem_cons_self, hlabel, List.mem_append_left _ hzero⟩
      · obtain ⟨l, hl, hlabel, hzero⟩ := ih hid
        exact ⟨l, List.mem_cons_of_mem _ hl, hlabel, List.mem_append_right _ hzero⟩

theorem InBlocks.nodup (h : InBlocks labels groups) (hlabels : labels.Nodup) :
    (groups.map ChoiceGroup.groupId).Nodup := by
  induction h with
  | nil => exact List.nodup_nil
  | cons hown hrest ih =>
      obtain ⟨hnew, hlabels⟩ := List.nodup_cons.1 hlabels
      rw [List.map_append]
      refine hown.nodup.append (ih hlabels) fun id hid hid' => ?_
      obtain ⟨⟨i, rfl⟩, _⟩ := hown.mem hid
      obtain ⟨l, hl, ⟨j, hj⟩, _⟩ := hrest.exists_label hid'
      exact hnew ((groupIdOf_inj hj).1 ▸ hl)

/-- When the first label may be among the others, too, its first identifier tells. -/
theorem InBlocks.nodup_iff (h : InBlocks (label :: labels) groups) (hlabels : labels.Nodup) :
    (groups.map ChoiceGroup.groupId).Nodup ↔
      (groups.map ChoiceGroup.groupId).count (groupIdOf label 0) ≤ 1 := by
  refine ⟨fun hnodup => List.nodup_iff_count_le_one.1 hnodup _, fun hcount => ?_⟩
  cases h with
  | cons hown hrest =>
      rw [List.map_append] at hcount ⊢
      refine hown.nodup.append (hrest.nodup hlabels) fun id hid hid' => ?_
      obtain ⟨⟨i, rfl⟩, hzero⟩ := hown.mem hid
      obtain ⟨l, _, ⟨j, hj⟩, hzero'⟩ := hrest.exists_label hid'
      rw [← (groupIdOf_inj hj).1] at hzero'
      have hfirst := List.count_pos_iff.2 hzero
      have hsecond := List.count_pos_iff.2 hzero'
      rw [List.count_append] at hcount
      omega

/-! ## Types -/

/-- The groups of a type under a name come from the type itself and from its bases, each of them one
of the types that are known. -/
def ResolvedType.InBlocks (known : List String) (name : String) (t : ResolvedType) : Prop :=
  ∃ labels, Grammar.InBlocks labels t.choiceGroups ∧ labels.Nodup ∧ labels ⊆ name :: t.baseTypes ∧
    labels ⊆ known

theorem ResolvedType.inBlocks_empty (known : List String) (name : String) :
    ResolvedType.empty.InBlocks known name :=
  ⟨[], .nil, List.nodup_nil, List.nil_subset _, List.nil_subset _⟩

theorem ResolvedType.InBlocks.mono {known known' : List String} {name : String} {t : ResolvedType}
    (h : t.InBlocks known name) (hknown : known ⊆ known') : t.InBlocks known' name := by
  obtain ⟨labels, hgroups, hnodup, hnames, hin⟩ := h
  exact ⟨labels, hgroups, hnodup, hnames, List.Subset.trans hin hknown⟩

/-- Of every type that was worked out, the bases with groups were worked out as well. -/
def BlockTypes (s : Findings) : Prop := ∀ p ∈ s.types.pairs, p.2.InBlocks s.types.keys p.1

/-- Findings that come after others. No type is forgotten, and none of those that are being worked
out is there yet. -/
structure Onward (opened : List String) (s s' : Findings) : Prop where
  blocks : BlockTypes s'
  kept : s.types.keys ⊆ s'.types.keys
  fresh : ∀ n ∈ s'.types.keys, n ∈ s.types.keys ∨ n ∉ opened

section Onward

variable {opened : List String} {s s' s'' : Findings}

theorem Onward.of_types_eq (hs : BlockTypes s) (h : s'.types = s.types) : Onward opened s s' := by
  refine ⟨?_, ?_, ?_⟩
  · unfold BlockTypes
    rw [h]
    exact hs
  · rw [h]
    exact List.Subset.refl _
  · rw [h]
    exact fun _ hn => .inl hn

theorem Onward.trans (h : Onward opened s s') (h' : Onward opened s' s'') : Onward opened s s'' :=
  ⟨h'.blocks, List.Subset.trans h.kept h'.kept, fun n hn =>
    (h'.fresh n hn).elim (h.fresh n) .inr⟩

end Onward

namespace Declarations

variable (d : Declarations) {s : Findings} {opened : List String}

/-! ### Steps that find no type -/

theorem keeps_lookupFacets (name : String) : After (d.lookupFacets name) s fun _ s' =>
    s'.types = s.types ∧ s'.locals = s.locals := ⟨rfl, rfl⟩

theorem keeps_inlineFacets (content : List Xml.Node) : After (d.inlineFacets content) s fun _ s' =>
    s'.types = s.types ∧ s'.locals = s.locals := ⟨rfl, rfl⟩

theorem keeps_attributeRule? (e : Xml.Element) : After (d.attributeRule? e) s fun _ s' =>
    s'.types = s.types ∧ s'.locals = s.locals := by
  unfold attributeRule?
  dsimp only
  split
  · exact .pure ⟨rfl, rfl⟩
  · split
    · exact .pure ⟨rfl, rfl⟩
    · split
      · exact (d.keeps_lookupFacets _).bind fun _ _ h => .pure h
      · exact .pure ⟨rfl, rfl⟩
      · exact (d.keeps_inlineFacets _).bind fun _ _ h => .pure h

theorem keeps_applyAttributes (content : List Xml.Node) (inherited : OrderedMap Attribute) :
    After (d.applyAttributes content inherited) s fun _ s' =>
      s'.types = s.types ∧ s'.locals = s.locals := by
  refine After.foldlM ⟨rfl, rfl⟩ fun attributes s' e _ hs' => ?_
  refine (d.keeps_attributeRule? e).bind fun rule s'' h => ?_
  split <;> exact .pure ⟨h.1.trans hs'.1, h.2.trans hs'.2⟩

theorem keeps_resolveContent (content : List Xml.Node) :
    After (d.resolveContent content) s fun _ s' => s'.types = s.types := rfl

/-! ### Steps that find types -/

/-- What working out a named type comes to. -/
def FindsBlocks (opened : List String) (named : String → Resolving ResolvedType) : Prop :=
  ∀ b s, BlockTypes s → After (named b) s fun t s' =>
    t.InBlocks s'.types.keys b ∧ Onward opened s s'

/-- The groups of a base, with the names of all bases. -/
theorem after_withBases {named : String → Resolving ResolvedType} (hnamed : FindsBlocks opened named)
    (hs : BlockTypes s) (b? : Option String) : After (withBases named b?) s fun base s' =>
      (∃ labels, Grammar.InBlocks labels base.1.choiceGroups ∧ labels.Nodup ∧ labels ⊆ base.2 ∧
        labels ⊆ s'.types.keys) ∧ Onward opened s s' := by
  cases b? with
  | none =>
      exact .pure ⟨⟨[], .nil, List.nodup_nil, List.nil_subset _, List.nil_subset _⟩,
        .of_types_eq hs rfl⟩
  | some b => exact (hnamed b s hs).bind fun base s' h => .pure h

/-- A complex type has a block of its own before those of its base. -/
theorem after_resolveComplex_blocks {named : String → Resolving ResolvedType}
    (hnamed : FindsBlocks opened named) (hs : BlockTypes s) (content : List Xml.Node)
    (label : String) : After (d.resolveComplex named content label) s fun t s' =>
      (∃ labels, Grammar.InBlocks (label :: labels) t.choiceGroups ∧ labels.Nodup ∧
        labels ⊆ t.baseTypes ∧ labels ⊆ s'.types.keys) ∧ Onward opened s s' := by
  have halone : ∀ {t : ResolvedType} {s' : Findings}, IsBlock label t.choiceGroups →
      ∃ labels, Grammar.InBlocks (label :: labels) t.choiceGroups ∧ labels.Nodup ∧
        labels ⊆ t.baseTypes ∧ labels ⊆ s'.types.keys := fun hown =>
    ⟨[], .single hown, List.nodup_nil, List.nil_subset _, List.nil_subset _⟩
  cases hderivation : derivation? content with
  | none =>
      rw [resolveComplex_plain d named label hderivation]
      refine (d.keeps_resolveContent content).bind fun model s₁ h₁ => ?_
      refine (d.keeps_applyAttributes content ∅).bind fun attributes s₂ h₂ => ?_
      exact .pure ⟨halone (isBlock_choiceGroups label model), .of_types_eq hs (h₂.1.trans h₁)⟩
  | some w =>
      obtain ⟨wrapper, simple⟩ := w
      cases hderive : derive? wrapper with
      | none =>
          rw [resolveComplex_nothing d named label hderivation hderive]
          exact .pure ⟨halone (isBlock_nil label), .of_types_eq hs rfl⟩
      | some derive =>
          rw [resolveComplex_derived d named label hderivation hderive]
          refine (after_withBases hnamed hs _).bind fun base s₁ h₁ => ?_
          obtain ⟨⟨labels, hbase, hnodup, hnames, hin⟩, honward⟩ := h₁
          unfold derived
          refine (d.keeps_applyAttributes derive.content _).bind fun attributes s₂ h₂ => ?_
          split
          · exact .pure ⟨halone (isBlock_nil label), honward.trans (.of_types_eq honward.blocks h₂.1)⟩
          · refine (d.keeps_resolveContent derive.content).bind fun model s₃ h₃ => ?_
            have htypes : s₃.types = s₁.types := h₃.trans h₂.1
            have honward₃ := honward.trans (.of_types_eq honward.blocks htypes)
            have hblock := isBlock_choiceGroups label model
            dsimp only
            split
            · exact .pure ⟨⟨labels, .cons hblock hbase, hnodup, hnames, htypes ▸ hin⟩, honward₃⟩
            · exact .pure ⟨halone hblock, honward₃⟩

/-- A type is kept only when it is no longer being worked out. So a name is never among the labels
that its own type takes over from a base, not even where types derive from each other in a circle. -/
theorem findsBlocks_resolveType (fuel : ℕ) :
    ∀ opened, FindsBlocks opened (d.resolveType fuel opened) := by
  induction fuel with
  | zero =>
      exact fun _ b s hs => .pure ⟨ResolvedType.inBlocks_empty _ b, .of_types_eq hs rfl⟩
  | succ fuel ih =>
      intro opened name s hs
      unfold resolveType
      refine (After.get (Q := fun a s' => a = s ∧ s' = s) ⟨rfl, rfl⟩).bind ?_
      rintro _ _ ⟨rfl, rfl⟩
      split
      · next known hknown =>
        exact .pure ⟨hs _ (OrderedMap.get?_eq_some_iff.1 hknown), .of_types_eq hs rfl⟩
      · next hunknown =>
        split
        · exact .pure ⟨ResolvedType.inBlocks_empty _ name, .of_types_eq hs rfl⟩
        · next e _ =>
          split
          · exact .pure ⟨ResolvedType.inBlocks_empty _ name, .of_types_eq hs rfl⟩
          · next hclosed =>
            refine (d.after_resolveComplex_blocks (ih (name :: opened)) hs e.content name).bind
              fun t s₁ h₁ => ?_
            obtain ⟨⟨labels, hgroups, hnodup, hnames, hin⟩, honward⟩ := h₁
            have hnew : name ∉ s₁.types.keys := by
              intro hmem
              rcases honward.fresh name hmem with hbefore | hopened
              · exact OrderedMap.get?_eq_none_iff.1 hunknown hbefore
              · exact hopened List.mem_cons_self
            have hkeys : ∀ n, n ∈ (s₁.types.insert name t).keys ↔ n = name ∨ n ∈ s₁.types.keys :=
              fun n => mem_names_setPair
            have hsub : s₁.types.keys ⊆ (s₁.types.insert name t).keys :=
              fun n hn => (hkeys n).2 (.inr hn)
            have htype : t.InBlocks (s₁.types.insert name t).keys name := by
              refine ⟨name :: labels, hgroups, List.nodup_cons.2 ⟨fun hl => hnew (hin hl), hnodup⟩,
                List.cons_subset_cons _ hnames, List.cons_subset.2 ⟨(hkeys name).2 (.inl rfl), ?_⟩⟩
              exact List.Subset.trans hin hsub
            refine (After.modified (Q := fun _ s₂ => s₂.types = s₁.types.insert name t) rfl).bind
              fun _ s₂ h₂ => .pure ?_
            rw [h₂]
            refine ⟨htype, fun p hp => ?_, fun n hn => ?_, fun n hn => ?_⟩
            · rw [h₂] at hp ⊢
              rcases mem_setPair hp with rfl | hp
              · exact htype
              · exact (honward.blocks p hp).mono hsub
            · rw [h₂]
              exact hsub (honward.kept hn)
            · rw [h₂] at hn
              rcases (hkeys n).1 hn with rfl | hn
              · exact .inr fun hopened => hclosed (List.contains_iff_mem.2 hopened)
              · exact (honward.fresh n hn).imp_right fun hout hopened =>
                  hout (List.mem_cons_of_mem _ hopened)

end Declarations

/-! ## Elements -/

/-- The groups of an element are those of a named type with its bases, or of a type without a name,
which are labelled with the name of the element, before those of bases. -/
def Element.InBlocks (e : Element) : Prop :=
  ∃ labels : List String, labels.Nodup ∧ (Grammar.InBlocks labels e.choiceGroups ∨
    e.typeName = none ∧ labels ⊆ e.baseTypes ∧
      Grammar.InBlocks (e.xmlName :: labels) e.choiceGroups)

namespace Declarations

variable (d : Declarations) {s : Findings}

theorem after_resolveElement_blocks (hs : BlockTypes s) (name : String) (e : Xml.Element) :
    After (d.resolveElement name e) s fun e s' => e.InBlocks ∧ BlockTypes s' := by
  unfold resolveElement
  dsimp only
  split
  · split
    · split
      · refine (d.findsBlocks_resolveType _ [] _ s hs).bind fun t s₁ h => ?_
        obtain ⟨⟨labels, hgroups, hnodup, _⟩, honward⟩ := h
        exact .pure ⟨⟨labels, hnodup, .inl hgroups⟩, honward.blocks⟩
      · exact .pure ⟨⟨[], List.nodup_nil, .inl .nil⟩, hs⟩
    · exact .pure ⟨⟨[], List.nodup_nil, .inl .nil⟩, hs⟩
  · split
    · next inline _ =>
      refine (d.after_resolveComplex_blocks (d.findsBlocks_resolveType _ []) hs inline.content
        name).bind fun t s₁ h => ?_
      obtain ⟨⟨labels, hgroups, hnodup, hnames, _⟩, honward⟩ := h
      exact .pure ⟨⟨labels, hnodup, .inr ⟨rfl, hnames, hgroups⟩⟩, honward.blocks⟩
    · exact .pure ⟨⟨[], List.nodup_nil, .inl .nil⟩, hs⟩

/-- All elements have their groups in blocks. -/
def BlockElements (elements : OrderedMap Element) : Prop := ∀ p ∈ elements.pairs, p.2.InBlocks

theorem after_resolveElements_blocks (hs : BlockTypes s) (declared : List (String × Xml.Element))
    {done : OrderedMap Element} (hdone : BlockElements done) :
    After (d.resolveElements declared done) s fun done' s' =>
      BlockElements done' ∧ BlockTypes s' := by
  refine After.foldlM ⟨hdone, hs⟩ fun done s p _ h => ?_
  refine (d.after_resolveElement_blocks h.2 p.1 p.2).bind fun e s' he => .pure ⟨fun q hq => ?_, he.2⟩
  rcases mem_setPair hq with rfl | hq
  · exact he.1
  · exact h.1 q hq

theorem after_resolveLocals_blocks (fuel : ℕ) : ∀ {done : OrderedMap Element} {s : Findings},
    BlockTypes s → BlockElements done → After (d.resolveLocals fuel done) s fun done' _ =>
      BlockElements done' := by
  induction fuel with
  | zero => exact fun _ hdone => .pure hdone
  | succ fuel ih =>
      intro done s hs hdone
      unfold resolveLocals
      refine (After.get (Q := fun a s' => a = s ∧ s' = s) ⟨rfl, rfl⟩).bind ?_
      rintro _ _ ⟨rfl, rfl⟩
      split
      · exact .pure hdone
      · exact (d.after_resolveElements_blocks hs _ hdone).bind fun _ _ h => ih h.2 h.1

theorem after_resolveAll_blocks (content : List Xml.Node) :
    After (d.resolveAll content) .none fun r _ => BlockElements r.1 := by
  have hnone : BlockTypes .none := fun _ hp => absurd hp List.not_mem_nil
  unfold resolveAll
  refine (d.after_resolveElements_blocks hnone _ fun _ hp => absurd hp List.not_mem_nil).bind
    fun globals s₁ h₁ => ?_
  refine (d.after_resolveLocals_blocks _ h₁.2 h₁.1).bind fun elements s₂ h₂ => ?_
  exact After.bind (P := fun _ _ => True) trivial fun enums s₃ _ => .pure h₂

end Declarations

theorem Model.blocks_of_load {root? : Option String} {text n : String} {m : Model} {e : Element}
    (h : load root? text = .ok m) (he : m.element? n = some e) : e.InBlocks := by
  obtain ⟨content, helements⟩ := elements_of_load h
  have hblocks : Declarations.BlockElements _ :=
    (Declarations.ofContent content).after_resolveAll_blocks content
  have hp : (n, e) ∈ m.elements.pairs := OrderedMap.get?_eq_some_iff.1 he
  rw [helements] at hp
  exact hblocks _ (List.mem_mergeSort.1 hp)

/-- The identifiers of the groups of an element are different, and each that a child has is that of
one group. -/
structure Element.Identified (e : Element) : Prop where
  nodup : (e.choiceGroups.map ChoiceGroup.groupId).Nodup
  unique : ∀ c ∈ e.children, ∀ id ∈ c.choiceGroupIds,
    ∃! g, g ∈ e.choiceGroups ∧ g.groupId = id

theorem Element.Sound.identified {known : String → Prop} {e : Element} (h : e.Sound known)
    (hnodup : (e.choiceGroups.map ChoiceGroup.groupId).Nodup) : e.Identified := by
  refine ⟨hnodup, fun c hc id hid => ?_⟩
  rw [h.ids c hc] at hid
  obtain ⟨g, hg, rfl⟩ := List.mem_map.1 hid
  have hg := (List.mem_filter.1 hg).1
  exact ⟨g, ⟨hg, rfl⟩, fun k hk => List.inj_on_of_nodup_map hnodup hk.1 hg hk.2⟩

/-- Of an element of a loaded grammar, the identifiers of groups are different unless the first one
that is labelled with the name of the element occurs twice. This happens only if the type of the
element has no name and derives from a type with the name of the element. -/
theorem identified_iff_count {root? : Option String} {text n : String} {m : Model} {e : Element}
    (hload : Model.load root? text = .ok m) (he : m.element? n = some e) :
    (e.Identified ↔
      (e.choiceGroups.map ChoiceGroup.groupId).count (groupIdOf e.xmlName 0) ≤ 1) ∧
    (e.typeName ≠ none ∨ e.xmlName ∉ e.baseTypes → e.Identified) := by
  obtain ⟨_, hsound⟩ := Model.sound_of_load hload he
  have hiff : e.Identified ↔ (e.choiceGroups.map ChoiceGroup.groupId).Nodup :=
    ⟨Element.Identified.nodup, hsound.identified⟩
  obtain ⟨labels, hlabels, hgroups | ⟨htype, hbases, hgroups⟩⟩ := Model.blocks_of_load hload he
  · have hnodup := hgroups.nodup hlabels
    exact ⟨iff_of_true (hiff.2 hnodup) (List.nodup_iff_count_le_one.1 hnodup _),
      fun _ => hiff.2 hnodup⟩
  · refine ⟨hiff.trans (hgroups.nodup_iff hlabels), fun hcase => hiff.2 ?_⟩
    rcases hcase with hnamed | hother
    · exact absurd htype hnamed
    · exact hgroups.nodup (List.nodup_cons.2 ⟨fun hin => hother (hbases hin), hlabels⟩)

theorem identified_partSchema : Model.load none Model.partSchema = .ok Model.partModel ∧
    ∃ e, Model.partModel.element? "book" = some e ∧ e.typeName = some "part" ∧ e.Identified := by
  have hbook : ∃ e, Model.partModel.element? "book" = some e ∧ e.typeName = some "part" :=
    ⟨_, rfl, rfl⟩
  obtain ⟨e, he, htype⟩ := hbook
  obtain ⟨_, hnamed⟩ := identified_iff_count Model.load_partSchema he
  exact ⟨Model.load_partSchema, e, he, htype, hnamed (.inl (by rw [htype]; exact nofun))⟩

/-- A book whose type has no name and derives from a type that is also called book. -/
def volumeSchema : String :=
  "<xs:schema xmlns:xs='http://www.w3.org/2001/XMLSchema'>
  <xs:complexType name='book'><xs:choice>
    <xs:element ref='cover'/>
    <xs:element ref='text'/>
  </xs:choice></xs:complexType>
  <xs:element name='book'><xs:complexType><xs:complexContent><xs:extension base='book'>
    <xs:choice>
      <xs:element ref='line'/>
      <xs:element ref='list'/>
    </xs:choice>
  </xs:extension></xs:complexContent></xs:complexType></xs:element>
  <xs:element name='cover'/>
  <xs:element name='line'/>
  <xs:element name='list'/>
  <xs:element name='text'/>
</xs:schema>"

def volumeElement : Element where
  xmlName := "book"
  displayName := "Book"
  typeName := none
  baseTypes := ["book"]
  children := ["cover", "text", "line", "list"].map fun n =>
    ⟨n, .zero, some .one, ["book:choice_0"]⟩
  attributes := []
  choiceGroups := [⟨"book:choice_0", .one, some .one,
      [⟨"branch_0", some "line", ["line"]⟩, ⟨"branch_1", some "list", ["list"]⟩]⟩,
    ⟨"book:choice_0", .one, some .one,
      [⟨"branch_0", some "cover", ["cover"]⟩, ⟨"branch_1", some "text", ["text"]⟩]⟩]
  doc := ""

def volumeModel : Model where
  elements := ⟨[
    ("book", volumeElement),
    ("cover", ⟨"cover", "Cover", none, [], [], [], [], ""⟩),
    ("line", ⟨"line", "Line", none, [], [], [], [], ""⟩),
    ("list", ⟨"list", "List", none, [], [], [], [], ""⟩),
    ("text", ⟨"text", "Text", none, [], [], [], [], ""⟩)], by decide⟩
  enums := ∅
  root := some "book"

set_option maxRecDepth 10000 in
theorem load_volumeSchema : Model.load none volumeSchema = .ok volumeModel := by
  obtain ⟨cs, hcs, hm⟩ : ∃ cs, volumeSchema = String.ofList cs ∧
      Model.unsorted? cs = some volumeModel := ⟨_, rfl, by decide +kernel⟩
  rw [hcs]
  exact Model.load_eq_ok hm (by decide) List.Pairwise.nil

/-- The line belongs to one group of the book and the cover to the other, and both are told that it
is the group with the same identifier. -/
theorem volume_not_identified : Model.load none volumeSchema = .ok volumeModel ∧
    volumeModel.element? "book" = some volumeElement ∧ ¬volumeElement.Identified ∧
    ∃ g ∈ volumeElement.choiceGroups, ∃ k ∈ volumeElement.choiceGroups, g ≠ k ∧
      g.groupId = "book:choice_0" ∧ k.groupId = "book:choice_0" ∧
      ∃ c ∈ volumeElement.children, "book:choice_0" ∈ c.choiceGroupIds := by
  refine ⟨load_volumeSchema, rfl, fun h => ?_, _, List.mem_cons_self,
    _, List.mem_cons_of_mem _ List.mem_cons_self, by decide, rfl, rfl, _, List.mem_cons_self,
    List.mem_cons_self⟩
  exact absurd h.nodup (by decide)

end GrammarProfile.Grammar
