import GrammarProfile.Grammar.Loader
import GrammarProfile.Proofs.Arrangement
import GrammarProfile.Proofs.OrderedMap

/-!
What holds of every model that is loaded: each element is kept under its own name, and names a
child or an attribute once.
-/
namespace GrammarProfile

variable {α β : Type}

theorem OrderedMap.sorted_eq_self {m : OrderedMap α} (h : m.keys.Pairwise (· < ·)) :
    m.sorted = m := by
  have hle : m.pairs.Pairwise fun a b => Text.nameLE a.1 b.1 = true := by
    refine (List.pairwise_map.1 h).imp fun {a b} hab => ?_
    have hle : a.1 ≤ b.1 :=
      String.not_lt.1 fun hba => String.lt_irrefl _ (String.lt_trans hab hba)
    exact Text.nameLE_iff.2 hle
  have hpairs : m.sorted.pairs = m.pairs := List.mergeSort_of_pairwise hle
  cases m with
  | mk pairs distinct =>
      unfold OrderedMap.sorted
      congr

namespace Grammar

/-! ## Steps of resolving -/

/-- From findings of a kind, a step comes to a result with a property and to findings of the same
kind. -/
def Establishes (kind : Findings → Prop) (step : Resolving α) (P : α → Prop) : Prop :=
  ∀ s, kind s → P (step.run s).1 ∧ kind (step.run s).2

namespace Establishes

variable {kind : Findings → Prop} {step : Resolving α} {P : α → Prop}

theorem pure {a : α} (h : P a) : Establishes kind (Pure.pure a) P :=
  fun _ hs => ⟨h, hs⟩

theorem bind {next : α → Resolving β} {Q : β → Prop} (h : Establishes kind step P)
    (hnext : ∀ a, P a → Establishes kind (next a) Q) : Establishes kind (step >>= next) Q := by
  intro s hs
  obtain ⟨ha, hs'⟩ := h s hs
  exact hnext _ ha _ hs'

theorem get : Establishes kind MonadState.get kind := fun _ hs => ⟨hs, hs⟩

theorem set {s : Findings} (h : kind s) :
    Establishes kind (MonadStateOf.set s) fun _ => True := fun _ _ => ⟨trivial, h⟩

theorem modified {f : Findings → Findings} (h : ∀ s, kind s → kind (f s)) :
    Establishes kind (modify f) fun _ => True := fun s hs => ⟨trivial, h s hs⟩

/-- A loop keeps what each of its rounds keeps. -/
theorem foldlM {items : List β} {round : α → β → Resolving α} {a : α} (ha : P a)
    (h : ∀ a, ∀ b ∈ items, P a → Establishes kind (round a b) P) :
    Establishes kind (items.foldlM round a) P := by
  induction items generalizing a with
  | nil => exact Establishes.pure ha
  | cons b rest ih =>
      rw [List.foldlM_cons]
      refine (h a b List.mem_cons_self ha).bind fun a' ha' => ?_
      exact ih ha' fun x y hy => h x y (List.mem_cons_of_mem _ hy)

end Establishes

/-! ## Attributes -/

/-- Attributes are kept under their own names. -/
def Keyed (attributes : OrderedMap Attribute) : Prop := ∀ p ∈ attributes.pairs, p.2.name = p.1

theorem keyed_empty : Keyed ∅ := fun _ hp => absurd hp List.not_mem_nil

theorem Keyed.insert {attributes : OrderedMap Attribute} (h : Keyed attributes) (a : Attribute) :
    Keyed (attributes.insert a.name a) := by
  intro p hp
  rcases mem_setPair hp with rfl | hp
  · rfl
  · exact h p hp

theorem Keyed.erase {attributes : OrderedMap Attribute} (h : Keyed attributes) (name : String) :
    Keyed (attributes.erase name) := fun p hp => h p (List.mem_filter.1 hp).1

theorem Keyed.names_nodup {attributes : OrderedMap Attribute} (h : Keyed attributes) :
    (attributes.values.map Attribute.name).Nodup := by
  have hnames : attributes.values.map Attribute.name = attributes.keys := by
    rw [OrderedMap.values, OrderedMap.keys, List.map_map]
    exact List.map_congr_left h
  rw [hnames]
  exact attributes.keys_nodup

theorem ofContent_names_nodup (groups : List ChoiceGroup) (content : Particle) :
    ((Child.ofContent groups content).map Child.name).Nodup := by
  rw [Child.ofContent, List.map_map]
  exact content.occurrences.distinct

/-! ## Types -/

/-- Whatever type was worked out has its attributes under their own names. -/
def KeyedTypes (s : Findings) : Prop := ∀ p ∈ s.types.pairs, Keyed p.2.attributes

/-- An element as it is kept under a name. -/
structure Regular (name : String) (e : Element) : Prop where
  xmlName : e.xmlName = name
  children : (e.children.map Child.name).Nodup
  attributes : (e.attributes.map Attribute.name).Nodup

namespace Declarations

variable (d : Declarations)

theorem establishes_lookupFacets (name : String) :
    Establishes KeyedTypes (d.lookupFacets name) fun _ => True := by
  refine Establishes.get.bind fun s hs => ?_
  split
  refine Establishes.bind (P := fun _ => True) (Establishes.set hs) fun _ _ => ?_
  exact .pure trivial

theorem establishes_inlineFacets (content : List Xml.Node) :
    Establishes KeyedTypes (d.inlineFacets content) fun _ => True := by
  refine Establishes.get.bind fun s hs => ?_
  split
  refine Establishes.bind (P := fun _ => True) (Establishes.set hs) fun _ _ => ?_
  exact .pure trivial

theorem establishes_attributeRule? (e : Xml.Element) :
    Establishes KeyedTypes (d.attributeRule? e) fun _ => True := by
  unfold attributeRule?
  dsimp only
  split
  · exact .pure trivial
  · split
    · exact .pure trivial
    · split
      · refine (d.establishes_lookupFacets _).bind fun _ _ => ?_
        exact .pure trivial
      · exact .pure trivial
      · refine (d.establishes_inlineFacets _).bind fun _ _ => ?_
        exact .pure trivial

theorem establishes_applyAttributes (content : List Xml.Node) {inherited : OrderedMap Attribute}
    (h : Keyed inherited) :
    Establishes KeyedTypes (d.applyAttributes content inherited) Keyed := by
  refine Establishes.foldlM h fun attributes e _ hattributes => ?_
  refine (d.establishes_attributeRule? e).bind fun rule _ => ?_
  cases rule with
  | none => exact .pure hattributes
  | some rule =>
      cases rule with
      | declared a => exact .pure (hattributes.insert a)
      | prohibited name => exact .pure (hattributes.erase name)

theorem establishes_resolveContent (content : List Xml.Node) :
    Establishes KeyedTypes (d.resolveContent content) fun _ => True := by
  refine Establishes.bind (P := fun _ => True) (Establishes.modified fun _ hs => hs) fun _ _ => ?_
  exact .pure trivial

theorem establishes_resolveComplex {named : String → Resolving ResolvedType}
    (hnamed : ∀ name, Establishes KeyedTypes (named name) fun t => Keyed t.attributes)
    (content : List Xml.Node) (label : String) :
    Establishes KeyedTypes (d.resolveComplex named content label) fun t => Keyed t.attributes := by
  unfold resolveComplex
  dsimp only
  split
  · refine (d.establishes_resolveContent content).bind fun model _ => ?_
    refine (d.establishes_applyAttributes content keyed_empty).bind fun _ h => ?_
    exact .pure h
  · split
    · exact .pure keyed_empty
    · -- Whatever the type derives from, what follows is the same.
      have hbase : ∀ {base : ResolvedType × List String}, Keyed base.1.attributes →
          Establishes KeyedTypes (Pure.pure base) fun r => Keyed r.1.attributes := .pure
      split
      case' h_1 => split
      case' h_1.isTrue => refine (hnamed _).bind fun base h => ?_
      case' h_1.isTrue => refine (hbase h).bind fun r hr => ?_
      case' h_1.isFalse => refine (hbase keyed_empty).bind fun r hr => ?_
      case' h_2 => refine (hbase keyed_empty).bind fun r hr => ?_
      all_goals
        refine (d.establishes_applyAttributes _ hr).bind fun attributes hattributes => ?_
        split
        · exact .pure hattributes
        · refine (d.establishes_resolveContent _).bind fun own _ => ?_
          split
          · exact .pure hattributes
          · exact .pure hattributes

theorem establishes_resolveType : ∀ (fuel : Nat) (opened : List String) (name : String),
    Establishes KeyedTypes (d.resolveType fuel opened name) fun t => Keyed t.attributes := by
  intro fuel
  induction fuel with
  | zero =>
      intro opened name
      exact .pure keyed_empty
  | succ fuel ih =>
      intro opened name
      unfold resolveType
      refine Establishes.get.bind fun s hs => ?_
      split
      next known hknown =>
        exact .pure (hs _ (OrderedMap.get?_eq_some_iff.1 hknown))
      · split
        · exact .pure keyed_empty
        · split
          · exact .pure keyed_empty
          · refine (d.establishes_resolveComplex (ih _) _ _).bind fun t ht => ?_
            refine Establishes.bind (P := fun _ => True) (Establishes.modified fun s hs => ?_)
              fun _ _ => .pure ht
            intro p hp
            rcases mem_setPair hp with rfl | hp
            · exact ht
            · exact hs p hp

/-! ## Elements -/

theorem establishes_resolveElement (name : String) (e : Xml.Element) :
    Establishes KeyedTypes (d.resolveElement name e) (Regular name) := by
  unfold resolveElement
  dsimp only
  have htype : ∀ {r : Option String × ResolvedType}, Keyed r.2.attributes →
      Establishes KeyedTypes (Pure.pure r) fun r => Keyed r.2.attributes := .pure
  split
  · split
    · split
      · refine (d.establishes_resolveType _ _ _).bind fun t ht => ?_
        refine (htype ht).bind fun r hr => ?_
        exact .pure ⟨rfl, ofContent_names_nodup _ _, hr.names_nodup⟩
      · exact .pure ⟨rfl, ofContent_names_nodup _ _, keyed_empty.names_nodup⟩
    · exact .pure ⟨rfl, ofContent_names_nodup _ _, keyed_empty.names_nodup⟩
  · split
    · refine (d.establishes_resolveComplex (d.establishes_resolveType _ _) _ _).bind fun t ht => ?_
      exact .pure ⟨rfl, ofContent_names_nodup _ _, ht.names_nodup⟩
    · exact .pure ⟨rfl, ofContent_names_nodup _ _, keyed_empty.names_nodup⟩

/-- Every element is kept under its name. -/
def RegularElements (elements : OrderedMap Element) : Prop :=
  ∀ p ∈ elements.pairs, Regular p.1 p.2

theorem establishes_resolveElements (declared : List (String × Xml.Element))
    {done : OrderedMap Element} (h : RegularElements done) :
    Establishes KeyedTypes (d.resolveElements declared done) RegularElements := by
  refine Establishes.foldlM h fun done p _ hdone => ?_
  refine (d.establishes_resolveElement p.1 p.2).bind fun e he => ?_
  refine .pure fun q hq => ?_
  rcases mem_setPair hq with rfl | hq
  · exact he
  · exact hdone q hq

theorem establishes_resolveLocals (fuel : Nat) : ∀ {done : OrderedMap Element},
    RegularElements done → Establishes KeyedTypes (d.resolveLocals fuel done) RegularElements := by
  induction fuel with
  | zero => exact fun h => .pure h
  | succ fuel ih =>
      intro done h
      unfold resolveLocals
      refine Establishes.get.bind fun s _ => ?_
      split
      · exact .pure h
      · exact (d.establishes_resolveElements _ h).bind fun _ hdone => ih hdone

theorem establishes_resolveEnums : Establishes KeyedTypes d.resolveEnums fun _ => True := by
  refine Establishes.foldlM trivial fun enums name _ _ => ?_
  refine (d.establishes_lookupFacets name).bind fun f _ => ?_
  split <;> exact .pure trivial

theorem establishes_resolveAll (content : List Xml.Node) :
    Establishes KeyedTypes (d.resolveAll content) fun r => RegularElements r.1 := by
  have hnone : RegularElements ∅ := fun _ hp => absurd hp List.not_mem_nil
  refine (d.establishes_resolveElements _ hnone).bind fun globals hglobals => ?_
  refine (d.establishes_resolveLocals _ hglobals).bind fun elements helements => ?_
  refine d.establishes_resolveEnums.bind fun enums _ => ?_
  exact .pure helements

end Declarations

namespace Model

variable {root? : Option String} {m : Model}

theorem regular_sorted {elements : OrderedMap Element}
    (h : Declarations.RegularElements elements) :
    Declarations.RegularElements elements.sorted := fun p hp => h p (List.mem_mergeSort.1 hp)

theorem regular_of_ofDocument {document : Xml.Node} (h : ofDocument root? document = .ok m) :
    Declarations.RegularElements m.elements := by
  unfold ofDocument at h
  split at h
  · cases h
  · cases h
  · next tag content =>
    split at h
    · cases h
    · have hnone : KeyedTypes .none := fun _ hp => absurd hp List.not_mem_nil
      have helements := ((Declarations.ofContent content).establishes_resolveAll content _ hnone).1
      dsimp only at h
      split at h
      next elements enums found hrun =>
        rw [hrun] at helements
        split at h
        · cases h
          exact regular_sorted helements
        · split at h
          · cases h
            exact regular_sorted helements
          · cases h

/-- Every element of a loaded model is kept under its name, and lists no child and no attribute
twice. -/
theorem regular_of_load {text : String} (h : load root? text = .ok m) :
    Declarations.RegularElements m.elements := by
  unfold load at h
  split at h
  · cases h
  · exact regular_of_ofDocument h

/-- The model of a schema document with its declarations in the order in which they are found. -/
def unsorted? (cs : List Char) : Option Model :=
  match Xml.readDocument cs with
  | .ok (.element tag content) =>
    if isSchema tag "schema" then
      let d := Declarations.ofContent content
      let ((elements, enums), found) := (d.resolveAll content).run .none
      some ⟨elements, enums, d.inferRoot content found.locals⟩
    else none
  | _ => none

/-- A model whose declarations are found in order is loaded as it stands. -/
theorem load_eq_ok {cs : List Char} (h : unsorted? cs = some m)
    (helements : m.elements.keys.Pairwise (· < ·)) (henums : m.enums.keys.Pairwise (· < ·)) :
    load none (String.ofList cs) = .ok m := by
  unfold unsorted? at h
  split at h
  · next tag content hread =>
    split at h
    · next hschema =>
      dsimp only at h
      split at h
      next elements enums found hrun =>
        cases h
        unfold load ofDocument
        rw [String.toList_ofList, hread]
        simp only [hschema, hrun]
        simp [OrderedMap.sorted_eq_self helements, OrderedMap.sorted_eq_self henums]
    · cases h
  · cases h

end Model

end Grammar

end GrammarProfile
