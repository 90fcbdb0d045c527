import GrammarProfile.Proofs.SameDeclarations
import GrammarProfile.Proofs.Settled

/-!
A schema is loaded as the same elements and enumerations in whatever order its declarations stand.
-/
namespace GrammarProfile

namespace OrderedMap

variable {α : Type}

/-- Maps with the same contents are the same once they are sorted. -/
theorem Agrees.sorted {a b : OrderedMap α} (h : Agrees a b) : a.sorted = b.sorted := by
  have hpairwise : ∀ m : OrderedMap α, m.sorted.pairs.Pairwise fun p q => p.1 ≤ q.1 := by
    intro m
    refine (List.pairwise_mergeSort (fun p q r hpq hqr => ?_) (fun p q => ?_) m.pairs).imp
      Text.nameLE_iff.1
    · exact Text.nameLE_iff.2 (String.le_trans (Text.nameLE_iff.1 hpq) (Text.nameLE_iff.1 hqr))
    · rw [Bool.or_eq_true, Text.nameLE_iff, Text.nameLE_iff]
      exact String.le_total p.1 q.1
  have hperm : a.sorted.pairs.Perm b.sorted.pairs :=
    (List.mergeSort_perm _ _).trans (h.perm.trans (List.mergeSort_perm _ _).symm)
  have hpairs : a.sorted.pairs = b.sorted.pairs := by
    refine hperm.eq_of_pairwise (fun p q hp hq hpq hqp => ?_) (hpairwise a) (hpairwise b)
    have hname : p.1 = q.1 := String.le_antisymm hpq hqp
    have hq' := hperm.mem_iff.2 hq
    exact Prod.ext hname (Option.some.inj ((get?_eq_some_iff.2 hp).symm.trans
      ((congrArg a.sorted.get? hname).trans (get?_eq_some_iff.2 hq'))))
  cases ha : a.sorted with
  | mk pairs _ =>
      cases hb : b.sorted with
      | mk pairs' _ =>
          rw [ha, hb] at hpairs
          subst hpairs
          rfl

end OrderedMap

namespace Grammar

open GrammarProfile.Xml (Tag Node)

namespace Declarations

variable {document : List Node} {d : Declarations} {F : String → Facets} {T : String → ResolvedType}
  {V : String → Xml.Element → Element}
  {D : String → Xml.Element → Set (String × Xml.Element)}

/-! ## Elements in whatever order -/

/-- What elements come to, and what they declare in passing. -/
def ElementsYield (document : List Node) (d : Declarations) (F : String → Facets)
    (T : String → ResolvedType) (V : String → Xml.Element → Element)
    (D : String → Xml.Element → Set (String × Xml.Element)) : Prop :=
  ∀ name e, Within document e.content → d.Yields document F T (d.resolveElement name e) (V name e) (D name e)

/-- An element that is declared in passing by a global one, or by one declared in passing. -/
inductive Met (d : Declarations) (D : String → Xml.Element → Set (String × Xml.Element)) :
    String → Xml.Element → Prop
  | byGlobal {name n : String} {e f : Xml.Element} (he : d.elements.get? name = some e)
      (hf : (n, f) ∈ D name e) (hnew : d.elements.contains n = false) : Met d D n f
  | byLocal {name n : String} {e f : Xml.Element} (he : Met d D name e)
      (hf : (n, f) ∈ D name e) (hnew : d.elements.contains n = false) : Met d D n f

/-- The elements that are resolved: the global ones, and those that were met. -/
def Stated (d : Declarations) (s : Findings) (name : String) (e : Xml.Element) : Prop :=
  d.elements.get? name = some e ∨ s.locals.get? name = some e

/-- Elements that were resolved from settled findings, with all that they declare in passing. -/
structure Stage (document : List Node) (d : Declarations) (F : String → Facets)
    (T : String → ResolvedType) (V : String → Xml.Element → Element)
    (D : String → Xml.Element → Set (String × Xml.Element)) (done : OrderedMap Element)
    (s : Findings) : Prop where
  settled : d.Settled document F T s
  entries : ∀ name v, done.get? name = some v →
    ∃ e, d.Stated s name e ∧ v = V name e ∧ ∀ p ∈ D name e, d.Noted s p
  locals : ∀ name e, s.locals.get? name = some e → Met d D name e

theorem Settled.keep {s s' : Findings} (hs : d.Settled document F T s)
    (hnoted : ∀ p, d.Noted s p → d.Noted s' p) {name : String} {e : Xml.Element}
    (h : s.locals.get? name = some e) : s'.locals.get? name = some e := by
  refine (hnoted (name, e) (.inr h)).resolve_left fun hglobal => ?_
  rw [(hs.locals name e h).notGlobal] at hglobal
  cases hglobal

theorem Stage.add (hV : ElementsYield document d F T V D) {done : OrderedMap Element} {s : Findings}
    (h : Stage document d F T V D done s) {name : String} {e : Xml.Element}
    (he : Within document e.content) (hstated : d.Stated s name e) :
    After (d.resolveElement name e) s fun v s' =>
      Stage document d F T V D (done.insert name v) s' ∧ ∀ n f, d.Stated s n f → d.Stated s' n f := by
  refine (hV name e he s h.settled).mono ?_
  rintro _ s' ⟨rfl, hs', hnoted⟩
  have hmono : ∀ p, d.Noted s p → d.Noted s' p := fun p hp => (hnoted p).2 (.inl hp)
  have hkeep : ∀ n f, d.Stated s n f → d.Stated s' n f := fun n f hn =>
    hn.imp_right (h.settled.keep hmono)
  refine ⟨⟨hs', fun n v hv => ?_, fun n f hf => ?_⟩, hkeep⟩
  · rw [OrderedMap.get?_insert] at hv
    split at hv
    · next hn =>
      subst hn
      exact ⟨e, hkeep n e hstated, (Option.some.inj hv).symm, fun p hp => (hnoted p).2 (.inr hp)⟩
    · obtain ⟨g, hg, rfl, hD⟩ := h.entries n v hv
      exact ⟨g, hkeep n g hg, rfl, fun p hp => hmono p (hD p hp)⟩
  · have hnew := (hs'.locals n f hf).notGlobal
    obtain (hglobal | hold) | hp := (hnoted (n, f)).1 (.inr hf)
    · rw [hnew] at hglobal
      cases hglobal
    · exact h.locals n f hold
    · exact hstated.elim (fun hglobal => .byGlobal hglobal hp hnew) fun hlocal =>
        .byLocal (h.locals name e hlocal) hp hnew

/-- Later stages have all that was resolved before. -/
structure StageAfter (document : List Node) (d : Declarations) (F : String → Facets)
    (T : String → ResolvedType) (V : String → Xml.Element → Element)
    (D : String → Xml.Element → Set (String × Xml.Element)) (done done' : OrderedMap Element)
    (s' : Findings) : Prop where
  stage : Stage document d F T V D done' s'
  keys : done.keys ⊆ done'.keys

theorem after_resolveElements_stage (hV : ElementsYield document d F T V D)
    {declared : List (String × Xml.Element)}
    (hdeclared : ∀ p ∈ declared, Within document p.2.content) {done : OrderedMap Element}
    {s : Findings} (hstated : ∀ p ∈ declared, d.Stated s p.1 p.2)
    (h : Stage document d F T V D done s) :
    After (d.resolveElements declared done) s fun done' s' =>
      StageAfter document d F T V D done done' s' ∧ ∀ p ∈ declared, p.1 ∈ done'.keys := by
  unfold resolveElements
  induction declared generalizing done s with
  | nil => exact .pure ⟨⟨h, List.Subset.refl _⟩, fun p hp => absurd hp List.not_mem_nil⟩
  | cons q rest ih =>
      rw [List.foldlM_cons]
      have hq := h.add hV (hdeclared q List.mem_cons_self) (hstated q List.mem_cons_self)
      refine After.bind (P := fun done' s' => Stage document d F T V D done' s' ∧
        (∀ n f, d.Stated s n f → d.Stated s' n f) ∧ done.keys ⊆ done'.keys ∧ q.1 ∈ done'.keys)
        ?_ fun done₁ s₁ h₁ => ?_
      · refine hq.bind fun v s₁ h₁ => .pure ⟨h₁.1, h₁.2, ?_, ?_⟩
        · exact fun n hn => mem_names_setPair.2 (.inr hn)
        · exact mem_names_setPair.2 (.inl rfl)
      · obtain ⟨hstage, hkeep, hkeys, hname⟩ := h₁
        refine (ih (fun p hp => hdeclared p (List.mem_cons_of_mem _ hp))
          (fun p hp => hkeep _ _ (hstated p (List.mem_cons_of_mem _ hp))) hstage).mono
          fun done₂ s₂ h₂ => ⟨⟨h₂.1.stage, List.Subset.trans hkeys h₂.1.keys⟩, fun p hp => ?_⟩
        obtain rfl | hp := List.mem_cons.1 hp
        · exact h₂.1.keys hname
        · exact h₂.2 p hp

theorem after_resolveLocals_stage (hV : ElementsYield document d F T V D) (fuel : Nat) :
    ∀ {done : OrderedMap Element} {s : Findings}, Stage document d F T V D done s →
      (waiting document done).card < fuel →
      After (d.resolveLocals fuel done) s fun done' s' =>
        StageAfter document d F T V D done done' s' ∧ s'.locals.keys ⊆ done'.keys := by
  induction fuel with
  | zero => exact fun _ hcard => absurd hcard (Nat.not_lt_zero _)
  | succ fuel ih =>
      intro done s h hcard
      have hpending : ∀ p ∈ s.locals.pairs.filter (fun p => !done.contains p.1),
          s.locals.get? p.1 = some p.2 ∧ p.1 ∉ done.keys ∧ DeclaredInside document p.1 p.2 := by
        intro p hp
        obtain ⟨hmem, hnew⟩ := List.mem_filter.1 hp
        have hlocal : s.locals.get? p.1 = some p.2 := OrderedMap.get?_eq_some_iff.2 hmem
        refine ⟨hlocal, fun hkey => ?_, (h.settled.locals p.1 p.2 hlocal).inside⟩
        rw [OrderedMap.contains_iff.2 hkey] at hnew
        exact absurd hnew (by decide)
      unfold resolveLocals
      refine (After.get (Q := fun a s' => a = s ∧ s' = s) ⟨rfl, rfl⟩).bind ?_
      rintro _ _ ⟨rfl, rfl⟩
      split
      · next hnone =>
        refine .pure ⟨⟨h, List.Subset.refl _⟩, fun n hn => ?_⟩
        obtain ⟨e, he⟩ := OrderedMap.exists_of_mem_keys hn
        have hseen := List.filter_eq_nil_iff.1 hnone (n, e) he
        simpa [OrderedMap.contains_iff] using hseen
      · next hsome =>
        obtain ⟨q, hq⟩ := List.exists_mem_of_ne_nil _ hsome
        obtain ⟨-, hnew, hq'⟩ := hpending q hq
        refine (after_resolveElements_stage hV (fun p hp => .of_inner (hpending p hp).2.2.inner)
          (fun p hp => .inr (hpending p hp).1) h).bind fun done₁ s₁ h₁ => ?_
        have hless := card_waiting_lt h₁.1.keys hq'.declaredAs hnew (h₁.2 q hq)
        exact (ih h₁.1.stage (by omega)).mono fun done₂ s₂ h₂ =>
          ⟨⟨h₂.1.stage, List.Subset.trans h₁.1.keys h₂.1.keys⟩, h₂.2⟩

/-- The elements of a schema are the global ones and those that are met, each as it resolves. -/
def ElementsFound (d : Declarations) (V : String → Xml.Element → Element)
    (D : String → Xml.Element → Set (String × Xml.Element)) (elements : OrderedMap Element) : Prop :=
  ∀ name v, elements.get? name = some v ↔
    ∃ e, (d.elements.get? name = some e ∨ Met d D name e) ∧ v = V name e

/-- An element that is stated by name is the only one of this name. -/
theorem Settled.stated_unique {s : Findings} (hs : d.Settled document F T s) {name : String}
    {e f : Xml.Element} (he : d.Stated s name e) (hf : d.Stated s name f) : e = f := by
  have hnot : ∀ g g', d.elements.get? name = some g → s.locals.get? name = some g' → False := by
    intro g g' hg hg'
    have hglobal := OrderedMap.contains_iff_get?.2 ⟨g, hg⟩
    rw [(hs.locals name g' hg').notGlobal] at hglobal
    cases hglobal
  rcases he with he | he <;> rcases hf with hf | hf
  · exact Option.some.inj (he.symm.trans hf)
  · exact (hnot _ _ he hf).elim
  · exact (hnot _ _ hf he).elim
  · exact Option.some.inj (he.symm.trans hf)

theorem Stage.resolved {done : OrderedMap Element} {s : Findings}
    (h : Stage document d F T V D done s) {name : String} {e : Xml.Element}
    (he : d.Stated s name e) (hname : name ∈ done.keys) :
    done.get? name = some (V name e) ∧ ∀ p ∈ D name e, d.Noted s p := by
  obtain ⟨v, hv⟩ := Option.isSome_iff_exists.1 (OrderedMap.get?_isSome.2 hname)
  obtain ⟨f, hf, rfl, hD⟩ := h.entries name v hv
  obtain rfl := h.settled.stated_unique he hf
  exact ⟨hv, hD⟩

theorem Stage.found {done : OrderedMap Element} {s : Findings} (h : Stage document d F T V D done s)
    (hglobals : d.elements.keys ⊆ done.keys) (hlocals : s.locals.keys ⊆ done.keys) :
    ElementsFound d V D done := by
  have hkey : ∀ name e, d.Stated s name e → name ∈ done.keys := fun name e he => by
    obtain he | he := he
    · exact hglobals (OrderedMap.get?_isSome.1 (Option.isSome_iff_exists.2 ⟨e, he⟩))
    · exact hlocals (OrderedMap.get?_isSome.1 (Option.isSome_iff_exists.2 ⟨e, he⟩))
  have hnoted : ∀ name e, d.Stated s name e → ∀ p ∈ D name e, d.Noted s p :=
    fun name e he => (h.resolved he (hkey name e he)).2
  -- All that is met was noted, as everything noted was resolved.
  have hmet : ∀ name e, Met d D name e → s.locals.get? name = some e := by
    intro name e hmet
    have hnew : ∀ {n : String} {f : Xml.Element}, d.elements.contains n = false → d.Noted s (n, f) →
        s.locals.get? n = some f := fun hn hf => hf.resolve_left fun hglobal => by
      rw [hn] at hglobal
      cases hglobal
    induction hmet with
    | byGlobal he hf hn => exact hnew hn (hnoted _ _ (.inl he) _ hf)
    | byLocal _ hf hn ih => exact hnew hn (hnoted _ _ (.inr ih) _ hf)
  intro name v
  constructor
  · intro hv
    obtain ⟨e, he, rfl, -⟩ := h.entries name v hv
    exact ⟨e, he.imp_right (h.locals name e), rfl⟩
  · rintro ⟨e, he, rfl⟩
    have hstated : d.Stated s name e := he.imp_right (hmet name e)
    exact (h.resolved hstated (hkey name e hstated)).1

/-! ## Enumerations in whatever order -/

/-- Adds the enumeration of a simple type, if it has one. -/
def addEnum (d : Declarations) (enums : OrderedMap (List String)) (name : String) :
    Resolving (OrderedMap (List String)) := do
  match (← d.lookupFacets name).enums with
  | some values => pure (enums.insert name values)
  | none => pure enums

/-- The enumerations of simple types, each as its facets have it. -/
def EnumsFound (names : List String) (F : String → Facets) (enums : OrderedMap (List String)) : Prop :=
  ∀ name values, enums.get? name = some values ↔ name ∈ names ∧ (F name).enums = some values

theorem after_addEnum (hd : Basis document d F) {s : Findings} (hs : d.Settled document F T s)
    {seen : List String} {enums : OrderedMap (List String)} (h : EnumsFound seen F enums)
    (name : String) : After (d.addEnum enums name) s fun enums' s' =>
      d.Settled document F T s' ∧ EnumsFound (seen ++ [name]) F enums' := by
  refine ((yields_lookupFacets hd.facets hd.restrictions name) s hs).bind ?_
  rintro _ s' ⟨rfl, hs', -⟩
  cases hvalues : (F name).enums with
  | none =>
      refine .pure ⟨hs', fun n values => ?_⟩
      rw [h, List.mem_append, List.mem_singleton]
      refine ⟨fun hn => ⟨.inl hn.1, hn.2⟩, fun hn => ⟨hn.1.resolve_right ?_, hn.2⟩⟩
      rintro rfl
      rw [hvalues] at hn
      cases hn.2
  | some values =>
      refine .pure ⟨hs', fun n values' => ?_⟩
      rw [OrderedMap.get?_insert, List.mem_append, List.mem_singleton]
      split
      · next hn =>
        subst hn
        rw [hvalues]
        exact ⟨fun heq => ⟨.inr rfl, heq⟩, fun heq => heq.2⟩
      · next hn => rw [h, or_iff_left hn]

theorem after_addEnums (hd : Basis document d F) (names : List String) :
    ∀ {seen : List String} {enums : OrderedMap (List String)} {s : Findings},
      d.Settled document F T s → EnumsFound seen F enums →
      After (names.foldlM d.addEnum enums) s fun enums' _ => EnumsFound (seen ++ names) F enums' := by
  induction names with
  | nil =>
      intro seen enums s _ h
      rw [List.append_nil]
      exact .pure h
  | cons name rest ih =>
      intro seen enums s hs h
      rw [List.foldlM_cons, List.append_cons]
      exact (after_addEnum hd hs h name).bind fun enums' s' h' => ih h'.1 h'.2

/-! ## Schemas in whatever order -/

/-- The elements and enumerations of a schema whose declarations are listed in some order. -/
def resolveListed (d : Declarations) (globals : List (String × Xml.Element)) (names : List String)
    (rounds : Nat) : Resolving (OrderedMap Element × OrderedMap (List String)) := do
  let resolved ← d.resolveElements globals ∅
  let elements ← d.resolveLocals rounds resolved
  let enums ← names.foldlM d.addEnum ∅
  pure (elements, enums)

theorem resolveAll_eq (content : List Node) : d.resolveAll content =
    d.resolveListed d.elements.pairs d.simpleTypes.keys ((Node.tagsOf content).length + 1) := rfl

theorem after_resolveListed (hd : Basis document d F) (hV : ElementsYield document d F T V D)
    (globals : List (String × Xml.Element))
    (hglobals : ∀ name e, (name, e) ∈ globals ↔ d.elements.get? name = some e) (names : List String)
    {rounds : Nat} (hrounds : (Node.tagsOf document).length < rounds) :
    After (d.resolveListed globals names rounds) .none fun r _ =>
      ElementsFound d V D r.1 ∧ EnumsFound names F r.2 := by
  have hstart : Stage document d F T V D ∅ .none :=
    ⟨settled_none, fun _ _ h => absurd h (Option.some_ne_none _).symm,
      fun _ _ h => absurd h (Option.some_ne_none _).symm⟩
  unfold resolveListed
  refine (after_resolveElements_stage hV
    (fun p hp => hd.grounded.elements p.1 p.2 ((hglobals p.1 p.2).1 hp))
    (fun p hp => .inl ((hglobals p.1 p.2).1 hp)) hstart).bind fun resolved s₁ h₁ => ?_
  refine (after_resolveLocals_stage hV rounds h₁.1.stage
    (Nat.lt_of_le_of_lt (card_waiting_le document resolved) hrounds)).bind fun elements s₂ h₂ => ?_
  have hkeys : d.elements.keys ⊆ elements.keys := by
    intro name hname
    obtain ⟨e, he⟩ := Option.isSome_iff_exists.1 (OrderedMap.get?_isSome.2 hname)
    exact h₂.1.keys (h₁.2 (name, e) ((hglobals name e).2 he))
  have hfound := h₂.1.stage.found hkeys h₂.2
  have hnone : EnumsFound [] F ∅ := fun _ _ =>
    iff_of_false (Option.some_ne_none _).symm fun h => absurd h.1 List.not_mem_nil
  refine (after_addEnums hd names h₂.1.stage.settled hnone).bind fun enums s₃ h₃ => ?_
  exact .pure ⟨hfound, h₃⟩

theorem Same.resolveListed {d' : Declarations} (h : Same d d') :
    d.resolveListed = d'.resolveListed := by
  have hadd : d.addEnum = d'.addEnum := by
    funext enums name
    simp only [addEnum, h.lookupFacets]
  funext globals names rounds
  simp only [Declarations.resolveListed, h.resolveElements, h.resolveLocals, hadd]

theorem exists_elementsYield (hd : Basis document d F) (hT : d.SolvesTypes T)
    (hderivations : Acyclic d.Derives) : ∃ V D, ElementsYield document d F T V D := by
  have hall : ∀ name e, ∃ v D, Within document e.content →
      d.Yields document F T (d.resolveElement name e) v D := by
    intro name e
    by_cases he : Within document e.content
    · obtain ⟨v, D, h⟩ := yields_resolveElement hd hT hderivations name he
      exact ⟨v, D, fun _ => h⟩
    · exact ⟨default, ∅, fun h => absurd h he⟩
  choose V D h using hall
  exact ⟨V, D, h⟩

end Declarations

/-- What the order of the declarations in a schema cannot change: derivations and restrictions do
not go round in circles, and names are declared once for each kind at the top, and once in
passing. -/
structure Orderless (content : List Node) : Prop where
  top : DistinctTop content
  passing : Declarations.UniqueLocals content
  derivations : Acyclic (Declarations.ofContent content).Derives
  restrictions : Acyclic (Declarations.ofContent content).Restricts

variable {content content' : List Node}

/-- Whatever the order of the declarations, the same elements and enumerations are resolved. -/
theorem resolveAll_perm (h : Orderless content) (hperm : content.Perm content') :
    let found := ((Declarations.ofContent content).resolveAll content).run .none
    let found' := ((Declarations.ofContent content').resolveAll content').run .none
    found.1.1.Agrees found'.1.1 ∧ found.1.2.Agrees found'.1.2 := by
  have hsame := same_ofContent hperm h.top
  obtain ⟨F, hF⟩ := Declarations.exists_facets _ h.restrictions
  have hd : Declarations.Basis content (.ofContent content) F :=
    ⟨Declarations.grounded_ofContent _, h.passing, hF, h.restrictions⟩
  obtain ⟨T, hT⟩ := Declarations.exists_types h.derivations
  obtain ⟨V, D, hV⟩ := Declarations.exists_elementsYield hd hT h.derivations
  -- Both orders are run on the declarations of the first schema.
  have hfound := Declarations.after_resolveListed hd hV
    (Declarations.ofContent content).elements.pairs (fun _ _ => OrderedMap.get?_eq_some_iff.symm)
    (Declarations.ofContent content).simpleTypes.keys (Nat.lt_succ_self _)
  have hrounds : (Node.tagsOf content).length < (Node.tagsOf content').length + 1 := by
    rw [(tagsOf_perm hperm).length_eq]
    exact Nat.lt_succ_self _
  have hglobals : ∀ name e, (name, e) ∈ (Declarations.ofContent content').elements.pairs ↔
      (Declarations.ofContent content).elements.get? name = some e := by
    intro name e
    rw [hsame.elements, OrderedMap.get?_eq_some_iff]
  have hfound' := Declarations.after_resolveListed hd hV
    (Declarations.ofContent content').elements.pairs hglobals
    (Declarations.ofContent content').simpleTypes.keys hrounds
  rw [hsame.resolveListed, ← Declarations.resolveAll_eq] at hfound'
  obtain ⟨helements, henums⟩ := hfound
  obtain ⟨helements', henums'⟩ := hfound'
  refine ⟨fun name => Option.ext fun v => (helements name v).trans (helements' name v).symm,
    fun name => Option.ext fun values => ?_⟩
  have hnames : name ∈ (Declarations.ofContent content).simpleTypes.keys ↔
      name ∈ (Declarations.ofContent content').simpleTypes.keys :=
    OrderedMap.Agrees.mem_keys_iff (hsame .simpleType)
  exact (henums name values).trans ((and_congr_left' hnames).trans (henums' name values).symm)

/-! ## Checking the conditions -/

theorem distinctTop_of_nodup
    (h : ((schemaElements content).map fun e => (e.tag.name, e.tag.attribute? "name")).Nodup) :
    DistinctTop content := fun _ _ _ _ he hf =>
  List.inj_on_of_nodup_map h he.top hf.top
    (Prod.ext (he.kind.trans hf.kind.symm) (he.name.trans hf.name.symm))

theorem uniqueLocals_of_nodup
    (h : (((inner content).filter fun e => isSchema e.tag "element").map fun e =>
      e.tag.attribute? "name").Nodup) : Declarations.UniqueLocals content := fun _ _ _ he hf =>
  List.inj_on_of_nodup_map h (List.mem_filter.2 ⟨he.inner, he.schema⟩)
    (List.mem_filter.2 ⟨hf.inner, hf.schema⟩) (he.name.trans hf.name.symm)

theorem acyclic_of_lt {R : String → String → Prop} (rank : String → Nat)
    (h : ∀ a b, R a b → rank b < rank a) : Acyclic R := by
  intro a hcycle
  have hlt : ∀ b, Relation.TransGen R a b → rank b < rank a := by
    intro b hb
    induction hb with
    | single hab => exact h _ _ hab
    | tail _ hbc ih => exact Nat.lt_trans (h _ _ hbc) ih
  exact Nat.lt_irrefl _ (hlt a hcycle)

namespace Declarations

variable {d : Declarations}

theorem acyclic_derives (rank : String → Nat)
    (h : ∀ p ∈ d.complexTypes.pairs, ∀ b ∈ d.base? p.2.content, rank b < rank p.1) :
    Acyclic d.Derives := by
  refine acyclic_of_lt rank ?_
  rintro a b ⟨e, he, hb⟩
  exact h (a, e) (OrderedMap.get?_eq_some_iff.1 he) b hb

theorem acyclic_restricts (rank : String → Nat)
    (h : ∀ p ∈ d.simpleTypes.pairs, ∀ b ∈ Facets.baseOfSimple p.2.content, rank b < rank p.1) :
    Acyclic d.Restricts := by
  refine acyclic_of_lt rank ?_
  rintro a b ⟨e, he, hb⟩
  exact h (a, e) (OrderedMap.get?_eq_some_iff.1 he) b hb

end Declarations

namespace Model

/-- The elements and enumerations of a model. -/
def parts (m : Model) : OrderedMap Element × OrderedMap (List String) := (m.elements, m.enums)

theorem map_parts_ofDocument (root? : Option String) (tag : Tag) (content : List Node) :
    (ofDocument root? (.element tag content)).map parts =
      if isSchema tag "schema" then
        let found := (((Declarations.ofContent content).resolveAll content).run .none).1
        if root?.all found.1.contains then .ok (found.1.sorted, found.2.sorted)
        else .error (.undeclaredRoot (root?.getD ""))
      else .error (.notSchema tag.name) := by
  cases hschema : isSchema tag "schema" with
  | false =>
      simp only [ofDocument, hschema]
      rfl
  | true =>
      simp only [ofDocument, hschema]
      cases root? with
      | none => rfl
      | some root =>
          simp only [Bool.not_true, Bool.false_eq_true, if_false, if_true, Option.all_some]
          split
          next elements enums found hrun =>
            rw [hrun]
            by_cases hroot : elements.contains root = true
            · rw [if_pos hroot, if_pos hroot]
              rfl
            · rw [if_neg hroot, if_neg hroot]
              rfl

theorem ofDocument_perm (h : Orderless content) (hperm : content.Perm content') (tag : Tag)
    (root? : Option String) :
    (ofDocument root? (.element tag content)).map parts =
      (ofDocument root? (.element tag content')).map parts := by
  obtain ⟨helements, henums⟩ := resolveAll_perm h hperm
  have hcontains := funext helements.contains_eq
  rw [map_parts_ofDocument, map_parts_ofDocument]
  simp only [hcontains, helements.sorted, henums.sorted]

theorem load_perm (root? : Option String) {text text' : String} {tag : Tag}
    (hread : Xml.readDocument text.toList = .ok (.element tag content))
    (hread' : Xml.readDocument text'.toList = .ok (.element tag content'))
    (hperm : content.Perm content') (h : Orderless content) :
    (load root? text).map parts = (load root? text').map parts := by
  rw [load, load, hread, hread']
  exact ofDocument_perm h hperm tag root?

/-- An element of a schema document whose name space has the label `xs`. -/
def schemaNode (name : String) (attributes : List (String × String)) (content : List Node) : Node :=
  .element ⟨some schemaUri, name, attributes.map fun a => ⟨none, a.1, a.2⟩,
    [⟨some "xs", schemaUri⟩]⟩ content

/-- A page that is a note, a note that is a line with a mark, and a tone that is a pitch. -/
def pageContent : List Node :=
  [schemaNode "element" [("name", "page"), ("type", "note")] [],
    schemaNode "complexType" [("name", "note")]
      [schemaNode "complexContent" []
        [schemaNode "extension" [("base", "line")]
          [schemaNode "all" [] [schemaNode "element" [("name", "mark")] []]]]],
    schemaNode "complexType" [("name", "line")] [],
    schemaNode "simpleType" [("name", "tone")] [schemaNode "restriction" [("base", "pitch")] []],
    schemaNode "simpleType" [("name", "pitch")]
      [schemaNode "restriction" [] [schemaNode "enumeration" [("value", "low")] []]]]

def pageSchema : String :=
  "<xs:schema xmlns:xs='http://www.w3.org/2001/XMLSchema'><xs:element name='page' type='note'
    /><xs:complexType name='note'><xs:complexContent><xs:extension base='line'><xs:all><xs:element
    name='mark'/></xs:all></xs:extension></xs:complexContent></xs:complexType><xs:complexType
    name='line'/><xs:simpleType name='tone'><xs:restriction base='pitch'/></xs:simpleType
    ><xs:simpleType name='pitch'><xs:restriction><xs:enumeration value='low'/></xs:restriction
    ></xs:simpleType></xs:schema>"

/-- The declarations of `pageSchema` from the last one to the first. -/
def turnedSchema : String :=
  "<xs:schema xmlns:xs='http://www.w3.org/2001/XMLSchema'><xs:simpleType name='pitch'
    ><xs:restriction><xs:enumeration value='low'/></xs:restriction></xs:simpleType><xs:simpleType
    name='tone'><xs:restriction base='pitch'/></xs:simpleType><xs:complexType name='line'
    /><xs:complexType name='note'><xs:complexContent><xs:extension base='line'><xs:all><xs:element
    name='mark'/></xs:all></xs:extension></xs:complexContent></xs:complexType><xs:element
    name='page' type='note'/></xs:schema>"

def pageTag : Tag := ⟨some schemaUri, "schema", [], [⟨some "xs", schemaUri⟩]⟩

set_option maxRecDepth 10000 in
theorem read_pageSchema :
    Xml.readDocument pageSchema.toList = .ok (.element pageTag pageContent) := by
  obtain ⟨cs, hcs, h⟩ : ∃ cs, pageSchema = String.ofList cs ∧
      Xml.readDocument cs = .ok (.element pageTag pageContent) := ⟨_, rfl, by decide +kernel⟩
  rw [hcs, String.toList_ofList, h]

set_option maxRecDepth 10000 in
theorem read_turnedSchema :
    Xml.readDocument turnedSchema.toList = .ok (.element pageTag pageContent.reverse) := by
  obtain ⟨cs, hcs, h⟩ : ∃ cs, turnedSchema = String.ofList cs ∧
      Xml.readDocument cs = .ok (.element pageTag pageContent.reverse) :=
    ⟨_, rfl, by decide +kernel⟩
  rw [hcs, String.toList_ofList, h]

theorem orderless_pageContent : Orderless pageContent where
  top := distinctTop_of_nodup (by decide +kernel)
  passing := uniqueLocals_of_nodup (by decide +kernel)
  derivations := Declarations.acyclic_derives (fun n => if n = "note" then 1 else 0) (by decide +kernel)
  restrictions :=
    Declarations.acyclic_restricts (fun n => if n = "tone" then 1 else 0) (by decide +kernel)

theorem load_turnedSchema :
    (∃ p, (load none pageSchema).map parts = .ok p) ∧
      (load none pageSchema).map parts = (load none turnedSchema).map parts := by
  have hparts := map_parts_ofDocument none pageTag pageContent
  rw [if_pos (by decide)] at hparts
  have hok : ∃ p, (load none pageSchema).map parts = .ok p := by
    rw [load, read_pageSchema]
    exact ⟨_, hparts⟩
  exact ⟨hok, load_perm none read_pageSchema read_turnedSchema (List.reverse_perm _).symm
    orderless_pageContent⟩

end Model

end Grammar

end GrammarProfile
