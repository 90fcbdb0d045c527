import Mathlib.Data.Fintype.Card
import GrammarProfile.Proofs.WellFormed

/-!
Types that derive from others without going round in a circle. Such a derivation is well founded,
a search that follows it never meets a type again, and what a type gets by rules from the types that
it derives from is determined. The facets of simple types are found in this way, whatever was worked
out before.
-/
namespace GrammarProfile.Grammar

open GrammarProfile.Xml (Tag Node)

/-! ## Derivations without circles -/

/-- No name leads back to itself. -/
def Acyclic (R : String → String → Prop) : Prop := ∀ a, ¬Relation.TransGen R a a

section

variable {R : String → String → Prop} {keys opened : List String} {name : String}

theorem Acyclic.wellFounded (h : Acyclic R) (hkeys : ∀ a b, R a b → a ∈ keys) :
    WellFounded fun b a => R a b := by
  -- Only finitely many names lead on.
  let below : {a // a ∈ keys} → {a // a ∈ keys} → Prop := fun b a => Relation.TransGen R a b
  have htrans : IsTrans _ below := ⟨fun _ _ _ hab hbc => hbc.trans hab⟩
  have hirrefl : Std.Irrefl below := ⟨fun a ha => h a ha⟩
  have hwf : WellFounded below := Finite.wellFounded_of_trans_of_irrefl below
  have hacc : ∀ a : {a // a ∈ keys}, Acc (fun b a => R a b) a.1 := by
    intro a
    induction a using hwf.induction with
    | h a ih =>
        refine ⟨a.1, fun b hb => ?_⟩
        by_cases hmem : b ∈ keys
        · exact ih ⟨b, hmem⟩ (.single hb)
        · exact ⟨b, fun c hc => absurd (hkeys b c hc) hmem⟩
  refine ⟨fun a => ⟨a, fun b hb => ?_⟩⟩
  by_cases hmem : b ∈ keys
  · exact hacc ⟨b, hmem⟩
  · exact ⟨b, fun c hc => absurd (hkeys b c hc) hmem⟩

/-- Rules that ask only for what a name leads to have a solution. -/
theorem exists_solution {α : Type} [Inhabited α] (hwf : WellFounded fun b a => R a b)
    (rule : (String → α) → String → α)
    (hrule : ∀ f g a, (∀ b, R a b → f b = g b) → rule f a = rule g a) :
    ∃ f : String → α, ∀ a, f a = rule f a := by
  classical
  let step : ∀ a, (∀ b, R a b → α) → α :=
    fun a found => rule (fun b => if h : R a b then found b h else default) a
  refine ⟨hwf.fix step, fun a => ?_⟩
  rw [hwf.fix_eq]
  exact hrule _ _ a fun b hb => dif_pos hb

/-- The names that a search has opened on its way to a name. -/
structure Way (R : String → String → Prop) (keys opened : List String) (name : String) : Prop where
  above : ∀ a ∈ opened, Relation.TransGen R a name
  nodup : opened.Nodup
  declared : opened ⊆ keys

theorem Way.nil : Way R keys [] name :=
  ⟨fun _ h => absurd h List.not_mem_nil, List.nodup_nil, List.nil_subset keys⟩

theorem Way.not_mem (h : Way R keys opened name) (hR : Acyclic R) : name ∉ opened :=
  fun hmem => hR name (h.above name hmem)

theorem Way.cons (h : Way R keys opened name) (hR : Acyclic R) (hname : name ∈ keys) {b : String}
    (hb : R name b) : Way R keys (name :: opened) b where
  above a ha := by
    obtain rfl | ha := List.mem_cons.1 ha
    · exact .single hb
    · exact (h.above a ha).tail hb
  nodup := List.nodup_cons.2 ⟨h.not_mem hR, h.nodup⟩
  declared := List.cons_subset.2 ⟨hname, h.declared⟩

theorem Way.length_le (h : Way R keys opened name) : opened.length ≤ keys.length :=
  (h.nodup.subperm h.declared).length_le

end

/-! ## Facets -/

namespace Facets

mutual

/-- The named type that a simple type with the given content restricts. -/
def baseOfSimple : List Node → Option String
  | [] => Option.none
  | .element tag content :: rest =>
    if isSchema tag "restriction" then
      match tag.attribute? "base" with
      | some base =>
        match resolveTypeName tag base with
        | .named name => some name
        | .builtin _ => Option.none
      | Option.none => baseOfInline content
    else baseOfSimple rest
  | .text _ :: rest => baseOfSimple rest
  | .remark :: rest => baseOfSimple rest

/-- The named type that the first simple type among some nodes restricts. -/
def baseOfInline : List Node → Option String
  | [] => Option.none
  | .element tag content :: rest =>
    if isSchema tag "simpleType" then baseOfSimple content else baseOfInline rest
  | .text _ :: rest => baseOfInline rest
  | .remark :: rest => baseOfInline rest

end

section

variable {named named' : String → StateM Known Facets} {P : Known → Prop} {F : String → Facets}

mutual

/-- A simple type asks only for the type that it restricts: with the same facets there its own
facets are the same, whatever is known. -/
theorem after_ofSimpleType_eq (known' : Known) : ∀ content : List Node,
    (∀ b known, baseOfSimple content = some b → P known →
      After (named b) known fun f s => f = F b ∧ P s) →
    ∀ known, P known → After (ofSimpleType named content) known fun f s =>
      f = ((ofSimpleType (fun b => pure (F b)) content).run known').1 ∧ P s
  | [], _, known, h => by
      unfold ofSimpleType
      exact .pure ⟨rfl, h⟩
  | .element tag inner :: rest, hnamed, known, h => by
      have hinline := after_ofInlineType_eq known' inner
      have hrest := after_ofSimpleType_eq known' rest
      unfold ofSimpleType
      unfold baseOfSimple at hnamed
      split
      · next hrestriction =>
        rw [if_pos hrestriction] at hnamed
        cases hbase : tag.attribute? "base" with
        | none =>
            rw [hbase] at hnamed
            refine (hinline hnamed known h).bind fun f s hf => .pure ⟨?_, hf.2⟩
            exact congrArg (restrict · inner) hf.1
        | some base =>
            rw [hbase] at hnamed
            dsimp only at hnamed ⊢
            cases hname : resolveTypeName tag base with
            | named b =>
                rw [hname] at hnamed
                refine (hnamed b known rfl h).bind fun f s hf => .pure ⟨?_, hf.2⟩
                exact congrArg (restrict · inner) hf.1
            | builtin b => exact .pure ⟨rfl, h⟩
      · next hother =>
        rw [if_neg hother] at hnamed
        exact hrest hnamed known h
  | .text _ :: rest, hnamed, known, h => by
      unfold ofSimpleType
      unfold baseOfSimple at hnamed
      exact after_ofSimpleType_eq known' rest hnamed known h
  | .remark :: rest, hnamed, known, h => by
      unfold ofSimpleType
      unfold baseOfSimple at hnamed
      exact after_ofSimpleType_eq known' rest hnamed known h

theorem after_ofInlineType_eq (known' : Known) : ∀ content : List Node,
    (∀ b known, baseOfInline content = some b → P known →
      After (named b) known fun f s => f = F b ∧ P s) →
    ∀ known, P known → After (ofInlineType named content) known fun f s =>
      f = ((ofInlineType (fun b => pure (F b)) content).run known').1 ∧ P s
  | [], _, known, h => by
      unfold ofInlineType
      exact .pure ⟨rfl, h⟩
  | .element tag inner :: rest, hnamed, known, h => by
      have hinner := after_ofSimpleType_eq known' inner
      have hrest := after_ofInlineType_eq known' rest
      unfold ofInlineType
      unfold baseOfInline at hnamed
      split
      · next hsimple =>
        rw [if_pos hsimple] at hnamed
        exact hinner hnamed known h
      · next hother =>
        rw [if_neg hother] at hnamed
        exact hrest hnamed known h
  | .text _ :: rest, hnamed, known, h => by
      unfold ofInlineType
      unfold baseOfInline at hnamed
      exact after_ofInlineType_eq known' rest hnamed known h
  | .remark :: rest, hnamed, known, h => by
      unfold ofInlineType
      unfold baseOfInline at hnamed
      exact after_ofInlineType_eq known' rest hnamed known h

end

end

end Facets

namespace Declarations

variable (d : Declarations)

/-- A simple type restricts a named one. -/
def Restricts (a b : String) : Prop :=
  ∃ e, d.simpleTypes.get? a = some e ∧ Facets.baseOfSimple e.content = some b

/-- The facets of a simple type by those of the type that it restricts. -/
def facetsBy (F : String → Facets) (name : String) : Facets :=
  match d.simpleTypes.get? name with
  | none => Facets.none
  | some e => ((Facets.ofSimpleType (fun b => pure (F b)) e.content).run ∅).1

/-- Facets that follow the restrictions of simple types. -/
def SolvesFacets (F : String → Facets) : Prop := ∀ name, F name = d.facetsBy F name

theorem exists_facets (h : Acyclic d.Restricts) : ∃ F, d.SolvesFacets F := by
  have hkeys : ∀ a b, d.Restricts a b → a ∈ d.simpleTypes.keys := fun a b hab =>
    OrderedMap.get?_isSome.1 (Option.isSome_iff_exists.2 ⟨_, hab.choose_spec.1⟩)
  refine exists_solution (h.wellFounded hkeys) d.facetsBy fun F G a hagree => ?_
  unfold facetsBy
  cases he : d.simpleTypes.get? a with
  | none => rfl
  | some e =>
      refine (Facets.after_ofSimpleType_eq (P := fun _ => True) (F := G) ∅ e.content ?_ ∅ trivial).1
      exact fun b _ hb _ => .pure ⟨hagree b ⟨e, he, hb⟩, trivial⟩

/-- What is known of simple types is what follows from their restrictions. -/
def KnownFacets (F : String → Facets) (known : Facets.Known) : Prop :=
  ∀ name f, known.get? name = some f → f = F name

variable {d}

theorem after_facetsOf_eq {F : String → Facets} (hF : d.SolvesFacets F) (h : Acyclic d.Restricts)
    (fuel : Nat) : ∀ (opened : List String) (name : String) (known : Facets.Known),
    Way d.Restricts d.simpleTypes.keys opened name → d.simpleTypes.keys.length < fuel + opened.length →
    KnownFacets F known →
    After (d.facetsOf fuel opened name) known fun f s => f = F name ∧ KnownFacets F s := by
  induction fuel with
  | zero =>
      intro opened name known hway hfuel _
      have hle := hway.length_le
      omega
  | succ fuel ih =>
      intro opened name known hway hfuel hknown
      have hrule := hF name
      unfold facetsOf
      refine (After.get (Q := fun a s => a = known ∧ s = known) ⟨rfl, rfl⟩).bind ?_
      rintro _ _ ⟨rfl, rfl⟩
      split
      · next f hf => exact .pure ⟨hknown name f hf, hknown⟩
      · unfold facetsBy at hrule
        split
        · next hnone =>
          rw [hnone] at hrule
          exact .pure ⟨hrule.symm, hknown⟩
        · next e he =>
          rw [he] at hrule
          have hname : name ∈ d.simpleTypes.keys :=
            OrderedMap.get?_isSome.1 (Option.isSome_iff_exists.2 ⟨e, he⟩)
          rw [if_neg (by simpa using hway.not_mem h)]
          refine (Facets.after_ofSimpleType_eq (P := KnownFacets F) (F := F) ∅ e.content
            (fun b s hb hs => ?_) _ hknown).bind fun f s hf => ?_
          · exact ih (name :: opened) b s (hway.cons h hname ⟨e, he, hb⟩)
              (by rw [List.length_cons]; omega) hs
          · refine (After.modified (Q := fun _ s' => KnownFacets F s') fun n g hg => ?_).bind
              fun _ s' hs' => .pure ⟨hf.1.trans hrule.symm, hs'⟩
            rw [OrderedMap.get?_insert] at hg
            split at hg
            · next hn =>
              rw [← Option.some.inj hg, hn]
              exact hf.1.trans hrule.symm
            · exact hf.2 n g hg

/-- The facets of a named type do not depend on what was worked out before. -/
theorem after_simpleFacets_eq {F : String → Facets} (hF : d.SolvesFacets F)
    (h : Acyclic d.Restricts) (name : String) {known : Facets.Known} (hknown : KnownFacets F known) :
    After (d.simpleFacets name) known fun f s => f = F name ∧ KnownFacets F s := by
  have hsize : d.simpleTypes.keys.length < d.simpleTypes.size + 1 + ([] : List String).length := by
    rw [OrderedMap.keys, List.length_map]
    exact Nat.lt_succ_self _
  exact after_facetsOf_eq hF h _ [] name known .nil hsize hknown

end Declarations

end GrammarProfile.Grammar
