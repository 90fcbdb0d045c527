import GrammarProfile.Proofs.AnyOrder

/-!
Patterns along restrictions of simple types. A type that writes patterns of its own is left with those
alone; only a type that writes none has the pattern of the type that it restricts.
-/
namespace GrammarProfile.Grammar

open GrammarProfile.Xml (Node)

/-- A pattern admits a value; where there is none, everything is admitted. -/
def Admits (pattern : Option Pattern) (value : String) : Prop :=
  ∀ p, pattern = some p → p.accepts value = true

instance (pattern : Option Pattern) (value : String) : Decidable (Admits pattern value) :=
  decidable_of_iff (pattern.all (·.accepts value) = true) (by simp [Admits, Option.all_eq_true])

namespace Facets

/-- The pattern that facets of one type make up together, if it is one. -/
def compiled (patterns : List String) : Option Pattern :=
  if patterns.isEmpty then Option.none
  else (Pattern.compile (String.intercalate "|" patterns)).toOption

theorem restrict_pattern (inherited : Facets) (content : List Node) :
    (restrict inherited content).pattern =
      if (valuesOf "pattern" content).isEmpty then inherited.pattern
      else compiled (valuesOf "pattern" content) := by
  unfold restrict compiled
  dsimp only
  split
  · rfl
  · cases Pattern.compile (String.intercalate "|" (valuesOf "pattern" content)) with
    | ok p => rfl
    | error err => rfl

theorem pattern_run_restrict (step : StateM Known Facets) (known : Known) (content : List Node) :
    ((step >>= fun inherited => pure (restrict inherited content)).run known).1.pattern =
      if (valuesOf "pattern" content).isEmpty then (step.run known).1.pattern
      else compiled (valuesOf "pattern" content) := by
  have hrun : ((step >>= fun inherited => pure (restrict inherited content)).run known).1 =
      restrict (step.run known).1 content := rfl
  rw [hrun, restrict_pattern]

mutual

/-- The patterns of a simple type with the given content: its own, or those of the anonymous type
that it restricts. -/
def patternsOfSimple : List Node → List String
  | [] => []
  | .element tag content :: rest =>
    if isSchema tag "restriction" then
      if (valuesOf "pattern" content).isEmpty then
        match tag.attribute? "base" with
        | some _ => []
        | Option.none => patternsOfInline content
      else valuesOf "pattern" content
    else patternsOfSimple rest
  | .text _ :: rest => patternsOfSimple rest
  | .remark :: rest => patternsOfSimple rest

/-- The patterns of the first simple type among some nodes. -/
def patternsOfInline : List Node → List String
  | [] => []
  | .element tag content :: rest =>
    if isSchema tag "simpleType" then patternsOfSimple content else patternsOfInline rest
  | .text _ :: rest => patternsOfInline rest
  | .remark :: rest => patternsOfInline rest

end

/-- The pattern of the type that is restricted, if it is named. -/
def inheritedPattern (F : String → Facets) (base : Option String) : Option Pattern :=
  base.bind fun b => (F b).pattern

theorem own_or_inherited (own more : List String) (inherited : Option Pattern) :
    (if own.isEmpty then if more.isEmpty then inherited else compiled more else compiled own) =
      if (if own.isEmpty then more else own).isEmpty then inherited
      else compiled (if own.isEmpty then more else own) := by
  by_cases hown : own.isEmpty = true
  · rw [if_pos hown, if_pos hown]
  · rw [if_neg hown, if_neg hown, if_neg hown]

variable (F : String → Facets) (known : Known)

mutual

theorem pattern_ofSimpleType : ∀ content : List Node,
    ((ofSimpleType (fun b => pure (F b)) content).run known).1.pattern =
      if (patternsOfSimple content).isEmpty then inheritedPattern F (baseOfSimple content)
      else compiled (patternsOfSimple content)
  | [] => by
      unfold ofSimpleType patternsOfSimple baseOfSimple
      rfl
  | .element tag content :: rest => by
      have hinline := pattern_ofInlineType content
      have hrest := pattern_ofSimpleType rest
      unfold ofSimpleType patternsOfSimple baseOfSimple
      split
      · cases tag.attribute? "base" with
        | none =>
            refine (pattern_run_restrict _ known content).trans ?_
            rw [hinline]
            exact own_or_inherited _ _ _
        | some base =>
            dsimp only
            cases resolveTypeName tag base with
            | named b =>
                exact (pattern_run_restrict _ known content).trans
                  (own_or_inherited _ [] (F b).pattern)
            | builtin b =>
                exact (pattern_run_restrict _ known content).trans
                  (own_or_inherited _ [] Option.none)
      · exact hrest
  | .text _ :: rest => by
      unfold ofSimpleType patternsOfSimple baseOfSimple
      exact pattern_ofSimpleType rest
  | .remark :: rest => by
      unfold ofSimpleType patternsOfSimple baseOfSimple
      exact pattern_ofSimpleType rest

theorem pattern_ofInlineType : ∀ content : List Node,
    ((ofInlineType (fun b => pure (F b)) content).run known).1.pattern =
      if (patternsOfInline content).isEmpty then inheritedPattern F (baseOfInline content)
      else compiled (patternsOfInline content)
  | [] => by
      unfold ofInlineType patternsOfInline baseOfInline
      rfl
  | .element tag content :: rest => by
      have hinner := pattern_ofSimpleType content
      have hrest := pattern_ofInlineType rest
      unfold ofInlineType patternsOfInline baseOfInline
      split
      · exact hinner
      · exact hrest
  | .text _ :: rest => by
      unfold ofInlineType patternsOfInline baseOfInline
      exact pattern_ofInlineType rest
  | .remark :: rest => by
      unfold ofInlineType patternsOfInline baseOfInline
      exact pattern_ofInlineType rest

end

end Facets

namespace Declarations

variable (d : Declarations)

/-- What is known of named types after some facets have been looked up, in any order. -/
inductive Looked : Facets.Known → Prop where
  | start : Looked ∅
  | named {known : Facets.Known} (name : String) :
      Looked known → Looked ((d.simpleFacets name).run known).2
  | anonymous {known : Facets.Known} (content : List Node) :
      Looked known → Looked ((Facets.ofInlineType d.simpleFacets content).run known).2

/-- The patterns that a named type writes itself. -/
def patternsOf (name : String) : List String :=
  match d.simpleTypes.get? name with
  | none => []
  | some e => Facets.patternsOfSimple e.content

/-- A type that writes no patterns has those of the named type that it restricts. -/
def Inherits (a b : String) : Prop := d.Restricts a b ∧ d.patternsOf a = []

/-- The pattern that is looked up for a named type. -/
def patternFrom (known : Facets.Known) (name : String) : Option Pattern :=
  ((d.simpleFacets name).run known).1.pattern

variable {d}

section

variable {F : String → Facets} (hF : d.SolvesFacets F) (h : Acyclic d.Restricts)
include hF h

theorem Looked.knownFacets {known : Facets.Known} (hknown : d.Looked known) :
    KnownFacets F known := by
  induction hknown with
  | start => exact fun _ _ hf => nomatch hf
  | named name _ ih => exact (after_simpleFacets_eq hF h name ih).2
  | anonymous content _ ih =>
      exact (Facets.after_ofInlineType_eq (F := F) ∅ content
        (fun b _ _ hs => after_simpleFacets_eq hF h b hs) _ ih).2

theorem patternFrom_eq {known : Facets.Known} (hknown : d.Looked known) (name : String) :
    d.patternFrom known name = (F name).pattern :=
  congrArg Facets.pattern (after_simpleFacets_eq hF h name (hknown.knownFacets hF h)).1

end

theorem pattern_eq {F : String → Facets} (hF : d.SolvesFacets F) (name : String) :
    (F name).pattern = if (d.patternsOf name).isEmpty then
        Facets.inheritedPattern F
          ((d.simpleTypes.get? name).bind fun e => Facets.baseOfSimple e.content)
      else Facets.compiled (d.patternsOf name) := by
  rw [hF name, facetsBy, patternsOf]
  cases d.simpleTypes.get? name with
  | none => rfl
  | some e => exact Facets.pattern_ofSimpleType F ∅ e.content

theorem pattern_inherits {F : String → Facets} (hF : d.SolvesFacets F) {a b : String}
    (h : d.Inherits a b) : (F a).pattern = (F b).pattern := by
  obtain ⟨⟨e, he, hb⟩, hnone⟩ := h
  rw [pattern_eq hF a, hnone, he, Option.bind_some, hb]
  rfl

theorem pattern_written {F : String → Facets} (hF : d.SolvesFacets F) {name : String}
    (h : d.patternsOf name ≠ [] ∨ ∀ b, ¬d.Restricts name b) :
    (F name).pattern = Facets.compiled (d.patternsOf name) := by
  rw [pattern_eq hF]
  split
  · next hnone =>
    have hbase := h.resolve_left (not_not_intro (List.isEmpty_iff.1 hnone))
    rw [List.isEmpty_iff.1 hnone]
    cases he : d.simpleTypes.get? name with
    | none => rfl
    | some e =>
        rw [Option.bind_some]
        cases hb : Facets.baseOfSimple e.content with
        | none => rfl
        | some b => exact absurd ⟨e, he, hb⟩ (hbase b)
  · rfl

/-- Among the types that a type inherits from there is one that does not inherit. -/
theorem exists_writer (h : Acyclic d.Restricts) (name : String) :
    ∃ writer, Relation.ReflTransGen d.Inherits name writer ∧
      (d.patternsOf writer ≠ [] ∨ ∀ b, ¬d.Restricts writer b) := by
  have hkeys : ∀ a b, d.Restricts a b → a ∈ d.simpleTypes.keys := fun a b hab =>
    OrderedMap.get?_isSome.1 (Option.isSome_iff_exists.2 ⟨_, hab.choose_spec.1⟩)
  induction name using (h.wellFounded hkeys).induction with
  | h name ih =>
      by_cases hinherits : ∃ b, d.Inherits name b
      · obtain ⟨b, hb⟩ := hinherits
        obtain ⟨writer, hway, hwriter⟩ := ih b hb.1
        exact ⟨writer, .head hb hway, hwriter⟩
      · refine ⟨name, .refl, ?_⟩
        by_cases hnone : d.patternsOf name = []
        · exact .inr fun b hb => hinherits ⟨b, hb, hnone⟩
        · exact .inl hnone

/-- The pattern of a type is what the nearest type that writes patterns makes of its own. So a
restriction admits nothing that its base does not exactly if it writes none, or if what it writes
admits nothing more. -/
theorem restriction_admits_no_more_iff (hacyclic : Acyclic d.Restricts) {known known' : Facets.Known}
    (hknown : d.Looked known) (hknown' : d.Looked known') {derived base : String}
    (hbase : d.Restricts derived base) :
    (∃ writer, Relation.ReflTransGen d.Inherits derived writer ∧
      (d.patternsOf writer ≠ [] ∨ ∀ b, ¬d.Restricts writer b) ∧
      d.patternFrom known derived = Facets.compiled (d.patternsOf writer)) ∧
    (d.patternsOf derived = [] → d.patternFrom known derived = d.patternFrom known' base) ∧
    ((∀ value, Admits (d.patternFrom known derived) value →
        Admits (d.patternFrom known' base) value) ↔
      d.patternsOf derived = [] ∨ ∀ value, Admits (Facets.compiled (d.patternsOf derived)) value →
        Admits (d.patternFrom known' base) value) := by
  obtain ⟨F, hF⟩ := d.exists_facets hacyclic
  rw [patternFrom_eq hF hacyclic hknown, patternFrom_eq hF hacyclic hknown']
  obtain ⟨writer, hway, hwriter⟩ := exists_writer hacyclic derived
  have hpattern : (F derived).pattern = (F writer).pattern := by
    clear hwriter
    induction hway with
    | refl => rfl
    | tail _ hb ih => exact ih.trans (pattern_inherits hF hb)
  refine ⟨⟨writer, hway, hwriter, hpattern.trans (pattern_written hF hwriter)⟩,
    fun hnone => pattern_inherits hF ⟨hbase, hnone⟩, ?_⟩
  by_cases hnone : d.patternsOf derived = []
  · rw [pattern_inherits hF ⟨hbase, hnone⟩]
    exact iff_of_true (fun _ h => h) (.inl hnone)
  · rw [pattern_written hF (.inl hnone), or_iff_right hnone]

end Declarations

namespace Model

/-- A letter, a vowel that is a letter from a list, and a digit that is called a letter. -/
def letterContent : List Node :=
  [schemaNode "simpleType" [("name", "letter")]
      [schemaNode "restriction" [("base", "xs:string")]
        [schemaNode "pattern" [("value", "[a-z]")] []]],
    schemaNode "simpleType" [("name", "vowel")]
      [schemaNode "restriction" [("base", "letter")]
        [schemaNode "enumeration" [("value", "a")] []]],
    schemaNode "simpleType" [("name", "digit")]
      [schemaNode "restriction" [("base", "letter")]
        [schemaNode "pattern" [("value", "[0-9]")] []]]]

def letterSchema : String :=
  "<xs:schema xmlns:xs='http://www.w3.org/2001/XMLSchema'><xs:simpleType name='letter'
    ><xs:restriction base='xs:string'><xs:pattern value='[a-z]'/></xs:restriction></xs:simpleType
    ><xs:simpleType name='vowel'><xs:restriction base='letter'><xs:enumeration value='a'
    /></xs:restriction></xs:simpleType><xs:simpleType name='digit'><xs:restriction base='letter'
    ><xs:pattern value='[0-9]'/></xs:restriction></xs:simpleType></xs:schema>"

set_option maxRecDepth 10000 in
theorem read_letterSchema :
    Xml.readDocument letterSchema.toList = .ok (.element pageTag letterContent) := by
  obtain ⟨cs, hcs, h⟩ : ∃ cs, letterSchema = String.ofList cs ∧
      Xml.readDocument cs = .ok (.element pageTag letterContent) := ⟨_, rfl, by decide +kernel⟩
  rw [hcs, String.toList_ofList, h]

theorem acyclic_letterContent : Acyclic (Declarations.ofContent letterContent).Restricts :=
  Declarations.acyclic_restricts (fun n => if n = "letter" then 0 else 1) (by decide +kernel)

theorem restricts_letter (name : String)
    (h : ((Declarations.ofContent letterContent).simpleTypes.get? name).bind
      (fun e => Facets.baseOfSimple e.content) = some "letter") :
    (Declarations.ofContent letterContent).Restricts name "letter" := by
  obtain ⟨e, he, hb⟩ := Option.bind_eq_some_iff.1 h
  exact ⟨e, he, hb⟩

theorem vowel_admits_no_more :
    (Declarations.ofContent letterContent).Restricts "vowel" "letter" ∧
    ∀ value, Admits ((Declarations.ofContent letterContent).patternFrom ∅ "vowel") value →
      Admits ((Declarations.ofContent letterContent).patternFrom ∅ "letter") value := by
  have hbase := restricts_letter "vowel" (by decide +kernel)
  exact ⟨hbase, (Declarations.restriction_admits_no_more_iff acyclic_letterContent .start .start
    hbase).2.2.2 (.inl (by decide +kernel))⟩

/-- A type that writes a pattern is not held to that of the type which it restricts. -/
theorem digit_admits_more :
    Xml.readDocument letterSchema.toList = .ok (.element pageTag letterContent) ∧
    Acyclic (Declarations.ofContent letterContent).Restricts ∧
    (Declarations.ofContent letterContent).Restricts "digit" "letter" ∧
    ∀ known, (Declarations.ofContent letterContent).Looked known →
      Admits ((Declarations.ofContent letterContent).patternFrom known "digit") "7" ∧
      ¬Admits ((Declarations.ofContent letterContent).patternFrom known "letter") "7" := by
  refine ⟨read_letterSchema, acyclic_letterContent,
    restricts_letter "digit" (by decide +kernel), fun known hknown => ?_⟩
  obtain ⟨F, hF⟩ := Declarations.exists_facets _ acyclic_letterContent
  have hsame : ∀ name, (Declarations.ofContent letterContent).patternFrom known name =
      (Declarations.ofContent letterContent).patternFrom ∅ name := fun name =>
    (Declarations.patternFrom_eq hF acyclic_letterContent hknown name).trans
      (Declarations.patternFrom_eq hF acyclic_letterContent .start name).symm
  rw [hsame, hsame]
  decide +kernel

end Model

end GrammarProfile.Grammar
