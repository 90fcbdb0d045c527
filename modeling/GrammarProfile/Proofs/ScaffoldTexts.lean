import GrammarProfile.Proofs.CommentedProfiles
import GrammarProfile.Proofs.Earliest
import GrammarProfile.Proofs.Forms
import GrammarProfile.Proofs.Labels
import GrammarProfile.Proofs.Scaffold

/-!
The texts of scaffolds, with comments and without: both are read as the scaffold, unless names and
other texts of the grammar do not fit where they are written.
-/
namespace GrammarProfile

namespace Cascade

open GrammarProfile.Grammar (Child Element Model Regular)
open GrammarProfile.Profile
open GrammarProfile.Yaml (InLine IsQuotable IsWord isQuotable)

variable {grammar : Model} {dt root : String} {e : Element} {o : ScaffoldOptions}

/-! ## What the entries of a scaffold hold -/

theorem isQuotable_label (bounds : Grammar.Occurs) : IsQuotable (label bounds) := by
  intro c hc
  have hdigit : ∀ n, ∀ c ∈ Nat.toDigits 10 n, isQuotable c = true := fun n c hc =>
    Yaml.isQuotable_of_inLine ((Yaml.isFigure_toDigits n).isPlain.inLine c hc)
  rw [toList_label, List.mem_append, List.mem_cons, List.mem_cons] at hc
  rcases hc with hc | rfl | rfl | hc
  · exact hdigit _ c hc
  · decide
  · decide
  · cases hmax : bounds.max with
    | none =>
        rw [hmax] at hc
        exact List.mem_singleton.1 hc ▸ by decide
    | some m =>
        rw [hmax] at hc
        exact hdigit _ c hc

theorem legibleLabels_children (children : List Child) :
    LegibleLabels (.ofList (children.map fun c => (c.name, some c.cardinality))) := by
  intro p hp s hs
  obtain ⟨c, -, rfl⟩ := List.mem_map.1 (OrderedMap.mem_of_mem_ofList hp)
  obtain rfl := Option.some.inj hs
  exact isQuotable_label (Grammar.Occurs.mk c.minOccurs c.maxOccurs)

theorem legibleLabels_empty : LegibleLabels ∅ := fun _ hp => absurd hp List.not_mem_nil

theorem legibleLabels_scaffoldRule (o : ScaffoldOptions) (e : Element) :
    LegibleLabels (scaffoldRule o e).children ∧ LegibleLabels (scaffoldRule o e).alternatives := by
  unfold scaffoldRule
  dsimp only
  split
  · exact ⟨legibleLabels_children _, legibleLabels_empty⟩
  · exact ⟨legibleLabels_children _, legibleLabels_children _⟩

theorem isSketch_scaffoldRule (h : choiceKey ∉ (scaffoldRule o e).children.keys) :
    (scaffoldRule o e).IsSketch := by
  have hchoice : (scaffoldRule o e).declaresChoice = !(scaffoldRule o e).alternatives.isEmpty ∧
      (scaffoldRule o e).note = none ∧ (scaffoldRule o e).parts = [] := by
    unfold scaffoldRule
    dsimp only
    split <;> exact ⟨rfl, rfl, rfl⟩
  exact ⟨⟨h, fun hsome => by rw [hchoice.1, hsome]; rfl⟩, hchoice.2.1, hchoice.2.2, hchoice.1⟩

theorem isSketch_scaffoldRoot (h : dt ≠ choiceKey) : (scaffoldRoot o dt e).IsSketch where
  children hmem := h (List.mem_singleton.1 hmem).symm
  alternatives hsome := Bool.noConfusion hsome
  note := rfl
  parts := rfl
  choice := rfl

/-- No element that is required lists a child with the name of the key for alternatives. -/
def ListsNoChoice (grammar : Model) (o : ScaffoldOptions) (dt : String) : Prop :=
  ∀ n ∈ grammar.requiredClosure dt, ∀ d ∈ grammar.element? n,
    choiceKey ∉ (scaffoldRule o d).children.keys

/-- The entries of a scaffold are rules with nothing but attributes and children. -/
theorem isSketch_outline (hregular : Grammar.Declarations.RegularElements grammar.elements)
    (hdt : dt ∈ grammar.documentTypes) (hname : dt ≠ choiceKey) (hnone : ListsNoChoice grammar o dt) :
    (ordered grammar (outline grammar o dt)).IsSketch := by
  obtain ⟨root, e, hroot, he, hxml⟩ := exists_root_element hregular hdt
  intro p hp
  rcases scaffoldElements_cases hroot he hxml (mem_ordered.1 hp) with ⟨-, hrule⟩ | ⟨hn, d, hd, hrule⟩
  · exact hrule ▸ isSketch_scaffoldRoot hname
  · exact hrule ▸ isSketch_scaffoldRule (hnone p.1 hn d hd)

/-! ## Scaffolds that can be written with comments -/

/-- The names that a scaffold lists are words, and the other texts that are written of the grammar do
not end the lines that they stand in. -/
structure LegibleScaffold (grammar : Model) (o : ScaffoldOptions) (dt : String) : Prop where
  type : IsWord dt
  declared : ∀ s ∈ grammar.documentTypes, InLine s.toList
  entries : ∀ p ∈ (scaffoldElements grammar o dt).pairs,
    IsWord p.1 ∧ ∀ d ∈ grammar.element? p.1, LegibleEntry d p.2

theorem LegibleScaffold.legible (h : LegibleScaffold grammar o dt)
    (hregular : Grammar.Declarations.RegularElements grammar.elements)
    (hdt : dt ∈ grammar.documentTypes) :
    Legible grammar (ordered grammar (outline grammar o dt)) where
  name := Yaml.isQuotable_append.2
    ⟨Yaml.isQuotable_append.2 ⟨by decide, h.type.inLine.isQuotable⟩, by decide⟩
  version := (by decide : IsQuotable "1.0")
  description := Yaml.isQuotable_append.2
    ⟨Yaml.isQuotable_append.2 ⟨by decide, h.type.inLine.isQuotable⟩, by decide⟩
  types := List.forall_mem_singleton.2 h.type
  declared := h.declared
  entries p hp := by
    obtain ⟨root, e, hroot, he, hxml⟩ := exists_root_element hregular hdt
    obtain ⟨hword, hentry⟩ := h.entries p (mem_ordered.1 hp)
    refine ⟨hword, ?_⟩
    rcases scaffoldElements_cases hroot he hxml (mem_ordered.1 hp) with
      ⟨hn, hrule⟩ | ⟨hn, d, hd, hrule⟩
    · refine ⟨e, hn ▸ he, hentry e (hn ▸ he), ?_, hrule ▸ legibleLabels_empty⟩
      rw [hrule]
      exact List.forall_mem_singleton.2 fun s hs => Option.some.inj hs ▸ by decide
    · obtain ⟨hchildren, halternatives⟩ := legibleLabels_scaffoldRule o d
      exact ⟨d, hd, hentry d hd, hrule ▸ hchildren, hrule ▸ halternatives⟩

/-- For every declared document type of a loaded grammar and all options there is a scaffold with a
text, and the text is read as the scaffold without errors, if no listed child has the name of the key
for alternatives, and if, with comments, the names are words and no other text ends its line, and
without, every literal block is recognised. -/
theorem scaffold_text_reads_back {root? : Option String} {source : String} {grammar : Model}
    {dt : String} (hload : Model.load root? source = .ok grammar)
    (hchoice : grammar.hasElement choiceKey = false) (hdt : dt ∈ grammar.documentTypes)
    (helement : grammar.hasElement dt = true) (o : ScaffoldOptions) :
    ∃ r text, scaffold grammar o dt = .ok r ∧ scaffoldText grammar o dt = .ok text ∧
      (ListsNoChoice grammar o dt → (o.comments = true → LegibleScaffold grammar o dt) →
        (o.comments = false → r.document.blocksSeen false false = true) →
          Profile.read text = ⟨some r, [], LineIndex.ofText text⟩) := by
  have hregular := Model.regular_of_load hload
  have hname : dt ≠ choiceKey := by
    rintro rfl
    exact absurd (helement.symm.trans hchoice) (by decide)
  have hscaffold := scaffold_eq_outline o hdt
  have htext : scaffoldText grammar o dt = .ok (if o.comments then
      commentedText grammar (ordered grammar (outline grammar o dt))
      else (ordered grammar (outline grammar o dt)).render) := by
    rw [scaffoldText, hscaffold]
  refine ⟨_, _, hscaffold, htext, fun hnone hlegible hseen => ?_⟩
  have hsketch := isSketch_outline hregular hdt hname hnone
  cases hcomments : o.comments with
  | true => exact read_commentedText ((hlegible hcomments).legible hregular hdt) hsketch
  | false =>
      exact Restriction.read_render (fun p hp => (hsketch p hp).toWritable) (hseen hcomments)

theorem scaffold_text_of_book : Model.load none bookSchema = .ok bookModel ∧
    bookModel.hasElement choiceKey = false ∧ "text" ∈ bookModel.documentTypes ∧
    bookModel.hasElement "text" = true ∧ ListsNoChoice bookModel .standard "text" ∧
    LegibleScaffold bookModel .standard "text" ∧
    ∃ r text, scaffold bookModel .standard "text" = .ok r ∧
      scaffoldText bookModel .standard "text" = .ok text ∧
        Profile.read text = ⟨some r, [], LineIndex.ofText text⟩ := by
  have hchoice : bookModel.hasElement choiceKey = false := by decide
  have hdt : "text" ∈ bookModel.documentTypes := by decide
  have helement : bookModel.hasElement "text" = true := by decide
  have hnone : ListsNoChoice bookModel .standard "text" := by
    unfold ListsNoChoice
    decide +kernel
  have hlegible : LegibleScaffold bookModel .standard "text" := by
    refine ⟨by decide, by decide, ?_⟩
    decide +kernel
  obtain ⟨r, text, hr, htext, hread⟩ :=
    scaffold_text_reads_back load_bookSchema hchoice hdt helement .standard
  exact ⟨load_bookSchema, hchoice, hdt, helement, hnone, hlegible, r, text, hr, htext,
    hread hnone (fun _ => hlegible) fun hoff => absurd hoff (by decide)⟩

/-- A sheet that holds an element with the name of a YAML word. -/
def sheetSchema : String :=
  "<xs:schema xmlns:xs='http://www.w3.org/2001/XMLSchema'>
  <xs:element name='null'/>
  <xs:element name='sheet'><xs:complexType><xs:sequence>
    <xs:element ref='null'/>
  </xs:sequence></xs:complexType></xs:element>
</xs:schema>"

def sheetModel : Model where
  elements := ⟨[
    ("null", plainElement "null" "Null" []),
    ("sheet", plainElement "sheet" "Sheet" [⟨"null", Grammar.Count.one, some Grammar.Count.one, []⟩])],
    by decide⟩
  enums := ∅
  root := some "sheet"

set_option maxRecDepth 10000 in
theorem load_sheetSchema : Model.load none sheetSchema = .ok sheetModel := by
  obtain ⟨cs, hcs, hm⟩ : ∃ cs, sheetSchema = String.ofList cs ∧
      Model.unsorted? cs = some sheetModel := ⟨_, rfl, by decide +kernel⟩
  rw [hcs]
  exact Model.load_eq_ok hm (by decide) List.Pairwise.nil

/-- The scaffold of the sheet, in its order. -/
def sheetScaffold : Restriction :=
  { outline sheetModel .standard "null" with
    elements := .ofList [("sheet", scaffoldRoot .standard "null" (plainElement "sheet" "Sheet" [])),
      ("null", .empty)] }

theorem ordered_sheetScaffold :
    ordered sheetModel (outline sheetModel .standard "null") = sheetScaffold := by
  have hedges : ((outline sheetModel .standard "null").elements.pairs.map fun p =>
      (p.1, p.2.childNames)) = [("null", []), ("sheet", ["null"])] := by decide +kernel
  have hnames : Text.nameSet ([("null", []), ("sheet", ["null"])].map Prod.fst) = ["null", "sheet"] :=
    Text.nameSet_of_sorted (by decide)
  have horder : profileOrder sheetModel (outline sheetModel .standard "null") = ["sheet", "null"] := by
    unfold profileOrder arrangement waitingOf
    rw [hedges, hnames]
    rfl
  rw [ordered, horder]
  decide +kernel

/-- The lines of its text. -/
def sheetLines : List String :=
  ["# Auto-generated AKN Application Profile", "# Document type: null",
    "# Generated from Akoma Ntoso 3.0 XSD", "", "profile:",
    "  name: \"Minimum viable profile (null)\"", "  version: \"1.0\"",
    "  description: \"Minimum viable application profile for the null document type.\"", "",
    "  # Valid document types: null", "  documentTypes:", "    - null", "",
    "  # Element restrictions (derived from XSD required-child chains)", "  elements:", "    sheet:",
    "      children:", "        null: \"1..1\" # required", "", "    null:", ""]

/-- What is read below the key `profile` of its text. -/
def sheetPairs : Yaml.Pairs :=
  [(.string "name", .string "Minimum viable profile (null)"), (.string "version", .string "1.0"),
    (.string "description",
      .string "Minimum viable application profile for the null document type."),
    (.string "documentTypes", .sequence [.null]),
    (.string "elements", .mapping [
      (.string "sheet", .mapping [(.string "children", .mapping [(.null, .string "1..1")])]),
      (.null, .null)])]

theorem toList_sheetText : (commentedText sheetModel sheetScaffold).toList =
    Yaml.linesText sheetLines := by
  have hlines : (Commentary.headLines sheetModel sheetScaffold ++
      sheetScaffold.elements.pairs.flatMap fun p => Commentary.elementLines sheetModel p.1 p.2) =
      sheetLines := by decide +kernel
  exact (Commentary.toList_joinLines _).trans (congrArg Yaml.linesText hlines)

theorem read_sheetLines {text : String} (h : text.toList = Yaml.linesText sheetLines) :
    Yaml.read text = .ok (.mapping [(.string "profile", .mapping sheetPairs)]) := by
  obtain ⟨lines, hlines, hread⟩ : ∃ lines, sheetLines = lines.map String.ofList ∧
      (Yaml.readChars (Yaml.fill lines)).toOption.any
        (fun v => v.exactly (.mapping [(.string "profile", .mapping sheetPairs)])) = true :=
    ⟨[_, _, _, _, _, _, _, _, _, _, _, _, _, _, _, _, _, _, _, _, _], rfl, by decide +kernel⟩
  refine Yaml.Value.read_eq_ok (String.ext ?_) hread
  rw [h, hlines, Yaml.linesText, List.map_map, String.toList_ofList]
  simp

theorem scaffold_sheetModel : scaffold sheetModel .standard "null" = .ok sheetScaffold := by
  have hscaffold := scaffold_eq_outline .standard
    (by decide : "null" ∈ sheetModel.documentTypes)
  rwa [ordered_sheetScaffold] at hscaffold

theorem scaffoldText_sheetModel :
    scaffoldText sheetModel .standard "null" = .ok (commentedText sheetModel sheetScaffold) := by
  rw [scaffoldText, scaffold_sheetModel]
  dsimp only
  rw [if_pos (by rfl)]

/-- In comments the names are not quoted, so that a name which is a word of YAML is not read as a
name, and the text has no profile. -/
theorem scaffold_text_unreadable : ∃ m, Model.load none sheetSchema = .ok m ∧
    m.hasElement choiceKey = false ∧ "null" ∈ m.documentTypes ∧ m.hasElement "null" = true ∧
    ∃ r text, scaffold m .standard "null" = .ok r ∧ scaffoldText m .standard "null" = .ok text ∧
      (Profile.read text).profile = none ∧ (Profile.read text).errors ≠ [] := by
  have hmisfits : Form.ofProfile.misfits "profile" (.mapping sheetPairs) ≠ [] := by decide +kernel
  exact ⟨sheetModel, load_sheetSchema, by decide, by decide, by decide, sheetScaffold, _,
    scaffold_sheetModel, scaffoldText_sheetModel, rejects_of_misfits (read_sheetLines toList_sheetText) rfl hmisfits⟩

end Cascade

end GrammarProfile
