import Mathlib.Data.List.Find
import GrammarProfile.Proofs.TakenModels

/-!
The root of a schema that names none is the first global element that nothing refers to. What content
models declare in passing under the name of a global element is not noted. So it does not keep the
global element from being the root, though it makes the root a child.
-/
namespace GrammarProfile.Grammar

open GrammarProfile.Xml (Tag Node)

variable {document content : List Node} {d : Declarations} {s : Findings}

namespace Declarations

/-- The names that elements of a document refer to. -/
def referredNames (document : List Node) : List String :=
  ((Node.tagsOf document).filter (isSchema · "element")).filterMap fun t =>
    (t.attribute? "ref").map localName

theorem mem_referredNames {name : String} : name ∈ referredNames document ↔ Referred document name := by
  unfold referredNames Referred
  simp only [List.mem_filterMap, List.mem_filter, and_assoc]

/-- No global element is noted as declared in passing, so what is noted keeps none of them from being
the root. -/
theorem Traced.inferRoot (h : Traced document d s) (content : List Node) :
    d.inferRoot content s.locals =
      d.elements.keys.find? fun name => !(referredNames content).contains name := by
  have hnew : ∀ name ∈ d.elements.keys, s.locals.contains name = false := by
    intro name hname
    rw [← Bool.not_eq_true]
    intro hlocal
    obtain ⟨e, he⟩ := OrderedMap.exists_of_mem_keys (OrderedMap.contains_iff.1 hlocal)
    have hnot := (h.locals (name, e) he).notGlobal
    rw [OrderedMap.contains_iff.2 hname] at hnot
    cases hnot
  unfold Declarations.inferRoot
  dsimp only
  refine List.find?_congr fun name hname => ?_
  rw [hnew name hname, Bool.not_false, Bool.and_true]
  rfl

/-- Without a reference, a content model mentions exactly the names that it declares in passing. -/
theorem mem_mentions_iff_declares (content : List Node) (h : Within document content) {name : String}
    (hname : ¬Referred document name) :
    name ∈ ((ofContent document).contentModel content).mentions ↔
      ∃ e, (name, e) ∈ (ofContent document).contentElements content := by
  refine ⟨fun hmem => ?_, fun ⟨e, he⟩ => mentions_contentElements he⟩
  have hdeclared := mem_mentions_contentModel (inside_ofContent document) h.tags hmem
  obtain ⟨⟨_, e⟩, he, rfl⟩ := List.mem_map.1 (hdeclared.resolve_right hname)
  exact ⟨e, he⟩

/-- A content model that the type of an element takes up declares a name in passing. -/
def DeclaresInPassing (d : Declarations) (e : Xml.Element) (name : String) : Prop :=
  ∃ model, d.Shapes e model ∧ ∃ f, (name, f) ∈ d.contentElements model

theorem Origin.shapes_within (hd : d.Grounded document) {name : String} {e : Xml.Element}
    (h : Origin document d name e) {model : List Node} (hmodel : d.Shapes e model) :
    Within document model := by
  obtain ⟨content, htype, htakes⟩ := hmodel
  refine htakes.within hd ?_
  unfold typeContent? at htype
  split at htype
  · obtain ⟨c, hc, rfl⟩ := Option.map_eq_some_iff.1 htype
    exact hd.complexTypes _ c hc
  · cases htype
  · obtain ⟨c, hc, rfl⟩ := Option.map_eq_some_iff.1 htype
    exact (h.within hd).schemaElement? hc

/-- An element has a child that nothing refers to only if it is declared in passing there. -/
theorem Described.child_of_unreferred {name n : String} {e : Xml.Element} {v : Element}
    (h : (ofContent document).Described e v) (he : Origin document (ofContent document) n e)
    (hname : ¬Referred document name) :
    (name ∈ v.children.map Child.name → (ofContent document).DeclaresInPassing e name) ∧
      (Acyclic (ofContent document).Derives → (ofContent document).DeclaresInPassing e name →
        name ∈ v.children.map Child.name) := by
  have hwithin : ∀ model, (ofContent document).Shapes e model → Within document model :=
    fun model hmodel => he.shapes_within (grounded_ofContent document) hmodel
  refine ⟨fun hchild => ?_, fun hacyclic ⟨model, hmodel, hdeclares⟩ => ?_⟩
  · obtain ⟨model, hmodel, hmem⟩ := h.sound name hchild
    exact ⟨model, hmodel, (mem_mentions_iff_declares model (hwithin model hmodel) hname).1 hmem⟩
  · exact h.complete hacyclic model hmodel
      ((mem_mentions_iff_declares model (hwithin model hmodel) hname).2 hdeclares)

end Declarations

namespace Model

/-- A schema that is loaded with no root given has its elements as they are found, and its root from
the same findings. -/
theorem parts_of_load {text : String} {m : Model} (h : load none text = .ok m) :
    ∃ tag content, Xml.readDocument text.toList = .ok (.element tag content) ∧
      m.elements = (((Declarations.ofContent content).resolveAll content).run .none).1.1.sorted ∧
      m.root = (Declarations.ofContent content).inferRoot content
        (((Declarations.ofContent content).resolveAll content).run .none).2.locals := by
  unfold load at h
  split at h
  · cases h
  · next document hread =>
    unfold ofDocument at h
    split at h
    · cases h
    · cases h
    · next tag content =>
      refine ⟨tag, content, hread, ?_⟩
      split at h
      · cases h
      · cases h
        exact ⟨rfl, rfl⟩

/-- The root that is inferred is a child of an element only where a content model that the type of
the element takes up declares an element of this name in passing, and of all such elements if no type
derives from itself. Without a declaration of its name inside others the root is nowhere a child. -/
theorem inferred_root_child {text r : String} {m : Model} (hload : load none text = .ok m)
    (hroot : m.root = some r) :
    ∃ tag content, Xml.readDocument text.toList = .ok (.element tag content) ∧
      (∀ n v, m.element? n = some v →
        ∃ e, Declarations.Origin content (.ofContent content) n e ∧
          (r ∈ v.children.map Child.name →
            (Declarations.ofContent content).DeclaresInPassing e r) ∧
          (Acyclic (Declarations.ofContent content).Derives →
            (Declarations.ofContent content).DeclaresInPassing e r →
              r ∈ v.children.map Child.name)) ∧
      ((∀ e, ¬DeclaredInside content r e) → ∀ n, r ∉ m.childNames n) := by
  obtain ⟨tag, content, hread, helements, hinferred⟩ := parts_of_load hload
  have hd := Declarations.grounded_ofContent content
  obtain ⟨hdescribed, htraced⟩ : _ ∧ _ := Declarations.traced_resolveAll hd content
  rw [htraced.inferRoot, hroot] at hinferred
  have hunreferred : ¬Referred content r := by
    rw [← Declarations.mem_referredNames]
    simpa using List.find?_some hinferred.symm
  have horigin : ∀ n v, m.element? n = some v →
      ∃ e, Declarations.Origin content (.ofContent content) n e ∧
        (Declarations.ofContent content).Described e v := by
    intro n v hv
    have hp : (n, v) ∈ m.elements.pairs := OrderedMap.get?_eq_some_iff.1 hv
    rw [helements] at hp
    exact hdescribed (n, v) (List.mem_mergeSort.1 hp)
  refine ⟨tag, content, hread, fun n v hv => ?_, fun hnowhere n hn => ?_⟩
  · obtain ⟨e, he, hv⟩ := horigin n v hv
    exact ⟨e, he, hv.child_of_unreferred he hunreferred⟩
  · unfold childNames children at hn
    split at hn
    · next v hv =>
      obtain ⟨e, he, hv⟩ := horigin n v hv
      obtain ⟨model, hmodel, f, hf⟩ := (hv.child_of_unreferred he hunreferred).1 hn
      exact hnowhere f
        (Declarations.declaredInside_contentElements hd (he.shapes_within hd hmodel) hf)
    · exact absurd hn List.not_mem_nil

/-- A book with a text, which declares in passing a book of its own, and a shelf. -/
def nestedSchema : String :=
  "<xs:schema xmlns:xs='http://www.w3.org/2001/XMLSchema'>
  <xs:element name='book'><xs:complexType><xs:sequence>
    <xs:element ref='text'/>
  </xs:sequence></xs:complexType></xs:element>
  <xs:element name='shelf'/>
  <xs:element name='text'><xs:complexType><xs:sequence>
    <xs:element name='book'/>
  </xs:sequence></xs:complexType></xs:element>
</xs:schema>"

def nestedModel : Model where
  elements := ⟨[
    ("book", ⟨"book", "Book", none, [], [⟨"text", .one, some .one, []⟩], [], [], ""⟩),
    ("shelf", ⟨"shelf", "Shelf", none, [], [], [], [], ""⟩),
    ("text", ⟨"text", "Text", none, [], [⟨"book", .one, some .one, []⟩], [], [], ""⟩)], by decide⟩
  enums := ∅
  root := some "book"

set_option maxRecDepth 10000 in
theorem load_nestedSchema : load none nestedSchema = .ok nestedModel := by
  obtain ⟨cs, hcs, hm⟩ : ∃ cs, nestedSchema = String.ofList cs ∧
      unsorted? cs = some nestedModel := ⟨_, rfl, by decide +kernel⟩
  rw [hcs]
  exact load_eq_ok hm (by decide) List.Pairwise.nil

/-- The root is a child of the text, whose type declares it in passing. -/
theorem nested_root_declared : load none nestedSchema = .ok nestedModel ∧
    nestedModel.root = some "book" ∧ ∃ tag content e,
      Xml.readDocument nestedSchema.toList = .ok (.element tag content) ∧
        Declarations.Origin content (.ofContent content) "text" e ∧
          (Declarations.ofContent content).DeclaresInPassing e "book" := by
  obtain ⟨tag, content, hread, hchild, -⟩ := inferred_root_child load_nestedSchema rfl
  obtain ⟨e, he, hdeclares, -⟩ := hchild "text" _ rfl
  exact ⟨load_nestedSchema, rfl, tag, content, e, hread, he, hdeclares (by decide)⟩

theorem nested_root_not_on_top : load none nestedSchema = .ok nestedModel ∧
    nestedModel.root = some "book" ∧ "book" ∈ nestedModel.childNames "text" :=
  ⟨load_nestedSchema, rfl, by decide⟩

end Model

end GrammarProfile.Grammar
