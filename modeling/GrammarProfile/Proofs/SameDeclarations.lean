import GrammarProfile.Proofs.LocalDeclarations

/-!
Resolving asks declarations for what they are called only: schemas with the same declarations, in
whatever order, resolve each type and each element in the same way.
-/
namespace GrammarProfile.Grammar

open GrammarProfile.Xml (Tag Node)

namespace Declarations

/-- The same declarations of each kind, in whatever order. -/
def Same (d d' : Declarations) : Prop := ∀ kind, (d.ofKind kind).Agrees (d'.ofKind kind)

variable {d d' : Declarations}

namespace Same

section

variable (h : Same d d')
include h

theorem complexTypes (name : String) : d.complexTypes.get? name = d'.complexTypes.get? name :=
  h .complexType name

theorem simpleTypes (name : String) : d.simpleTypes.get? name = d'.simpleTypes.get? name :=
  h .simpleType name

theorem groups (name : String) : d.groups.get? name = d'.groups.get? name := h .group name

theorem attributeGroups (name : String) :
    d.attributeGroups.get? name = d'.attributeGroups.get? name := h .attributeGroup name

theorem attributes (name : String) : d.attributes.get? name = d'.attributes.get? name :=
  h .attribute name

theorem elements (name : String) : d.elements.get? name = d'.elements.get? name := h .element name

theorem contains_complexTypes (name : String) :
    d.complexTypes.contains name = d'.complexTypes.contains name :=
  OrderedMap.Agrees.contains_eq (h .complexType) name

theorem contains_elements (name : String) : d.elements.contains name = d'.elements.contains name :=
  OrderedMap.Agrees.contains_eq (h .element) name

theorem size_eq (kind : Kind) : (d.ofKind kind).size = (d'.ofKind kind).size :=
  OrderedMap.Agrees.size_eq (h kind)

theorem facetsOf (fuel : Nat) : d.facetsOf fuel = d'.facetsOf fuel := by
  induction fuel with
  | zero => rfl
  | succ fuel ih =>
      funext opened name
      simp only [Declarations.facetsOf, h.simpleTypes, ih]

theorem simpleFacets : d.simpleFacets = d'.simpleFacets := by
  funext name
  have hsize : d.simpleTypes.size = d'.simpleTypes.size := h.size_eq .simpleType
  rw [Declarations.simpleFacets, Declarations.simpleFacets, h.facetsOf, hsize]

theorem lookupFacets : d.lookupFacets = d'.lookupFacets := by
  funext name
  simp only [Declarations.lookupFacets, h.simpleFacets]

theorem inlineFacets : d.inlineFacets = d'.inlineFacets := by
  funext content
  simp only [Declarations.inlineFacets, h.simpleFacets]

theorem attributeRule? : d.attributeRule? = d'.attributeRule? := by
  funext e
  simp only [Declarations.attributeRule?, h.lookupFacets, h.inlineFacets, h.attributes]

theorem attributeElements (fuel : Nat) : d.attributeElements fuel = d'.attributeElements fuel := by
  induction fuel with
  | zero => rfl
  | succ fuel ih =>
      funext visited elements
      simp only [Declarations.attributeElements, h.attributeGroups, ih]

theorem applyAttributes : d.applyAttributes = d'.applyAttributes := by
  funext content inherited
  have hsize : d.attributeGroups.size = d'.attributeGroups.size := h.size_eq .attributeGroup
  simp only [Declarations.applyAttributes, h.attributeElements, h.attributeRule?, hsize]

theorem groupContent (fuel : Nat) : d.groupContent fuel = d'.groupContent fuel := by
  induction fuel with
  | zero => rfl
  | succ fuel ih =>
      funext opened name
      simp only [Declarations.groupContent, h.groups, ih]

theorem groupElements (fuel : Nat) : d.groupElements fuel = d'.groupElements fuel := by
  induction fuel with
  | zero => rfl
  | succ fuel ih =>
      funext opened name
      simp only [Declarations.groupElements, h.groups, ih]

theorem contentModel : d.contentModel = d'.contentModel := by
  funext content
  have hsize : d.groups.size = d'.groups.size := h.size_eq .group
  simp only [Declarations.contentModel, h.groupContent, hsize]

theorem contentElements : d.contentElements = d'.contentElements := by
  funext content
  have hsize : d.groups.size = d'.groups.size := h.size_eq .group
  simp only [Declarations.contentElements, h.groupElements, hsize]

theorem resolveContent : d.resolveContent = d'.resolveContent := by
  funext content
  simp only [Declarations.resolveContent, h.contentElements, h.contentModel, h.contains_elements]

theorem resolveComplex : d.resolveComplex = d'.resolveComplex := by
  funext named content label
  simp only [Declarations.resolveComplex, h.resolveContent, h.applyAttributes,
    h.contains_complexTypes]

theorem resolveType (fuel : Nat) : d.resolveType fuel = d'.resolveType fuel := by
  induction fuel with
  | zero => rfl
  | succ fuel ih =>
      funext opened name
      simp only [Declarations.resolveType, h.complexTypes, h.resolveComplex, ih]

theorem complexType : d.complexType = d'.complexType := by
  funext name
  have hsize : d.complexTypes.size = d'.complexTypes.size := h.size_eq .complexType
  rw [Declarations.complexType, Declarations.complexType, h.resolveType, hsize]

theorem resolveElement : d.resolveElement = d'.resolveElement := by
  funext name e
  simp only [Declarations.resolveElement, h.complexType, h.resolveComplex, h.contains_complexTypes]

theorem resolveElements : d.resolveElements = d'.resolveElements := by
  funext declared done
  simp only [Declarations.resolveElements, h.resolveElement]

theorem resolveLocals (fuel : Nat) : d.resolveLocals fuel = d'.resolveLocals fuel := by
  induction fuel with
  | zero => rfl
  | succ fuel ih =>
      funext done
      simp only [Declarations.resolveLocals, h.resolveElements, ih]

end

end Same

end Declarations

/-! ## Documents with their declarations in another order -/

theorem elements_perm {nodes nodes' : List Node} (h : nodes.Perm nodes') :
    (Node.elements nodes).Perm (Node.elements nodes') := by
  have hcons : ∀ (n : Node) (rest : List Node),
      Node.elements (n :: rest) = Node.elements [n] ++ Node.elements rest := by
    intro n rest
    cases n <;> rfl
  induction h with
  | nil => exact .refl _
  | @cons n rest rest' _ ih =>
      rw [hcons n rest, hcons n rest']
      exact ih.append_left _
  | swap n m rest =>
      rw [hcons m (n :: rest), hcons n (m :: rest), hcons n rest, hcons m rest, ← List.append_assoc,
        ← List.append_assoc]
      exact List.perm_append_comm.append_right _
  | trans _ _ ih ih' => exact ih.trans ih'

theorem tagsOf_perm {nodes nodes' : List Node} (h : nodes.Perm nodes') :
    (Node.tagsOf nodes).Perm (Node.tagsOf nodes') := by
  induction h with
  | nil => exact .refl _
  | cons n _ ih => exact ih.append_left _
  | swap n m rest =>
      rw [Node.tagsOf, Node.tagsOf, Node.tagsOf, Node.tagsOf, ← List.append_assoc, ← List.append_assoc]
      exact List.perm_append_comm.append_right _
  | trans _ _ ih ih' => exact ih.trans ih'

variable {content content' : List Node}

theorem declaredAtTop_perm (h : content.Perm content') {kind : Kind} {name : String}
    {e : Xml.Element} : DeclaredAtTop content kind name e ↔ DeclaredAtTop content' kind name e := by
  have hmem : e ∈ schemaElements content ↔ e ∈ schemaElements content' :=
    ((elements_perm h).filter _).mem_iff
  exact ⟨fun he => ⟨hmem.1 he.top, he.kind, he.name⟩, fun he => ⟨hmem.2 he.top, he.kind, he.name⟩⟩

/-- Schemas whose declarations stand in another order declare the same. -/
theorem same_ofContent (h : content.Perm content') (hdistinct : DistinctTop content) :
    Declarations.Same (.ofContent content) (.ofContent content') := by
  have hdistinct' : DistinctTop content' := fun kind name e f he hf =>
    hdistinct kind name e f ((declaredAtTop_perm h).2 he) ((declaredAtTop_perm h).2 hf)
  intro kind name
  refine Option.ext fun e => ?_
  rw [Declarations.get?_ofContent hdistinct, Declarations.get?_ofContent hdistinct',
    declaredAtTop_perm h]

end GrammarProfile.Grammar
