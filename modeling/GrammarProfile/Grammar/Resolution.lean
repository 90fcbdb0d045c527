import GrammarProfile.Grammar.Content
import GrammarProfile.Grammar.Facets
import GrammarProfile.Grammar.Model
import GrammarProfile.Text.Capital

/-!
Types and elements with all that they inherit. What has been worked out for a named type is kept
and used again.
-/
namespace GrammarProfile.Grammar

open GrammarProfile.Xml (Tag Node)

/-- A complex type together with what it derives from. -/
structure ResolvedType where
  content : Particle
  attributes : OrderedMap Attribute
  choiceGroups : List ChoiceGroup
  /-- Nearest first. -/
  baseTypes : List String
  doc : String
  deriving Inhabited

def ResolvedType.empty : ResolvedType := ⟨.empty, ∅, [], [], ""⟩

/-- What has been found out so far about a schema. -/
structure Findings where
  types : OrderedMap ResolvedType
  facets : Facets.Known
  /-- The elements declared inside content models, the first of each name. -/
  locals : OrderedMap Xml.Element

def Findings.none : Findings := ⟨∅, ∅, ∅⟩

/-- A step of resolving a schema. -/
abbrev Resolving := StateM Findings

/-- What an attribute element says: an attribute, or that there is none of this name. -/
inductive AttributeRule where
  | declared (a : Attribute)
  | prohibited (name : String)

namespace Declarations

def lookupFacets (d : Declarations) (name : String) : Resolving Facets := do
  let s ← get
  let (f, known) := (d.simpleFacets name).run s.facets
  set { s with facets := known }
  pure f

def inlineFacets (d : Declarations) (content : List Node) : Resolving Facets := do
  let s ← get
  let (f, known) := (Facets.ofInlineType d.simpleFacets content).run s.facets
  set { s with facets := known }
  pure f

/-- The rule that an attribute element states; a reference takes its type from the global
declaration. -/
def attributeRule? (d : Declarations) (e : Xml.Element) : Resolving (Option AttributeRule) :=
  let reference := e.tag.attribute? "ref"
  let name? :=
    match reference with
    | some r => some (localName r)
    | none => e.tag.attribute? "name"
  match name? with
  | none => pure none
  | some name =>
    let use := (e.tag.attribute? "use").getD "optional"
    if use == "prohibited" then pure (some (.prohibited name))
    else do
      let decl := (reference.bind fun _ => d.attributes.get? name).getD e
      let (typeName, facets) ←
        match (decl.tag.attribute? "type").map (resolveTypeName decl.tag) with
        | some (.named t) => do pure (some t, ← d.lookupFacets t)
        | some (.builtin t) => pure (some t, Facets.none)
        | none => do pure (none, ← d.inlineFacets decl.content)
      let default? :=
        match e.tag.attribute? "default" with
        | some v => some v
        | none => decl.tag.attribute? "default"
      pure (some (.declared
        ⟨name, use == "required", typeName, facets.enums, facets.pattern, default?⟩))

/-- The attribute elements under a node, with those of the groups referred to in their place. A
group counts once; `visited` names those already taken in. -/
def attributeElements (d : Declarations) : Nat → List String → List Xml.Element →
    List Xml.Element × List String
  | 0, visited, _ => ([], visited)
  | fuel + 1, visited, elements =>
    elements.foldl
      (fun (found, visited) e =>
        if e.tag.name == "attribute" then (found ++ [e], visited)
        else if e.tag.name == "attributeGroup" then
          match (e.tag.attribute? "ref").map localName with
          | none => (found, visited)
          | some name =>
            match d.attributeGroups.get? name with
            | none => (found, visited)
            | some group =>
              if visited.contains name then (found, visited)
              else
                let (inner, visited) :=
                  attributeElements d fuel (name :: visited) (schemaElements group.content)
                (found ++ inner, visited)
        else (found, visited))
      ([], visited)

/-- Adds the attributes declared under a node to those inherited, in order. -/
def applyAttributes (d : Declarations) (content : List Node)
    (inherited : OrderedMap Attribute) : Resolving (OrderedMap Attribute) := do
  let (elements, _) :=
    d.attributeElements (d.attributeGroups.size + 1) [] (schemaElements content)
  elements.foldlM
    (fun attributes e => do
      match ← d.attributeRule? e with
      | some (.declared a) => pure (attributes.insert a.name a)
      | some (.prohibited name) => pure (attributes.erase name)
      | none => pure attributes)
    inherited

/-- The content model under a node; the elements it declares are noted. -/
def resolveContent (d : Declarations) (content : List Node) : Resolving Particle := do
  modify fun s =>
    { s with
      locals := (d.contentElements content).foldl
        (fun known (name, e) =>
          if d.elements.contains name || known.contains name then known else known.insert name e)
        s.locals }
  pure (d.contentModel content)

/-- A complex type; `label` begins the identifiers of its choice groups. -/
def resolveComplex (d : Declarations) (named : String → Resolving ResolvedType)
    (content : List Node) (label : String) : Resolving ResolvedType := do
  let doc := documentation content
  let derivation :=
    match schemaElement? content "complexContent" with
    | some c => some (c, false)
    | none => (schemaElement? content "simpleContent").map (·, true)
  match derivation with
  | none => do
    let model ← d.resolveContent content
    let attributes ← d.applyAttributes content ∅
    pure ⟨model, attributes, Grammar.choiceGroups label model 0, [], doc⟩
  | some (wrapper, simple) =>
    match (schemaElements wrapper.content).find? fun e =>
        e.tag.name == "extension" || e.tag.name == "restriction" with
    | none => pure { ResolvedType.empty with doc := doc }
    | some derive => do
      let (base, baseTypes) ←
        match (derive.tag.attribute? "base").map (resolveTypeName derive.tag) with
        | some (.named b) =>
          if d.complexTypes.contains b then do
            let base ← named b
            pure (base, b :: base.baseTypes)
          else pure (ResolvedType.empty, [])
        | _ => pure (ResolvedType.empty, [])
      let attributes ← d.applyAttributes derive.content base.attributes
      if simple then pure ⟨.empty, attributes, [], baseTypes, doc⟩
      else do
        let own ← d.resolveContent derive.content
        let groups := Grammar.choiceGroups label own 0
        let doc := if doc.isEmpty then base.doc else doc
        if derive.tag.name == "extension" then
          pure ⟨.sequence .once [base.content, own], attributes, groups ++ base.choiceGroups,
            baseTypes, doc⟩
        else pure ⟨own, attributes, groups, baseTypes, doc⟩

/-- A named complex type. A type that derives from itself finds nothing there; `opened` names the
types around it. -/
def resolveType (d : Declarations) : Nat → List String → String → Resolving ResolvedType
  | 0, _, _ => pure .empty
  | fuel + 1, opened, name => do
    match (← get).types.get? name with
    | some known => pure known
    | none =>
      match d.complexTypes.get? name with
      | none => pure .empty
      | some e =>
        if opened.contains name then pure .empty
        else do
          let resolved ←
            d.resolveComplex (resolveType d fuel (name :: opened)) e.content name
          modify fun s => { s with types := s.types.insert name resolved }
          pure resolved

def complexType (d : Declarations) (name : String) : Resolving ResolvedType :=
  d.resolveType (d.complexTypes.size + 1) [] name

/-- The element that a declaration describes. -/
def resolveElement (d : Declarations) (name : String) (e : Xml.Element) : Resolving Element := do
  let (typeName, resolved) ←
    match (e.tag.attribute? "type").map (resolveTypeName e.tag) with
    | some t =>
      match t with
      | .named n =>
        if d.complexTypes.contains n then do pure (some n, ← d.complexType n)
        else pure (some n, ResolvedType.empty)
      | .builtin n => pure (some n, ResolvedType.empty)
    | none =>
      match schemaElement? e.content "complexType" with
      | some inline => do pure (none, ← d.resolveComplex d.complexType inline.content name)
      | none => pure (none, ResolvedType.empty)
  let doc := documentation e.content
  pure {
    xmlName := name
    displayName := String.ofList (Text.capitalized name.toList)
    typeName := typeName
    baseTypes := resolved.baseTypes
    children := Child.ofContent resolved.choiceGroups resolved.content
    attributes := resolved.attributes.values
    choiceGroups := resolved.choiceGroups
    doc := if doc.isEmpty then resolved.doc else doc }

/-- Adds the elements that given declarations describe. -/
def resolveElements (d : Declarations) (declared : List (String × Xml.Element))
    (done : OrderedMap Element) : Resolving (OrderedMap Element) :=
  declared.foldlM
    (fun done (name, e) => do pure (done.insert name (← d.resolveElement name e))) done

/-- Adds the elements declared inside content models, which may declare further ones. -/
def resolveLocals (d : Declarations) : Nat → OrderedMap Element → Resolving (OrderedMap Element)
  | 0, done => pure done
  | fuel + 1, done => do
    match (← get).locals.pairs.filter fun p => !done.contains p.1 with
    | [] => pure done
    | pending => do resolveLocals d fuel (← d.resolveElements pending done)

/-- The enumerations of the named simple types. -/
def resolveEnums (d : Declarations) : Resolving (OrderedMap (List String)) :=
  d.simpleTypes.keys.foldlM
    (fun enums name => do
      match (← d.lookupFacets name).enums with
      | some values => pure (enums.insert name values)
      | none => pure enums)
    ∅

end Declarations

end GrammarProfile.Grammar
