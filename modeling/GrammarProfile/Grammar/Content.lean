import GrammarProfile.Grammar.Choice
import GrammarProfile.Grammar.Declarations
import GrammarProfile.Text.Number

/-!
The content models that schema elements write, and the elements that they declare in passing.
-/
namespace GrammarProfile.Grammar

open GrammarProfile.Xml (Tag Node)

/-- A count as an attribute writes it. -/
def readCount? (cs : List Char) : Option Count := (Text.count? cs).bind Count.ofNat?

/-- The bounds that a tag writes; what is missing or no number counts as one. -/
def occursOf (tag : Tag) : Occurs :=
  let min := ((tag.attribute? "minOccurs").bind fun v => readCount? (Text.trim v.toList)).getD .one
  match tag.attribute? "maxOccurs" with
  | none => ⟨min, some .one⟩
  | some v =>
    let v := Text.trim v.toList
    if String.ofList v == "unbounded" then ⟨min, none⟩
    else ⟨min, some ((readCount? v).getD .one)⟩

mutual

/-- The particle that a node writes; `group` gives the content of a named group. -/
def particle? (group : String → Particle) : Node → Option Particle
  | .text _ => none
  | .remark => none
  | .element tag content =>
    if !inSchema tag then none
    else
      match tag.name with
      | "element" =>
        match tag.attribute? "ref", tag.attribute? "name" with
        | some reference, _ => some (.element (localName reference) (occursOf tag))
        | none, some name => some (.element name (occursOf tag))
        | none, none => none
      | "sequence" => some (.sequence (occursOf tag) (particles group content))
      | "all" => some (.sequence (occursOf tag) (particles group content))
      | "choice" => some (.choice (occursOf tag) (particles group content))
      | "group" =>
        match tag.attribute? "ref" with
        | some reference =>
          some (.group (localName reference) (occursOf tag) (group (localName reference)))
        | none => none
      | "any" => some .any
      | _ => none

def particles (group : String → Particle) : List Node → List Particle
  | [] => []
  | n :: rest =>
    match particle? group n with
    | some p => p :: particles group rest
    | none => particles group rest

end

mutual

/-- The elements that a node declares in its content model, in document order. -/
def localElements (group : String → List (String × Xml.Element)) :
    Node → List (String × Xml.Element)
  | .text _ => []
  | .remark => []
  | .element tag content =>
    if !inSchema tag then []
    else
      match tag.name with
      | "element" =>
        match tag.attribute? "ref", tag.attribute? "name" with
        | none, some name => [(name, ⟨tag, content⟩)]
        | _, _ => []
      | "sequence" => localElementsOf group content
      | "all" => localElementsOf group content
      | "choice" => localElementsOf group content
      | "group" =>
        match tag.attribute? "ref" with
        | some reference => group (localName reference)
        | none => []
      | _ => []

def localElementsOf (group : String → List (String × Xml.Element)) :
    List Node → List (String × Xml.Element)
  | [] => []
  | n :: rest => localElements group n ++ localElementsOf group rest

end

/-- The compositor directly under a type, a derivation or a group. -/
def compositor? (content : List Node) : Option Node :=
  ((schemaElements content).find? fun e =>
    ["sequence", "choice", "all", "group"].contains e.tag.name).map fun e =>
      .element e.tag e.content

namespace Declarations

/-- The content of a named group. A group inside itself, and one that is not declared, is empty;
`opened` names the groups around it. -/
def groupContent (d : Declarations) : Nat → List String → String → Particle
  | 0, _, _ => .empty
  | fuel + 1, opened, name =>
    match d.groups.get? name with
    | none => .empty
    | some e =>
      if opened.contains name then .empty
      else
        ((compositor? e.content).bind (particle? (groupContent d fuel (name :: opened)))).getD
          .empty

def groupElements (d : Declarations) : Nat → List String → String → List (String × Xml.Element)
  | 0, _, _ => []
  | fuel + 1, opened, name =>
    match d.groups.get? name with
    | none => []
    | some e =>
      if opened.contains name then []
      else
        match compositor? e.content with
        | some n => localElements (groupElements d fuel (name :: opened)) n
        | none => []

/-- The content model written under a type or a derivation. -/
def contentModel (d : Declarations) (content : List Node) : Particle :=
  ((compositor? content).bind (particle? (d.groupContent (d.groups.size + 1) []))).getD .empty

/-- The elements declared in the content model under a type or a derivation. -/
def contentElements (d : Declarations) (content : List Node) : List (String × Xml.Element) :=
  match compositor? content with
  | some n => localElements (d.groupElements (d.groups.size + 1) []) n
  | none => []

end Declarations

end GrammarProfile.Grammar
