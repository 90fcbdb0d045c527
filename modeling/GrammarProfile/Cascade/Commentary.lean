import GrammarProfile.Cascade.Scaffold
import GrammarProfile.Profile.Writer
import GrammarProfile.Text.Json

/-!
The text of a scaffold, with comments that say what the grammar knows about its parts.
-/
namespace GrammarProfile.Cascade

open GrammarProfile.Grammar (Attribute Element Model)
open GrammarProfile.Profile (AttributeRule ElementRule Restriction choiceKey)

namespace Commentary

/-- How many characters of a documentation are quoted. -/
def quotedDoc : Nat := 100

/-- How many optional children are named. -/
def namedChildren : Nat := 15

def shortened (doc : String) : String :=
  if quotedDoc < doc.length then String.ofList (doc.toList.take quotedDoc) ++ "..." else doc

def documentTypeLines (grammar : Model) (documentTypes : List String) : List String :=
  if documentTypes.isEmpty then []
  else
    ["  # Valid document types: " ++ Text.commaSeparated grammar.documentTypes,
      "  documentTypes:"] ++ documentTypes.map (fun dt => "    - " ++ dt) ++ [""]

def headLines (grammar : Model) (r : Restriction) : List String :=
  ["# Auto-generated AKN Application Profile",
    "# Document type: " ++ r.documentTypes.headD "generic",
    "# Generated from Akoma Ntoso 3.0 XSD", "", "profile:",
    "  name: " ++ Text.jsonString r.name, "  version: " ++ Text.jsonString r.version,
    "  description: " ++ Text.jsonString r.description, ""] ++
    documentTypeLines grammar r.documentTypes ++
    ["  # Element restrictions (derived from XSD required-child chains)", "  elements:"]

/-- What the grammar says about an attribute. -/
def attributeRemark (a : Attribute) : String :=
  let facts :=
    [if a.required then "XSD-required" else "optional in XSD"] ++
      (a.pattern.map fun p => "pattern: " ++ p.source).toList ++
      (a.typeName.map fun t => "type: " ++ t).toList
  "  # " ++ Text.commaSeparated facts

def attributeLines (e : Element) (name : String) (rule : AttributeRule) : List String :=
  ["        " ++ name ++ ":" ++ ((e.attribute? name).map attributeRemark).getD ""] ++
    (if rule.required then ["          required: true"] else []) ++
    (if rule.values.isEmpty then []
    else
      ["          values: [" ++ Text.commaSeparated (rule.values.map Text.jsonString) ++ "]"])

def attributesLines (e : Element) (rule : ElementRule) : List String :=
  if rule.attributes.isEmpty then []
  else "      attributes:" :: rule.attributes.pairs.flatMap fun p => attributeLines e p.1 p.2

/-- The optional children that the rule does not list. -/
def availableLines (e : Element) (rule : ElementRule) : List String :=
  let available := ((e.children.filter fun c => !c.required).map (·.name)).filter fun c =>
    !rule.children.contains c && !rule.alternatives.contains c
  if available.isEmpty then []
  else
    ["      # Also available: " ++ Text.commaSeparated (available.take namedChildren) ++
      if namedChildren < available.length then "..." else ""]

def childLine (e : Element) (pad : String) (name : String) (label : Option String) : String :=
  let remark := if (e.child? name).any (·.required) then " # required" else ""
  match label with
  | some l => pad ++ name ++ ": " ++ Text.jsonString l ++ remark
  | none => pad ++ name ++ ":" ++ remark

def childrenLines (e : Element) (rule : ElementRule) : List String :=
  if rule.children.isEmpty && rule.alternatives.isEmpty then []
  else
    availableLines e rule ++ ["      children:"] ++
      rule.children.pairs.map (fun p => childLine e "        " p.1 p.2) ++
      if rule.alternatives.isEmpty then []
      else
        ("        " ++ choiceKey ++ ":") ::
          rule.alternatives.pairs.map fun p => childLine e "          " p.1 p.2

def elementLines (grammar : Model) (name : String) (rule : ElementRule) : List String :=
  match grammar.element? name with
  | none => ["    " ++ name ++ ":", ""]
  | some e =>
    (if e.doc.isEmpty then [] else ["    # " ++ shortened e.doc]) ++ ["    " ++ name ++ ":"] ++
      attributesLines e rule ++ childrenLines e rule ++ [""]

end Commentary

/-- The text of a scaffold with comments. -/
def commentedText (grammar : Model) (r : Restriction) : String :=
  let lines := Commentary.headLines grammar r ++
    r.elements.pairs.flatMap fun p => Commentary.elementLines grammar p.1 p.2
  String.join (lines.map fun line => line ++ "\n")

/-- The text of the smallest profile for a document type. -/
def scaffoldText (grammar : Model) (o : ScaffoldOptions) (documentType : String) :
    Except Error String :=
  match scaffold grammar o documentType with
  | .error e => .error e
  | .ok r => .ok (if o.comments then commentedText grammar r else r.render)

end GrammarProfile.Cascade
