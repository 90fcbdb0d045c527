import GrammarProfile.Files
import GrammarProfile.Profile.Layout
import GrammarProfile.Profile.Restriction
import GrammarProfile.Yaml.Printer

/-!
Writing a profile. What says nothing is left out, and an element without a rule is a bare key.
-/
namespace GrammarProfile.Profile

open GrammarProfile.Yaml (Value Pairs)

/-- A key with a value, if there is something to write. -/
def field (name : String) (isPresent : Bool) (v : Value) : Pairs :=
  if isPresent then [(.string name, v)] else []

def texts (xs : List String) : Value := .sequence (xs.map .string)

/-- A mapping with the names of a map as its keys. -/
def mapTree {α : Type} (m : OrderedMap α) (value : α → Value) : Pairs :=
  m.pairs.map fun p => (.string p.1, value p.2)

def labelTree : Option String → Value
  | some s => .string s
  | none => .null

def AttributeRule.toTree (r : AttributeRule) : Value :=
  .mapping (field "required" true (.bool r.required) ++
    field "values" (!r.values.isEmpty) (texts r.values))

namespace ElementRule

def writesChoice (r : ElementRule) : Bool := r.declaresChoice || !r.alternatives.isEmpty

/-- The children, and last the key for alternatives. -/
def childrenTree (r : ElementRule) : Pairs :=
  mapTree r.children labelTree ++
    field choiceKey r.writesChoice
      (if r.alternatives.isEmpty then .null
      else .mapping (mapTree r.alternatives labelTree))

def toTree (r : ElementRule) : Value :=
  if r.isEmpty then .null
  else
    .mapping
      (field "profileNote" r.note.isSome (.string (r.note.getD "")) ++
        field "attributes" (!r.attributes.isEmpty)
          (.mapping (mapTree r.attributes AttributeRule.toTree)) ++
        field "children" (!r.children.isEmpty || r.writesChoice) (.mapping r.childrenTree) ++
        field "structure" (!r.parts.isEmpty) (texts r.parts))

end ElementRule

namespace Restriction

/-- The pairs below the key `profile`. -/
def toTree (r : Restriction) : Pairs :=
  field "name" true (.string r.name) ++ field "version" true (.string r.version) ++
    field "description" (r.description != "") (.string r.description) ++
    field "documentTypes" (!r.documentTypes.isEmpty) (texts r.documentTypes) ++
    field "elements" true (.mapping (mapTree r.elements ElementRule.toTree))

/-- The text of a profile. -/
def render (r : Restriction) : String :=
  Layout.tidy (Value.render (.mapping [(.string "profile", .mapping r.toTree)]))

end Restriction

/-- The files after a profile is written to one of them. -/
def Restriction.saveTo (r : Restriction) (files : Files) (path : String) :
    Except FileError Files :=
  files.write path r.render

end GrammarProfile.Profile
