import GrammarProfile.Profile.Layout
import GrammarProfile.Profile.Restriction
import GrammarProfile.Yaml.Printer
import GrammarProfile.Yaml.Reader

/-!
Profiles as YAML trees, which keep the keys that nothing here knows.
-/
namespace GrammarProfile.Cascade

open GrammarProfile.Yaml (Value Pairs)

namespace Tree

/-- The pairs of a profile: the mapping, itself without a tag, below the top-level key. -/
def profile? (tree : Value) : Option Pairs :=
  match tree.pairs?.bind fun root => Pairs.get? root "profile" with
  | some (.mapping pairs) => some pairs
  | _ => none

/-- The entries of a profile, if it has a mapping for them. -/
def elements? (tree : Value) : Option Pairs :=
  ((profile? tree).bind fun p => Pairs.get? p "elements").bind Value.pairs?

/-- The document types that are listed, as far as they are words or numbers. -/
def documentTypes (tree : Value) : List String :=
  match ((profile? tree).bind fun p => Pairs.get? p "documentTypes").bind Value.items? with
  | some items => items.filterMap Value.scalarText?
  | none => []

/-- The entries that an edit starts from: none unless they are a mapping without a tag. -/
def editable (profile : Pairs) : Pairs :=
  match Pairs.get? profile "elements" with
  | some (.mapping pairs) => pairs
  | _ => []

/-- Changes the entries of a profile. -/
def editElements (f : Pairs → Pairs) (tree : Value) : Value :=
  tree.editPairs fun root =>
    Pairs.update "profile"
      (Value.editPairs fun p => Pairs.set "elements" (.mapping (f (editable p))) p) root

/-- The names that the pairs of a `children` mapping declare, members of the choice included. -/
def declaredIn : Pairs → List String
  | [] => []
  | (key, value) :: rest =>
    let names :=
      match key.scalarText? with
      | none => []
      | some name =>
        if name == Profile.choiceKey then (value.pairs?.map Pairs.names).getD [] else [name]
    names ++ declaredIn rest

/-- The names that an entry declares as children. -/
def childReferences (entry : Value) : List String :=
  match (entry.pairs?.bind fun e => Pairs.get? e "children").bind Value.pairs? with
  | some children => declaredIn children
  | none => []

/-- Each entry with a name, and what it declares. -/
def references (elements : Pairs) : List (String × List String) :=
  elements.filterMap fun p => p.1.scalarText?.map fun name => (name, childReferences p.2)

/-- The text of a tree. -/
def render (tree : Value) : String := Profile.Layout.tidy tree.render

end Tree

/-- Why an edit is refused. -/
inductive Error where
  | unknownElement (name : String)
  | unknownDocumentType (name : String) (valid : List String)
  | yaml (e : Yaml.Error)
  deriving DecidableEq, Repr

def Error.message : Error → String
  | unknownElement name => "'" ++ name ++ "' is not an element of the grammar"
  | unknownDocumentType name valid =>
    "'" ++ name ++ "' is not a valid document type. Valid: " ++ Text.commaSeparated valid
  | yaml e => "YAML error: " ++ e.message

/-- Edits a text by its tree. A text that is no profile, or that the edit leaves alone, stays as
it is. -/
def editText (edit : Value → Option Value) (text : String) : Except Error String :=
  match Yaml.read text with
  | .error e => .error (.yaml e)
  | .ok tree =>
    if (Tree.profile? tree).isNone then .ok text
    else
      match edit tree with
      | some edited => .ok (Tree.render edited)
      | none => .ok text

end GrammarProfile.Cascade
