import GrammarProfile.Cascade.Reorder
import GrammarProfile.Grammar.Closure

/-!
Adding an element to a profile, with all that the grammar requires in it.
-/
namespace GrammarProfile.Cascade

open GrammarProfile.Grammar (Attribute Element Model)
open GrammarProfile.Yaml (Value Pairs)

/-- Identity attributes that are attached on demand. -/
structure ExpandOptions where
  addEId : Bool
  addWId : Bool
  addGuid : Bool
  /-- Whether an attached attribute is marked as required. -/
  idRequired : Bool
  deriving DecidableEq, Repr

namespace ExpandOptions

def standard : ExpandOptions := ⟨false, false, false, true⟩

def identityNames (o : ExpandOptions) : List String :=
  (if o.addEId then ["eId"] else []) ++ (if o.addWId then ["wId"] else []) ++
    (if o.addGuid then ["GUID"] else [])

end ExpandOptions

/-- The cardinality of a document type inside the root. -/
def documentTypeLabel : String := "1..1"

def requiredAttribute (a : Attribute) : Value :=
  let values :=
    match a.enumValues with
    | some (v :: vs) => [(Value.string "values", .sequence ((v :: vs).map .string))]
    | _ => []
  .mapping ((.string "required", .bool true) :: values)

def identityAttribute (required : Bool) : Value :=
  .mapping [(.string "required", .bool required)]

/-- Adds the pairs whose keys are not there. -/
def addMissing (additions : List (String × Value)) (pairs : Pairs) : Pairs :=
  additions.foldl
    (fun acc (name, v) => if Pairs.contains acc name then acc else acc ++ [(.string name, v)])
    pairs

/-- Adds pairs to a section, which begins empty if it is missing or null. A section of another
kind stays as it is. -/
def addToSection (name : String) (additions : List (String × Value)) (entry : Pairs) : Pairs :=
  if additions.isEmpty then entry
  else
    let entry :=
      match Pairs.get? entry name with
      | none => Pairs.set name (.mapping []) entry
      | some .null => Pairs.set name (.mapping []) entry
      | some _ => entry
    Pairs.update name (Value.editPairs (addMissing additions)) entry

/-- The attributes that an expanded entry needs. -/
def neededAttributes (o : ExpandOptions) (e : Element) : List (String × Value) :=
  ((e.attributes.filter (·.required)).map fun a => (a.name, requiredAttribute a)) ++
    ((o.identityNames.filter fun id => (e.attribute? id).any fun a => !a.required).map fun id =>
      (id, identityAttribute o.idRequired))

def neededChildren (e : Element) : List (String × Value) :=
  (e.children.filter (·.required)).map fun c => (c.name, .string c.cardinality)

/-- An entry with all that it needs. An entry that needs nothing may stay null. -/
def completeEntry (o : ExpandOptions) (e : Element) (entry : Value) : Value :=
  let attributes := neededAttributes o e
  let children := neededChildren e
  let entry : Value :=
    match entry with
    | .null => if attributes.isEmpty && children.isEmpty then .null else .mapping []
    | v => v
  entry.editPairs fun fields =>
    addToSection "children" children (addToSection "attributes" attributes fields)

/-- Gives an element an entry, or completes the one that it has. -/
def ensureEntry (o : ExpandOptions) (e : Element) (name : String) (elements : Pairs) : Pairs :=
  let elements :=
    if Pairs.contains elements name then elements else elements ++ [(.string name, .null)]
  Pairs.update name (completeEntry o e) elements

/-- Puts the root first and lists in it the document types that have an entry. -/
def ensureRoot (grammar : Model) (documentTypes : List String) (elements : Pairs) : Pairs :=
  match grammar.root with
  | none => elements
  | some root =>
    let present := documentTypes.filter (Pairs.contains elements)
    let entry :=
      match Pairs.get? elements root with
      | some (.mapping pairs) => pairs
      | _ => []
    let entry :=
      addToSection "children" (present.map fun dt => (dt, .string documentTypeLabel)) entry
    let value := if entry.isEmpty then .null else .mapping entry
    (.string root, value) :: Pairs.erase elements root

/-- The entries after an element is added. -/
def expandElements (grammar : Model) (o : ExpandOptions) (element : String)
    (documentTypes : List String) (elements : Pairs) : Pairs :=
  let completed := (grammar.requiredClosure element).foldl
    (fun acc name =>
      match grammar.element? name with
      | some e => ensureEntry o e name acc
      | none => acc)
    elements
  orderElements grammar (ensureRoot grammar documentTypes completed)

def expandTree (grammar : Model) (o : ExpandOptions) (element : String) (tree : Value) : Value :=
  Tree.editElements (expandElements grammar o element (Tree.documentTypes tree)) tree

/-- Adds an element, and what it requires, to the profile that a text holds. -/
def expand (grammar : Model) (o : ExpandOptions) (element text : String) : Except Error String :=
  if !grammar.hasElement element then .error (.unknownElement element)
  else editText (fun tree => some (expandTree grammar o element tree)) text

end GrammarProfile.Cascade
