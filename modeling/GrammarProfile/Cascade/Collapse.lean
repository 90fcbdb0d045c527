import GrammarProfile.Cascade.Tree
import GrammarProfile.Grammar.Model
import GrammarProfile.Walk

/-!
Removing an element from a profile, with the entries that only it kept reachable.
-/
namespace GrammarProfile.Cascade

open GrammarProfile.Grammar (Model)
open GrammarProfile.Yaml (Value Pairs)

/-- The names that some entry of another name declares. -/
def referencedNames (elements : Pairs) : List String :=
  elements.flatMap fun p =>
    (Tree.childReferences p.2).filter fun child => p.1.scalarText? != some child

/-- A children mapping without a name; a choice that is left empty goes, too. -/
def stripChildren (name : String) (children : Pairs) : Pairs :=
  let children := Pairs.erase children name
  match Pairs.get? children Profile.choiceKey with
  | some (.mapping members) =>
    let members := Pairs.erase members name
    if members.isEmpty then Pairs.erase children Profile.choiceKey
    else Pairs.set Profile.choiceKey (.mapping members) children
  | _ => children

/-- An entry without a name among its children; a section that is left empty goes, and an entry
that is left empty becomes null. -/
def stripReference (name : String) (entry : Value) : Value :=
  match entry.pairs? with
  | none => entry
  | some fields =>
    match Pairs.get? fields "children" with
    | some (.mapping children) =>
      let children := stripChildren name children
      let fields :=
        if children.isEmpty then Pairs.erase fields "children"
        else Pairs.set "children" (.mapping children) fields
      if fields.isEmpty then .null else entry.editPairs fun _ => fields
    | _ => entry

/-- What an entry declares; of several entries of one name the last one counts. -/
def declaredBy (edges : List (String × List String)) (name : String) : List String :=
  (edges.reverse.lookup name).getD []

/-- The names of entries that can be reached from some names. -/
def reachable (edges : List (String × List String)) (starts : List String) : List String :=
  let known (name : String) : Bool := edges.any fun e => e.1 == name
  walk (fun name => (declaredBy edges name).filter known)
    (edges.flatMap fun e => e.2).length (starts.filter known)

/-- Removes the entries that cannot be reached from some names. -/
def sweep (starts : List String) (elements : Pairs) : Pairs :=
  let kept := reachable (Tree.references elements) starts
  elements.filter fun p =>
    match p.1 with
    | .string name => kept.contains name
    | _ => true

/-- The entries after an element is removed. Reachable is what follows from the document types,
the root, and the entries that had no parent in the first place. -/
def collapseElements (grammar : Model) (element : String) (documentTypes : List String)
    (elements : Pairs) : Pairs :=
  let hadParent := referencedNames elements
  let remaining :=
    (Pairs.erase elements element).map fun p => (p.1, stripReference element p.2)
  let orphans := (Pairs.names remaining).filter fun name => !hadParent.contains name
  sweep (documentTypes ++ grammar.root.toList ++ orphans) remaining

/-- `none` if the element has no entry. -/
def collapseTree (grammar : Model) (element : String) (tree : Value) : Option Value :=
  if (Tree.elements? tree).any fun elements => Pairs.contains elements element then
    some (Tree.editElements
      (collapseElements grammar element (Tree.documentTypes tree)) tree)
  else none

/-- Removes an element, and what only it kept reachable, from the profile that a text holds. -/
def collapse (grammar : Model) (element text : String) : Except Error String :=
  if !grammar.hasElement element then .error (.unknownElement element)
  else editText (collapseTree grammar element) text

end GrammarProfile.Cascade
