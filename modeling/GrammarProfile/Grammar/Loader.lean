import GrammarProfile.Files
import GrammarProfile.Grammar.AkomaNtoso
import GrammarProfile.Grammar.Resolution
import GrammarProfile.Xml.Reader

/-!
Loading a grammar: from the text of a schema document to a model.
-/
namespace GrammarProfile.Grammar

open GrammarProfile.Xml (Tag Node)

/-- Why there is no grammar. -/
inductive Error where
  | unreadable (e : FileError)
  | malformed (e : Xml.Error)
  | notSchema (found : String)
  | undeclaredRoot (name : String)
  | notFound (key : String)
  deriving DecidableEq, Repr

def Error.message : Error → String
  | unreadable e => "IO error: " ++ e.message
  | malformed e => "Malformed grammar XML: " ++ e.message
  | notSchema found => "Invalid grammar: expected xs:schema root, found '" ++ found ++ "'"
  | undeclaredRoot name => "Invalid grammar: root element '" ++ name ++ "' is not declared"
  | notFound key => "Grammar not found: " ++ key

namespace Declarations

/-- The first global element that no content model refers to or declares; `content` is that of
the schema. -/
def inferRoot (d : Declarations) (content : List Node) (locals : OrderedMap Xml.Element) :
    Option String :=
  let referenced := ((Node.tagsOf content).filter (isSchema · "element")).filterMap fun t =>
    (t.attribute? "ref").map localName
  d.elements.keys.find? fun name => !referenced.contains name && !locals.contains name

/-- The elements and enumerations of a schema with the given content, and what was found out. -/
def resolveAll (d : Declarations) (content : List Node) :
    Resolving (OrderedMap Element × OrderedMap (List String)) := do
  let globals ← d.resolveElements d.elements.pairs ∅
  let elements ← d.resolveLocals ((Node.tagsOf content).length + 1) globals
  let enums ← d.resolveEnums
  pure (elements, enums)

end Declarations

namespace Model

/-- The model of a document; `root?` names the root instead of the one that is inferred. -/
def ofDocument (root? : Option String) (document : Node) : Except Error Model :=
  match document with
  | .text _ => .error (.notSchema "")
  | .remark => .error (.notSchema "")
  | .element tag content =>
    if !isSchema tag "schema" then .error (.notSchema tag.name)
    else
      let d := Declarations.ofContent content
      let ((elements, enums), found) := (d.resolveAll content).run .none
      match root? with
      | none => .ok ⟨elements.sorted, enums.sorted, d.inferRoot content found.locals⟩
      | some root =>
        if elements.contains root then .ok ⟨elements.sorted, enums.sorted, some root⟩
        else .error (.undeclaredRoot root)

/-- The model of a schema document. -/
def load (root? : Option String) (text : String) : Except Error Model :=
  match Xml.readDocument text.toList with
  | .error e => .error (.malformed e)
  | .ok document => ofDocument root? document

/-- The model of a schema document in a file. -/
def ofFile (root? : Option String) (content : Except FileError String) : Except Error Model :=
  match content with
  | .error e => .error (.unreadable e)
  | .ok text => load root? text

/-- The model of the core grammar of Akoma Ntoso 3.0. -/
def akomaNtoso : Except Error Model := load none akomaNtosoText

end Model

end GrammarProfile.Grammar
