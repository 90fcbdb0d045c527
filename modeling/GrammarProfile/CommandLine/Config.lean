import GrammarProfile.Cascade.Expand
import GrammarProfile.Profile.Diagnostic
import GrammarProfile.Text.Blank
import GrammarProfile.Yaml.Record

/-!
Configuration files: the grammar to use, how to expand, and what validation reports.
-/
namespace GrammarProfile.CommandLine

open GrammarProfile.Cascade (ExpandOptions)
open GrammarProfile.Profile (Severity)
open GrammarProfile.Yaml (Document Event)

structure Config where
  /-- The path of a grammar. -/
  grammar : Option String
  expand : ExpandOptions
  /-- The severity of the findings that are reported. -/
  minimum : Option Severity
  deriving DecidableEq, Repr

namespace Config

def standard : Config := ⟨none, .standard, none⟩

def severityOf (name : String) : Option Severity :=
  [Severity.error, Severity.warning, Severity.info].find? fun s => s.name == name

/-- Options for expanding; a field that is unknown here is passed over. -/
def expandOptions? (d : Document) (node : List Event) : Option ExpandOptions := do
  let standard := ExpandOptions.standard
  let fields ← d.record? ["autoAddEid", "autoAddWid", "autoAddGuid", "autoIdRequired"] node
  let switch := fun name value =>
    Document.field? fields name value fun n => (d.scalar? n).bind fun s => s.bool?
  pure
    { addEId := ← switch "autoAddEid" standard.addEId
      addWId := ← switch "autoAddWid" standard.addWId
      addGuid := ← switch "autoAddGuid" standard.addGuid
      idRequired := ← switch "autoIdRequired" standard.idRequired }

/-- The section about validation, which gives the severity of what is reported. -/
def minimum? (d : Document) (node : List Event) : Option (Option Severity) := do
  let fields ← d.closedRecord? ["minimumSeverity"] node
  Document.field? fields "minimumSeverity" none
    (d.optional? fun s => s.choice?.bind severityOf)

/-- The configuration in a document. -/
def ofDocument? (d : Document) : Option Config := do
  let fields ← d.closedRecord? ["schema", "expand", "validation"] d.events
  pure
    { grammar := ← Document.field? fields "schema" none (d.optional? fun s => some s.text)
      expand := ← Document.field? fields "expand" .standard (expandOptions? d)
      minimum := ← Document.field? fields "validation" none (minimum? d) }

/-- The configuration in a text; a blank text is the standard one. -/
def ofText? (text : String) : Option Config :=
  if (Text.trim text.toList).isEmpty then some standard
  else
    let d := Document.ofText text
    if d.error.isSome || d.isFollowed then none else ofDocument? d

end Config

end GrammarProfile.CommandLine
