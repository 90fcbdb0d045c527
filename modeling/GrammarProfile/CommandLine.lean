import GrammarProfile.Cascade.Collapse
import GrammarProfile.Cascade.Commentary
import GrammarProfile.CommandLine.Command
import GrammarProfile.CommandLine.Config
import GrammarProfile.CommandLine.Task
import GrammarProfile.Profile.Json
import GrammarProfile.Validation

/-!
Running a command line: the configuration is read first, the grammar next, and the command is
carried out last.
-/
namespace GrammarProfile.CommandLine

open GrammarProfile.Cascade (ExpandOptions)
open GrammarProfile.Grammar (Model)
open GrammarProfile.Profile (Report Severity)

/-- Options that are configured, with those of the command line, which can only attach more and
require less. -/
def combined (base asked : ExpandOptions) : ExpandOptions :=
  ⟨base.addEId || asked.addEId, base.addWId || asked.addWId, base.addGuid || asked.addGuid,
    base.idRequired && asked.idRequired⟩

/-- The text of a profile after an edit. -/
def Edit.apply (grammar : Model) (config : Config) (edit : Edit) (text : String) :
    Except Cascade.Error String :=
  match edit with
  | expand element options => Cascade.expand grammar (combined config.expand options) element text
  | collapse element => Cascade.collapse grammar element text
  | reorder => Cascade.reorder grammar text

/-- A report as it is printed. -/
def Format.show (f : Format) (r : Report) : String :=
  match f with
  | text => r.render
  | json => r.toJson.layOut 0 ++ "\n"

/-- Names on a line each. -/
def listed (names : List String) : String := String.join (names.map fun n => n ++ "\n")

namespace Command

/-- Ends with the text after an edit. In place, a file is written only if its text changes. -/
def finishEdit (profile old new : String) (inPlace : Bool) : Task :=
  if inPlace then if new == old then .print "" else .write profile new else .print new

/-- The task of a command. -/
def task (grammar : Model) (config : Config) : Command → Task
  | validate profile format minimum =>
    .read profile fun
      | .error e => .fail (.profileUnread profile e)
      | .ok text =>
        let settings : Validation.Settings :=
          { Validation.Settings.standard with
            minimum := (minimum.or config.minimum).getD .info }
        let report := Validation.report settings grammar profile text
        .finish (.done (format.show report) report.isValid)
  | generate documentType output options =>
    match Cascade.scaffoldText grammar options documentType with
    | .error e => .fail (.noScaffold e)
    | .ok text =>
      match output with
      | some path => .write path text
      | none => .print text
  | edit profile change inPlace =>
    .read profile fun
      | .error e => .fail (.profileUnread profile e)
      | .ok text =>
        match change.apply grammar config text with
        | .error e => .fail (.profileUnedited profile e)
        | .ok edited => finishEdit profile text edited inPlace
  | elements => .print (listed grammar.elementNames)
  | documentTypes => .print (listed grammar.documentTypes)

end Command

namespace Invocation

/-- Goes on with the grammar that is asked for. The path in a configuration file begins at the
directory of that file. -/
def taskWith (i : Invocation) (config : Config) : Task :=
  let path :=
    match i.grammar with
    | some path => some path
    | none => config.grammar.map fun path => Files.besides (i.config.getD "") path
  match path with
  | some path =>
    .read path fun content =>
      match Model.ofFile none content with
      | .error e => .fail (.grammar path e)
      | .ok grammar => i.command.task grammar config
  | none =>
    match Model.akomaNtoso with
    | .error e => .fail (.bundledGrammar e)
    | .ok grammar => i.command.task grammar config

/-- The task of an invocation. -/
def task (i : Invocation) : Task :=
  match i.config with
  | none => i.taskWith .standard
  | some path =>
    .read path fun
      | .error e => .fail (.configUnread path e)
      | .ok text =>
        match Config.ofText? text with
        | some config => i.taskWith config
        | none => .fail (.configInvalid path)

end Invocation

def versionText : String := "akn-profiler 0.1.0\n"

/-- The words of each command, and the switches that they know. -/
def helpText : String :=
  let switches := fun (known : List Switch) =>
    String.join (known.map fun s => " [--" ++ s.name ++ "]")
  let usage := fun (v : Verb) =>
    "  " ++ v.name ++ String.join (v.operands.map fun o => if o == .path then " FILE" else " NAME") ++
      switches v.ownSwitches ++ "\n"
  "akn-profiler" ++ switches sharedSwitches ++ " COMMAND\n" ++ String.join (Verb.all.map usage)

/-- The task that the words of a command line ask for. -/
def task (words : List String) : Task :=
  match Invocation.ofWords words with
  | .ok i => i.task
  | .error .help => .print helpText
  | .error .version => .print versionText
  | .error (.misuse m) => .finish (.misused m)

/-- Runs a command line on some files. -/
def run (words : List String) (files : Files) : Outcome × Files := (task words).run files

end GrammarProfile.CommandLine
