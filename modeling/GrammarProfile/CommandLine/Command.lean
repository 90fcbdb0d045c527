import GrammarProfile.Cascade.Scaffold
import GrammarProfile.CommandLine.Words

/-!
Commands, as the words of a command line ask for them.
-/
namespace GrammarProfile.CommandLine

open GrammarProfile.Cascade (ExpandOptions ScaffoldOptions)
open GrammarProfile.Profile (Severity)

/-- How a report is written. -/
inductive Format where
  | text
  | json
  deriving DecidableEq, Repr

/-- An edit of a profile. -/
inductive Edit where
  /-- Adds an element; the options come on top of those that are configured. -/
  | expand (element : String) (options : ExpandOptions)
  | collapse (element : String)
  | reorder
  deriving DecidableEq, Repr

inductive Command where
  | validate (profile : String) (format : Format) (minimum : Option Severity)
  | generate (documentType : String) (output : Option String) (options : ScaffoldOptions)
  | edit (profile : String) (change : Edit) (inPlace : Bool)
  | elements
  | documentTypes
  deriving DecidableEq, Repr

/-- A command, with the paths of a configuration and of a grammar if they are given. -/
structure Invocation where
  config : Option String
  grammar : Option String
  command : Command
  deriving DecidableEq, Repr

namespace Line

def format (l : Line) : Format := if l.value? .format == some "json" then .json else .text

/-- What the switches ask for when an element is added. -/
def expandOptions (l : Line) : ExpandOptions :=
  ⟨l.has .eId, l.has .wId, l.has .guid, !l.has .optionalIds⟩

def scaffoldOptions (l : Line) : ScaffoldOptions :=
  ⟨l.has .allChildren, l.has .allAttributes, !l.has .noComments⟩

/-- The command of a line. -/
def command (l : Line) : Except Misuse Command :=
  match l.verb, l.operands with
  | some .validate, [profile] =>
    .ok (.validate profile l.format ((l.value? .minSeverity).bind Severity.ofName?))
  | some .generate, [documentType] =>
    .ok (.generate documentType (l.value? .output) l.scaffoldOptions)
  | some .expand, [profile, element] =>
    .ok (.edit profile (.expand element l.expandOptions) (l.has .inPlace))
  | some .collapse, [profile, element] =>
    .ok (.edit profile (.collapse element) (l.has .inPlace))
  | some .reorder, [profile] => .ok (.edit profile .reorder (l.has .inPlace))
  | some .elements, [] => .ok .elements
  | some .documentTypes, [] => .ok .documentTypes
  | some v, _ => .error (.missingOperand v)
  | none, _ => .error .missingCommand

end Line

/-- What the words of a command line ask for. -/
def Invocation.ofWords (words : List String) : Except Stop Invocation :=
  match Line.empty.readWords none words with
  | .error stop => .error stop
  | .ok l =>
    match l.command with
    | .error m => .error (.misuse m)
    | .ok command => .ok ⟨l.value? .config, l.value? .schema, command⟩

end GrammarProfile.CommandLine
