import GrammarProfile.Profile.LineIndex

/-!
Findings about a profile, and how they are shown.
-/
namespace GrammarProfile.Profile

inductive Severity where
  | error
  | warning
  | info
  deriving DecidableEq, Repr, Inhabited

namespace Severity

def rank : Severity → Nat
  | error => 2
  | warning => 1
  | info => 0

/-- Whether a severity is as serious as `minimum` or more so. -/
def atLeast (s minimum : Severity) : Bool := minimum.rank ≤ s.rank

def name : Severity → String
  | error => "error"
  | warning => "warning"
  | info => "info"

/-- Letters in a name may be of either case. -/
def ofName? (name : String) : Option Severity :=
  match name.map Char.toLower with
  | "error" => some error
  | "warning" => some warning
  | "warn" => some warning
  | "info" => some info
  | _ => none

def unknownMessage (name : String) : String :=
  "unknown severity '" ++ name.map Char.toLower ++ "'"

end Severity

/-- A finding. The rule begins with its category and a dot; the path names what the finding is
about. -/
structure Diagnostic where
  severity : Severity
  ruleId : String
  path : String
  message : String
  line : Option Nat
  column : Option Nat
  deriving DecidableEq, Repr, Inhabited

namespace Diagnostic

/-- A finding without a place. -/
def plain (severity : Severity) (ruleId path message : String) : Diagnostic :=
  ⟨severity, ruleId, path, message, none, none⟩

/-- The finding at a place, if one is known. -/
def located (d : Diagnostic) (place : Option Location) : Diagnostic :=
  match place with
  | some l => { d with line := some l.line, column := some l.column }
  | none => d

def isError (d : Diagnostic) : Bool := d.severity == .error

/-- The part of the rule before the first dot. -/
def category (d : Diagnostic) : String :=
  String.ofList (d.ruleId.toList.takeWhile (· != '.'))

/-- A finding in one line, with the number of its line or else with its path. -/
def render (d : Diagnostic) : String :=
  let place :=
    match d.line with
    | some n => "line " ++ toString n
    | none => d.path
  d.severity.name ++ " [" ++ d.ruleId ++ "] " ++ place ++ ": " ++ d.message

end Diagnostic

/-- The findings about one source, with their numbers. -/
structure Report where
  source : String
  diagnostics : List Diagnostic
  deriving DecidableEq, Repr, Inhabited

namespace Report

def count (r : Report) (s : Severity) : Nat :=
  (r.diagnostics.filter fun d => d.severity == s).length

/-- A source without an error is valid. -/
def isValid (r : Report) : Bool := r.count .error == 0

/-- The place of a finding: line and column from one, or the path. -/
def placeText (d : Diagnostic) : String :=
  match d.line, d.column with
  | some line, some column => toString line ++ ":" ++ toString (column + 1)
  | some line, none => toString line
  | none, _ => d.path

/-- One line for each finding, and one with the totals. -/
def render (r : Report) : String :=
  let lines := r.diagnostics.map fun d =>
    r.source ++ ":" ++ placeText d ++ ": " ++ d.severity.name ++ " [" ++ d.ruleId ++ "] " ++
      d.message ++ "\n"
  String.join lines ++ r.source ++ ": " ++ toString (r.count .error) ++ " errors, " ++
    toString (r.count .warning) ++ " warnings, " ++ toString (r.count .info) ++ " infos\n"

end Report

end GrammarProfile.Profile
