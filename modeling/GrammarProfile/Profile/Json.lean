import GrammarProfile.Profile.Diagnostic
import GrammarProfile.Text.Json

/-!
Reports as JSON.
-/
namespace GrammarProfile.Profile

open GrammarProfile.Text (Json)

/-- A finding. Line and column are there if they are known. -/
def Diagnostic.toJson (d : Diagnostic) : Json :=
  let place := fun (name : String) (n : Option Nat) =>
    (n.map fun n => (name, Json.number n)).toList
  .object ([("ruleId", .string d.ruleId), ("path", .string d.path),
    ("message", .string d.message), ("severity", .string d.severity.name)] ++
    place "line" d.line ++ place "column" d.column)

/-- A report with the numbers of its findings. -/
def Report.toJson (r : Report) : Json :=
  .object [("source", .string r.source), ("diagnostics", .list (r.diagnostics.map (·.toJson))),
    ("errors", .number (r.count .error)), ("warnings", .number (r.count .warning)),
    ("infos", .number (r.count .info))]

end GrammarProfile.Profile
