import GrammarProfile.CommandLine

/-!
The program: it carries out the task of its command line on the files of the system.
-/
namespace GrammarProfile.CommandLine

/-- The text of a file. -/
def fileText (path : String) : IO (Except FileError String) := do
  match ← (IO.FS.readBinFile path).toBaseIO with
  | .ok bytes =>
    match String.fromUTF8? bytes with
    | some text => pure (.ok text)
    | none => pure (.error .notText)
  | .error _ => pure (.error .unreachable)

/-- Carries out a task. -/
def Task.perform : Task → IO Outcome
  | finish o => pure o
  | write path text => do
    match ← (IO.FS.writeFile path text).toBaseIO with
    | .ok _ => pure (.done "" true)
    | .error _ => pure (.failed (.unwritten path .unreachable))
  | read path next => do
    let content ← fileText path
    (next content).perform

/-- Shows how a run ended. -/
def Outcome.report (o : Outcome) : IO Unit := do
  match o with
  | done text _ => IO.print text
  | failed f =>
    IO.eprintln ("Error: " ++ f.message)
    match f.cause? with
    | some cause => IO.eprintln ("\nCaused by:\n    " ++ cause)
    | none => pure ()
  | misused m => IO.eprintln ("error: " ++ m.message)

end GrammarProfile.CommandLine

open GrammarProfile.CommandLine in
def main (args : List String) : IO UInt32 := do
  let outcome ← (task args).perform
  outcome.report
  pure outcome.code.toUInt32
