import GrammarProfile.Cascade.Tree
import GrammarProfile.CommandLine.Words
import GrammarProfile.Grammar.Loader

/-!
Tasks: what a run reads, and how it ends. A run writes at most one file, and does nothing more
after that.
-/
namespace GrammarProfile.CommandLine

/-- Why a command fails. -/
inductive Failure where
  | configUnread (path : String) (e : FileError)
  | configInvalid (path : String)
  | grammar (path : String) (e : Grammar.Error)
  | bundledGrammar (e : Grammar.Error)
  | profileUnread (path : String) (e : FileError)
  | profileUnedited (path : String) (e : Cascade.Error)
  | noScaffold (e : Cascade.Error)
  | unwritten (path : String) (e : FileError)
  deriving DecidableEq, Repr

namespace Failure

def message : Failure → String
  | configUnread path _ => "Failed to read config file " ++ path
  | configInvalid path => "Invalid config file " ++ path
  | grammar path _ => "Failed to load grammar " ++ path
  | bundledGrammar _ => "Failed to load the bundled grammar"
  | profileUnread path _ => "Failed to read profile " ++ path
  | profileUnedited path _ => "Failed to update " ++ path
  | noScaffold e => e.message
  | unwritten path _ => "Failed to write " ++ path

/-- What is behind a failure that does not speak for itself. -/
def cause? : Failure → Option String
  | configUnread _ e => some e.message
  | configInvalid _ => some "the file does not hold a configuration"
  | grammar _ e => some e.message
  | bundledGrammar e => some e.message
  | profileUnread _ e => some e.message
  | profileUnedited _ e => some e.message
  | noScaffold _ => none
  | unwritten _ e => some e.message

end Failure

/-- How a run ends. -/
inductive Outcome where
  /-- The command is done; a profile that it checked may still not be valid. -/
  | done (output : String) (isValid : Bool)
  | failed (f : Failure)
  | misused (m : Misuse)
  deriving DecidableEq, Repr

namespace Outcome

def code : Outcome → Nat
  | done _ isValid => if isValid then 0 else 1
  | failed _ => 1
  | misused _ => 2

/-- What is printed as the result. -/
def output : Outcome → String
  | done text _ => text
  | failed _ => ""
  | misused _ => ""

end Outcome

/-- A run, as far as it depends on files. -/
inductive Task where
  | finish (o : Outcome)
  /-- Writes a file as the last thing. -/
  | write (path text : String)
  /-- Reads a file and goes on with what is in it. -/
  | read (path : String) (next : Except FileError String → Task)

namespace Task

def print (text : String) : Task := finish (.done text true)

def fail (f : Failure) : Task := finish (.failed f)

/-- How a run on some files ends, and the files after it. -/
def run (files : Files) : Task → Outcome × Files
  | finish o => (o, files)
  | write path text =>
    match files.write path text with
    | .ok after => (.done "" true, after)
    | .error e => (.failed (.unwritten path e), files)
  | read path next => run files (next (files.read path))

end Task

end GrammarProfile.CommandLine
