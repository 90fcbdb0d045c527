import GrammarProfile.OrderedMap
import GrammarProfile.Text.Blank
import GrammarProfile.Text.Lines

/-!
A directory of files, as the commands see it. Paths are relative to the directory; what lies
outside it cannot be reached.
-/
namespace GrammarProfile

/-- Why a file cannot be used. -/
inductive FileError where
  | unreachable
  | notText
  deriving DecidableEq, Repr

def FileError.message : FileError → String
  | unreachable => "the file cannot be reached"
  | notText => "the file does not hold a text"

/-- Files by their paths below the directory. A file holds a text, or bytes that are none. -/
structure Files where
  entries : OrderedMap (Option String)

namespace Files

def empty : Files := ⟨∅⟩

/-- The parts of a path between its slashes. -/
def parts (path : String) : List String := (Text.splitAll '/' path.toList).map String.ofList

/-- Whether the parts, outermost first, name the directory itself or one that holds a file. -/
def isDirectory (files : Files) (place : List String) : Bool :=
  place.isEmpty || files.entries.keys.any fun key =>
    place.isPrefixOf (parts key) && place.length < (parts key).length

/-- Follows the parts of a path from `here`. Everything but the last part has to be a directory. -/
def follow? (files : Files) : List String → List String → Option (List String)
  | here, [] => some here
  | here, part :: rest =>
    if !files.isDirectory here then none
    else
      match part with
      | "" => follow? files here rest
      | "." => follow? files here rest
      | ".." => if here.isEmpty then none else follow? files here.dropLast rest
      | name => follow? files (here ++ [name]) rest

/-- The key under which a path finds a file. -/
def locate? (files : Files) (path : String) : Option String :=
  if path.isEmpty || path.startsWith "/" then none
  else (files.follow? [] (parts path)).map (String.intercalate "/")

/-- The text of a file. -/
def read (files : Files) (path : String) : Except FileError String :=
  match (files.locate? path).bind files.entries.get? with
  | some (some text) => .ok text
  | some none => .error .notText
  | none => .error .unreachable

/-- Whether a path ends in the name of a file. -/
def namesFile (path : String) : Bool :=
  match (parts path).getLast? with
  | some last => last != "" && last != "." && last != ".."
  | none => false

/-- The files after a text is written; the directory of the file has to be there. -/
def write (files : Files) (path text : String) : Except FileError Files :=
  match files.locate? path with
  | some key =>
    if namesFile path && !files.isDirectory (parts key) then
      .ok ⟨files.entries.insert key (some text)⟩
    else .error .unreachable
  | none => .error .unreachable

/-- The directory part of a path to a file. -/
def directory (path : String) : String :=
  match (parts path).dropLast with
  | [] => ""
  | first :: rest =>
    let rest := Text.dropEndWhile (fun part => part == "" || part == ".") rest
    if first.isEmpty && rest.isEmpty then "/" else String.intercalate "/" (first :: rest)

/-- A path that begins at the directory of a file, unless it begins at the root. -/
def besides (file path : String) : String :=
  let place := directory file
  if path.startsWith "/" || place.isEmpty then path
  else if place.endsWith "/" then place ++ path
  else place ++ "/" ++ path

end Files

end GrammarProfile
