import GrammarProfile.Files
import GrammarProfile.Profile.Diagnostic
import GrammarProfile.Profile.Outline
import GrammarProfile.Profile.Shape
import GrammarProfile.Yaml.Reader

/-!
Reading the text of a profile.
-/
namespace GrammarProfile.Profile

open GrammarProfile.Yaml (Value Pairs)

/-- A text that was read as a profile. -/
structure Reading where
  /-- There is no profile if something is wrong with the text. -/
  profile : Option Restriction
  errors : List Diagnostic
  index : LineIndex
  deriving Inhabited

namespace Reading

/-- Where an error in a YAML text is shown: lines count from one, columns from zero. -/
def placeOf (e : Yaml.Error) : Option Location := e.mark.map fun m => ⟨m.line + 1, m.column⟩

def syntaxError (e : Yaml.Error) : Diagnostic :=
  (Diagnostic.plain .error "parse.yaml-syntax" "" ("YAML syntax error: " ++ e.message)).located
    (placeOf e)

def notAMapping : Diagnostic :=
  { Diagnostic.plain .error "parse.not-a-mapping" ""
      "Profile must be a YAML mapping. Start with 'profile:' at the top of the file." with
    line := some 1 }

def missingKey : Diagnostic :=
  { Diagnostic.plain .error "parse.missing-profile-key" "" "Missing top-level 'profile' key" with
    line := some 1 }

def profileNotMapping (index : LineIndex) : Diagnostic :=
  (Diagnostic.plain .error "parse.profile-not-mapping" "profile"
    "'profile' must be a mapping").located (index.get? "profile")

def flawDiagnostic (index : LineIndex) (f : Flaw) : Diagnostic :=
  (Diagnostic.plain .error "parse.invalid-shape" f.path f.message).located (index.locate f.path)

/-- The mapping below the top-level key `profile`, or what is wrong. -/
def profilePairs (index : LineIndex) (v : Value) : Except Diagnostic Pairs :=
  match v with
  | .mapping root =>
    match Pairs.get? root "profile" with
    | none => .error missingKey
    | some .null => .error missingKey
    | some (.mapping pairs) => .ok pairs
    | some _ => .error (profileNotMapping index)
  | _ => .error notAMapping

/-- Reads the value of a text, in which `index` finds the places. -/
def ofValue (index : LineIndex) (v : Value) : Reading :=
  match profilePairs index v with
  | .error d => ⟨none, [d], index⟩
  | .ok pairs =>
    let shaped := Restriction.ofTree pairs
    match shaped.flaws with
    | [] => ⟨some shaped.result, [], index⟩
    | flaws => ⟨none, flaws.map (flawDiagnostic index), index⟩

end Reading

/-- Reads the text of a profile. -/
def read (text : String) : Reading :=
  let index := LineIndex.ofText text
  match Yaml.read text with
  | .ok v => .ofValue index v
  | .error e => ⟨none, [Reading.syntaxError e], index⟩

/-- Reads the profile in a file. -/
def readFrom (files : Files) (path : String) : Except FileError Reading :=
  (files.read path).map read

end GrammarProfile.Profile
