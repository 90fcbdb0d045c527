import GrammarProfile.Profile.Reader
import GrammarProfile.Validation.Alternatives
import GrammarProfile.Validation.Containment
import GrammarProfile.Validation.Datatype
import GrammarProfile.Validation.Identity
import GrammarProfile.Validation.Strictness
import GrammarProfile.Validation.Vocabulary

/-!
Validating a profile against a grammar.
-/
namespace GrammarProfile.Validation

open GrammarProfile.Grammar (Model)
open GrammarProfile.Profile

/-- A group of rules; none relies on another. -/
inductive Category where
  | vocabulary
  | containment
  | datatype
  | identity
  | choice
  | strictness
  deriving DecidableEq, Repr, Inhabited

namespace Category

/-- What the names of its rules begin with. -/
def name : Category → String
  | vocabulary => "vocabulary"
  | containment => "structure"
  | datatype => "datatype"
  | identity => "identity"
  | choice => "choice"
  | strictness => "strictness"

/-- All categories, in the order in which they report. -/
def all : List Category := [vocabulary, containment, datatype, identity, choice, strictness]

def ofName? (text : String) : Option Category := all.find? fun c => c.name == text

def check (c : Category) (s : Subject) : List Diagnostic :=
  match c with
  | vocabulary => Vocabulary.check s
  | containment => Containment.check s
  | datatype => Datatype.check s
  | identity => Identity.check s
  | choice => Alternatives.check s
  | strictness => Strictness.check s

end Category

structure Settings where
  /-- Findings that are less serious are dropped. -/
  minimum : Severity
  /-- Whether findings that repeat rule, path and message are dropped. -/
  deduplicate : Bool
  categories : List Category
  deriving DecidableEq, Repr

def Settings.standard : Settings := ⟨.info, true, Category.all⟩

/-- What has to be equal in findings that repeat each other. -/
def sameFinding (a b : Diagnostic) : Bool :=
  a.ruleId == b.ruleId && a.path == b.path && a.message == b.message

/-- Keeps the first of findings that repeat each other; `seen` are those kept before. -/
def dropRepeats (seen : List Diagnostic) : List Diagnostic → List Diagnostic
  | [] => []
  | d :: rest =>
    if seen.any (sameFinding d) then dropRepeats seen rest else d :: dropRepeats (d :: seen) rest

/-- The findings about a profile. -/
def validate (settings : Settings) (s : Subject) : List Diagnostic :=
  let found := settings.categories.flatMap fun c => c.check s
  let found := if settings.deduplicate then dropRepeats [] found else found
  found.filter fun d => d.severity.atLeast settings.minimum

/-- The findings about a text; one that is no profile has only the errors of reading it. -/
def validateText (settings : Settings) (grammar : Model) (text : String) : List Diagnostic :=
  let r := Profile.read text
  match r.profile with
  | some profile => r.errors ++ validate settings ⟨grammar, profile, r.index⟩
  | none => r.errors

/-- The report on a text from a source. -/
def report (settings : Settings) (grammar : Model) (source text : String) : Report :=
  ⟨source, validateText settings grammar text⟩

/-- The report on a file, which has the path as its source. -/
def reportOn (settings : Settings) (grammar : Model) (files : Files) (path : String) :
    Except FileError Report :=
  (files.read path).map (report settings grammar path)

end GrammarProfile.Validation
