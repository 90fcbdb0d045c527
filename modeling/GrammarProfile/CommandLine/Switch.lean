import GrammarProfile.Profile.Diagnostic

/-!
The words of the command line: commands, their operands, and switches.
-/
namespace GrammarProfile.CommandLine

open GrammarProfile.Profile (Severity)

/-- A kind of word that stands for a value. -/
inductive Operand where
  | path
  | name
  | format
  | severity
  deriving DecidableEq, Repr

def formatNames : List String := ["text", "json"]

/-- Whether a word may be given for an operand. -/
def Operand.accepts (o : Operand) (word : String) : Bool :=
  match o with
  | path => !word.isEmpty
  | name => true
  | format => formatNames.contains word
  | severity => (Severity.ofName? word).isSome

inductive Switch where
  | config
  | schema
  | verbose
  | help
  | version
  | format
  | minSeverity
  | output
  | allChildren
  | allAttributes
  | noComments
  | eId
  | wId
  | guid
  | optionalIds
  | inPlace
  deriving DecidableEq, Repr

namespace Switch

def name : Switch → String
  | config => "config"
  | schema => "schema"
  | verbose => "verbose"
  | help => "help"
  | version => "version"
  | format => "format"
  | minSeverity => "min-severity"
  | output => "output"
  | allChildren => "all-children"
  | allAttributes => "all-attributes"
  | noComments => "no-comments"
  | eId => "eid"
  | wId => "wid"
  | guid => "guid"
  | optionalIds => "optional-ids"
  | inPlace => "in-place"

/-- The short form. -/
def letter? : Switch → Option Char
  | config => some 'c'
  | schema => some 's'
  | verbose => some 'v'
  | help => some 'h'
  | version => some 'V'
  | format => some 'f'
  | output => some 'o'
  | inPlace => some 'i'
  | _ => none

/-- The value that comes with a switch. -/
def operand? : Switch → Option Operand
  | config => some .path
  | schema => some .path
  | format => some .format
  | minSeverity => some .severity
  | output => some .path
  | _ => none

/-- Whether a switch may be given again. -/
def isRepeatable (s : Switch) : Bool := s == verbose

end Switch

/-- What a command does. -/
inductive Verb where
  | validate
  | generate
  | expand
  | collapse
  | reorder
  | elements
  | documentTypes
  deriving DecidableEq, Repr

namespace Verb

def all : List Verb :=
  [validate, generate, expand, collapse, reorder, elements, documentTypes]

def name : Verb → String
  | validate => "validate"
  | generate => "generate"
  | expand => "expand"
  | collapse => "collapse"
  | reorder => "reorder"
  | elements => "elements"
  | documentTypes => "doc-types"

def ofName? (word : String) : Option Verb := all.find? fun v => v.name == word

/-- The operands, all of which have to be given. -/
def operands : Verb → List Operand
  | validate => [.path]
  | generate => [.name]
  | expand => [.path, .name]
  | collapse => [.path, .name]
  | reorder => [.path]
  | elements => []
  | documentTypes => []

/-- The switches of the command alone. -/
def ownSwitches : Verb → List Switch
  | validate => [.format, .minSeverity]
  | generate => [.output, .allChildren, .allAttributes, .noComments]
  | expand => [.eId, .wId, .guid, .optionalIds, .inPlace]
  | collapse => [.inPlace]
  | reorder => [.inPlace]
  | elements => []
  | documentTypes => []

end Verb

/-- The switches that may stand before and after the command. -/
def sharedSwitches : List Switch := [.config, .schema, .verbose, .help]

end GrammarProfile.CommandLine
