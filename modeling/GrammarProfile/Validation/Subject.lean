import GrammarProfile.Grammar.Closure
import GrammarProfile.Profile.Diagnostic
import GrammarProfile.Profile.Restriction

/-!
What the rules look at: a profile, the grammar that it restricts, and the places of its parts.
-/
namespace GrammarProfile.Validation

open GrammarProfile.Grammar (Model)
open GrammarProfile.Profile

structure Subject where
  grammar : Model
  profile : Restriction
  index : LineIndex

namespace Subject

/-- A finding about the part at a path, which is located there or at what encloses it. -/
def report (s : Subject) (severity : Severity) (rule path message : String) : Diagnostic :=
  (Diagnostic.plain severity rule path message).located (s.index.locate path)

/-- The entries whose element the grammar knows. -/
def knownElements (s : Subject) : List (String × ElementRule) :=
  s.profile.elements.pairs.filter fun p => s.grammar.hasElement p.1

def declares (s : Subject) (name : String) : Bool := s.profile.elements.contains name

end Subject

def elementPath (name : String) : String := "profile.elements." ++ name

def childPath (name child : String) : String := elementPath name ++ ".children." ++ child

def alternativePath (name child : String) : String :=
  elementPath name ++ ".children." ++ choiceKey ++ "." ++ child

def partPath (name : String) (i : Nat) : String :=
  elementPath name ++ ".structure[" ++ toString i ++ "]"

def attributePath (name attributeName : String) : String :=
  elementPath name ++ ".attributes." ++ attributeName

def documentTypePath (i : Nat) : String := "profile.documentTypes[" ++ toString i ++ "]"

/-- A set of names as it is shown: in code point order, in brackets. -/
def shownSet (names : List String) : String :=
  "[" ++ Text.commaSeparated (Text.nameSet names) ++ "]"

end GrammarProfile.Validation
