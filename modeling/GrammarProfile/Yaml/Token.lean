import GrammarProfile.Yaml.Cursor

/-!
The tokens of a YAML text.
-/
namespace GrammarProfile.Yaml

inductive TokenKind where
  | streamEnd
  | version (major minor : Nat)
  | tagDirective (handle start : String)
  | documentStart
  | documentEnd
  | blockSequence
  | blockMapping
  | blockEnd
  | flowSequence
  | flowSequenceEnd
  | flowMapping
  | flowMappingEnd
  | entry
  | flowEntry
  | key
  | value
  | alias (name : String)
  | anchor (name : String)
  /-- A tag by its handle and what follows it; `none` if that is not text in UTF-8. -/
  | tag (handle : String) (suffix : Option String)
  | scalar (text : String) (isPlain : Bool)
  deriving DecidableEq, Repr, Inhabited

/-- A token and the place where it begins. -/
structure Token where
  kind : TokenKind
  mark : Mark
  deriving DecidableEq, Repr, Inhabited

end GrammarProfile.Yaml
