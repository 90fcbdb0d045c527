/-!
Collections of names: sets in code point order, and lists without repetitions.
-/
namespace GrammarProfile.Text

/-- The order of names: by code point, from the left. -/
def nameLE (a b : String) : Bool := !decide (b < a)

/-- The members of a list as a set: each once, in code point order. -/
def nameSet (names : List String) : List String := names.eraseDups.mergeSort nameLE

/-- Names as they are listed in a message. -/
def commaSeparated (names : List String) : String := String.intercalate ", " names

end GrammarProfile.Text
