import GrammarProfile.Text.Age
import GrammarProfile.Text.Blank
import GrammarProfile.Text.Category
import GrammarProfile.Text.Folding
import GrammarProfile.Text.Property
import GrammarProfile.Text.Script

/-!
Sets of characters as patterns write them, and the properties that a pattern can name.
-/
namespace GrammarProfile.Pattern

/-- A property that a pattern asks of a character. -/
inductive Property where
  | any
  | assigned
  | ascii
  /-- A general category or a group of them, by its short name. -/
  | category (group : String)
  /-- The script with a four-letter code. -/
  | script (code : String)
  /-- Use by the script with a four-letter code. -/
  | usedBy (code : String)
  /-- A property by its normal name. -/
  | named (name : String)
  /-- Presence in a version of the character set, by its label. -/
  | presentIn (label : String)
  deriving DecidableEq, Repr

/-- Whether four-letter codes written one after the other include `code`. -/
def includesCode (code : List Char) : List Char → Bool
  | a :: b :: c :: d :: rest => [a, b, c, d] == code || includesCode code rest
  | _ => false

namespace Property

def holds (p : Property) (c : Char) : Bool :=
  match p with
  | any => true
  | assigned => Text.category c != "Cn"
  | ascii => c.toNat < 128
  | category group => Text.categoryWithin group (Text.category c)
  | script code => Text.script c == code
  | usedBy code => includesCode code.toList (Text.scriptExtensions c).toList
  | named name =>
    match Text.propertyNames.lookup name with
    | some runs => Text.hasProperty runs c
    | none => false
  | presentIn label => Text.presentIn label c

/-- The number of runs of neighbouring characters that have the property. -/
def runCount (p : Property) : Nat :=
  let count (runs : Text.Runs) (among : String → Bool) : Nat :=
    (runs.starts.toList.filter fun r => among r.2).length
  match p with
  | any => 1
  | assigned => count Text.categoryRuns (· == "Cn")
  | ascii => 1
  | category group => count Text.categoryRuns (Text.categoryWithin group)
  | script code => count Text.scriptRuns (· == code)
  | usedBy code => count Text.scriptExtensionRuns fun l => includesCode code.toList l.toList
  | named name =>
    match Text.propertyNames.lookup name with
    | some runs => count runs (· == "y")
    | none => 0
  | presentIn label => count Text.ageRuns fun l => l != "z" && !decide (label < l)

/-- The normal form of a property name: lower case ASCII, no separators, no leading `is`. -/
def normalName (name : List Char) : String :=
  let isLed : Bool :=
    match name with
    | i :: s :: _ => (i == 'i' || i == 'I') && (s == 's' || s == 'S')
    | _ => false
  let body := (if isLed then name.drop 2 else name).filter fun c =>
    c.toNat < 128 && c != ' ' && c != '_' && c != '-'
  let body := body.map Char.toLower
  if isLed && body == ['c'] then "isc" else String.ofList body

def ofCategoryName? (name : String) : Option Property :=
  match name with
  | "any" => some .any
  | "assigned" => some .assigned
  | "ascii" => some .ascii
  | _ => (Text.categoryNames.lookup name).map .category

def ofScriptName? (name : String) : Option Property := (Text.scriptNames.lookup name).map .script

/-- The property that a single normal name stands for. The names `cf`, `sc` and `lc` are always
those of categories. -/
def ofName? (name : String) : Option Property :=
  if !(["cf", "sc", "lc"].contains name) && (Text.propertyNames.lookup name).isSome then
    some (.named name)
  else
    match ofCategoryName? name with
    | some p => some p
    | none => ofScriptName? name

/-- The property that a normal name and a normal value stand for. -/
def ofNameAndValue? (name value : String) : Option Property :=
  match name with
  | "gc" | "generalcategory" => ofCategoryName? value
  | "sc" | "script" => ofScriptName? value
  | "scx" | "scriptextensions" => (Text.scriptNames.lookup value).map .usedBy
  | "age" => (Text.ageNames.lookup value).map .presentIn
  | _ => none

end Property

/-- A set of characters. -/
inductive CharSet where
  | range (low high : Char)
  | having (p : Property)
  | nothing
  | not (s : CharSet)
  | either (a b : CharSet)
  | both (a b : CharSet)
  | oneOf (a b : CharSet)
  /-- The members and all that differ from one only in case. -/
  | caseless (s : CharSet)
  /-- The members and all ASCII letters that differ from one only in case. -/
  | caselessAscii (s : CharSet)
  deriving DecidableEq, Repr

namespace CharSet

instance : Inhabited CharSet := ⟨nothing⟩

def single (c : Char) : CharSet := .range c c

def butNot (a b : CharSet) : CharSet := .both a (.not b)

def contains : CharSet → Char → Bool
  | .range low high, c => decide (low ≤ c) && decide (c ≤ high)
  | .having p, c => p.holds c
  | .nothing, _ => false
  | .not s, c => !s.contains c
  | .either a b, c => a.contains c || b.contains c
  | .both a b, c => a.contains c && b.contains c
  | .oneOf a b, c => a.contains c != b.contains c
  | .caseless s, c => (Text.caseVariants c).any s.contains
  | .caselessAscii s, c => s.contains c || s.contains c.toLower || s.contains c.toUpper

/-- Roughly how many states a matcher over bytes needs for one member of the set. -/
def states : CharSet → Nat
  | .range _ high => if high.toNat < 128 then 1 else 4
  | .having p => 1 + p.runCount * 3 / 4
  | .nothing => 1
  | .not s => 4 + states s
  | .either a b => states a + states b
  | .both a b => states a + states b
  | .oneOf a b => states a + states b
  | .caseless s => 2 * states s
  | .caselessAscii s => states s

def ofList : List CharSet → CharSet
  | [] => .nothing
  | [s] => s
  | s :: rest => .either s (ofList rest)

def digits : CharSet := .having (.category "Nd")

def blanks : CharSet := .having (.named "whitespace")

/-- What words are made of. -/
def wordChars : CharSet :=
  ofList [.having (.named "alphabetic"), .having (.category "M"), .having (.category "Nd"),
    .having (.category "Pc"), .having (.named "joinc")]

def asciiDigits : CharSet := .range '0' '9'

def asciiBlanks : CharSet :=
  ofList [.range '\t' '\n', .range '\x0b' '\r', .single ' ']

def asciiWordChars : CharSet :=
  ofList [.range '0' '9', .range 'A' 'Z', .single '_', .range 'a' 'z']

/-- The classes of ASCII characters that have a name of their own inside brackets. -/
def ofAsciiName? (name : String) : Option CharSet :=
  match name with
  | "alnum" => some (ofList [.range '0' '9', .range 'A' 'Z', .range 'a' 'z'])
  | "alpha" => some (ofList [.range 'A' 'Z', .range 'a' 'z'])
  | "ascii" => some (.range '\x00' '\x7f')
  | "blank" => some (ofList [.single '\t', .single ' '])
  | "cntrl" => some (ofList [.range '\x00' '\x1f', .single '\x7f'])
  | "digit" => some (.range '0' '9')
  | "graph" => some (.range '!' '~')
  | "lower" => some (.range 'a' 'z')
  | "print" => some (.range ' ' '~')
  | "punct" =>
    some (ofList [.range '!' '/', .range ':' '@', .range '[' (Char.ofNat 0x60),
      .range (Char.ofNat 0x7B) '~'])
  | "space" => some (ofList [.range '\t' '\r', .single ' '])
  | "upper" => some (.range 'A' 'Z')
  | "word" => some asciiWordChars
  | "xdigit" => some (ofList [.range '0' '9', .range 'A' 'F', .range 'a' 'f'])
  | _ => none

end CharSet

end GrammarProfile.Pattern
