import GrammarProfile.Decimal.Shortest

/-!
The values that YAML documents stand for.
-/
namespace GrammarProfile.Yaml

open GrammarProfile.Decimal (Binary64)

inductive Number where
  | int (n : Int)
  | float (x : Binary64)
  deriving DecidableEq, Repr, Inhabited

namespace Number

def same : Number → Number → Bool
  | .int a, .int b => a == b
  | .float a, .float b => a.same b
  | _, _ => false

def text : Number → String
  | .int n => toString n
  | .float x => x.text

end Number

/-- A value. The pairs of a mapping have different keys and keep their order. -/
inductive Value where
  | null
  | bool (b : Bool)
  | number (n : Number)
  | string (s : String)
  | sequence (items : List Value)
  | mapping (pairs : List (Value × Value))
  | tagged (tag : String) (value : Value)
  deriving Inhabited

/-- A tag without the mark that it may begin with. -/
def bareTag (tag : String) : String :=
  match tag.toList with
  | '!' :: c :: rest => String.ofList (c :: rest)
  | _ => tag

namespace Value

mutual

/-- Equality of values, which does not ask for the order of the pairs of a mapping. -/
def same : Value → Value → Bool
  | .null, b => match b with
    | .null => true
    | _ => false
  | .bool x, b => match b with
    | .bool y => x == y
    | _ => false
  | .number x, b => match b with
    | .number y => x.same y
    | _ => false
  | .string x, b => match b with
    | .string y => x == y
    | _ => false
  | .sequence xs, b => match b with
    | .sequence ys => sameItems xs ys
    | _ => false
  | .mapping xs, b => match b with
    | .mapping ys => xs.length == ys.length && samePairs xs ys
    | _ => false
  | .tagged t x, b => match b with
    | .tagged u y => bareTag t == bareTag u && same x y
    | _ => false

def sameItems : List Value → List Value → Bool
  | [], ys => ys.isEmpty
  | x :: xs, ys => match ys with
    | y :: ys => same x y && sameItems xs ys
    | [] => false

/-- Whether each of some pairs is also one of others. -/
def samePairs : List (Value × Value) → List (Value × Value) → Bool
  | [], _ => true
  | (k, v) :: rest, ys => ys.any (fun p => same k p.1 && same v p.2) && samePairs rest ys

end

/-- The value below its tags. -/
def untagged : Value → Value
  | .tagged _ v => untagged v
  | v => v

/-- The text of a key or item that is a single word or number. -/
def scalarText? : Value → Option String
  | .string s => some s
  | .number n => some n.text
  | .bool b => some (toString b)
  | _ => none

/-- The text of a string, below its tags. -/
def string? (v : Value) : Option String :=
  match v.untagged with
  | .string s => some s
  | _ => none

/-- The items of a list, below its tags. -/
def items? (v : Value) : Option (List Value) :=
  match v.untagged with
  | .sequence items => some items
  | _ => none

/-- The pairs of a mapping, below its tags. -/
def pairs? (v : Value) : Option (List (Value × Value)) :=
  match v.untagged with
  | .mapping pairs => some pairs
  | _ => none

/-- Changes the pairs of a mapping, below its tags. -/
def editPairs (f : List (Value × Value) → List (Value × Value)) : Value → Value
  | .mapping pairs => .mapping (f pairs)
  | .tagged t v => .tagged t (editPairs f v)
  | v => v

end Value

/-- The pairs of a mapping, of which those whose key is a given text can be read and changed. -/
abbrev Pairs := List (Value × Value)

namespace Pairs

/-- Whether a key is a given text. -/
def isKey (name : String) : Value → Bool
  | .string s => s == name
  | _ => false

def get? (pairs : Pairs) (name : String) : Option Value :=
  (pairs.find? fun p => isKey name p.1).map Prod.snd

def contains (pairs : Pairs) (name : String) : Bool := pairs.any fun p => isKey name p.1

/-- The value of a known key is replaced in its place; a new key comes last. -/
def set (name : String) (value : Value) : Pairs → Pairs
  | [] => [(.string name, value)]
  | (k, v) :: rest => if isKey name k then (k, value) :: rest else (k, v) :: set name value rest

/-- Changes the value of a key, if it is there. -/
def update (name : String) (f : Value → Value) (pairs : Pairs) : Pairs :=
  pairs.map fun p => if isKey name p.1 then (p.1, f p.2) else p

def erase (pairs : Pairs) (name : String) : Pairs := pairs.filter fun p => !isKey name p.1

/-- The keys that have a text. -/
def names (pairs : Pairs) : List String := pairs.filterMap fun p => p.1.scalarText?

end Pairs

end GrammarProfile.Yaml
