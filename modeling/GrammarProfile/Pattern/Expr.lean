import GrammarProfile.Pattern.CharSet

/-!
Regular expressions over characters, and where in a text they match. A match runs between two
positions of a text; a set of positions is kept as an ascending list.
-/
namespace GrammarProfile.Pattern

/-- A condition on a position of a text, which takes no characters. -/
inductive Look where
  | textStart
  | textEnd
  | lineStart
  | lineEnd
  /-- Lines may also end in a carriage return, or in one and a line feed. -/
  | anyLineStart
  | anyLineEnd
  | boundary (ascii : Bool)
  | noBoundary (ascii : Bool)
  | wordStart (ascii : Bool)
  | wordEnd (ascii : Bool)
  | wordStartHalf (ascii : Bool)
  | wordEndHalf (ascii : Bool)
  deriving DecidableEq, Repr

inductive Expr where
  | empty
  | one (s : CharSet)
  | look (l : Look)
  | concat (a b : Expr)
  | either (a b : Expr)
  /-- At least `min` times, and at most `max` times unless it is missing. -/
  | «repeat» (min : Nat) (max : Option Nat) (e : Expr)
  deriving DecidableEq, Repr

instance : Inhabited Expr := ⟨.empty⟩

namespace Look

def isWord (ascii : Bool) (c : Option Char) : Bool :=
  match c with
  | some c => if ascii then CharSet.asciiWordChars.contains c else CharSet.wordChars.contains c
  | none => false

/-- Whether the condition holds between the characters before and after a position. -/
def holds (l : Look) (before after : Option Char) : Bool :=
  match l with
  | textStart => before.isNone
  | textEnd => after.isNone
  | lineStart => before.isNone || before == some '\n'
  | lineEnd => after.isNone || after == some '\n'
  | anyLineStart =>
    before.isNone || before == some '\n' || (before == some '\r' && after != some '\n')
  | anyLineEnd =>
    after.isNone || after == some '\r' || (after == some '\n' && before != some '\r')
  | boundary ascii => isWord ascii before != isWord ascii after
  | noBoundary ascii => isWord ascii before == isWord ascii after
  | wordStart ascii => !isWord ascii before && isWord ascii after
  | wordEnd ascii => isWord ascii before && !isWord ascii after
  | wordStartHalf ascii => !isWord ascii before
  | wordEndHalf ascii => !isWord ascii after

end Look

/-- The character before a position. -/
def before? (text : Array Char) (i : Nat) : Option Char :=
  match i with
  | 0 => none
  | j + 1 => text[j]?

/-- The union of two sets of positions. -/
def union : List Nat → List Nat → List Nat
  | [], ys => ys
  | x :: xs, ys => ys.takeWhile (· < x) ++ x :: union xs (ys.dropWhile (· ≤ x))

/-- The positions of the first set that are not in the second. -/
def minus : List Nat → List Nat → List Nat
  | [], _ => []
  | x :: xs, ys =>
    let later := ys.dropWhile (· < x)
    if later.head? == some x then minus xs later else x :: minus xs later

/-- All positions that `step` reaches in any number of rounds, at most `fuel`, from `seen`, of
which `fresh` were reached in the last round. -/
def spread (step : List Nat → List Nat) : Nat → List Nat → List Nat → List Nat
  | 0, seen, _ => seen
  | fuel + 1, seen, fresh =>
    match minus (step fresh) seen with
    | [] => seen
    | new => spread step fuel (union seen new) new

namespace Expr

/-- Repeats a step exactly `n` times. -/
def times (step : List Nat → List Nat) : Nat → List Nat → List Nat
  | 0, positions => positions
  | n + 1, positions =>
    match positions with
    | [] => []
    | _ => times step n (step positions)

/-- The positions where a match ends that begins at one of the given positions. -/
def ends (text : Array Char) : Expr → List Nat → List Nat
  | .empty, starts => starts
  | .one s, starts => starts.filterMap fun i =>
    match text[i]? with
    | some c => if s.contains c then some (i + 1) else none
    | none => none
  | .look l, starts => starts.filter fun i => l.holds (before? text i) text[i]?
  | .concat a b, starts => ends text b (ends text a starts)
  | .either a b, starts => union (ends text a starts) (ends text b starts)
  | .repeat min max e, starts =>
    let first := times (ends text e) min starts
    match max with
    | none => spread (ends text e) (text.size + 1) first first
    | some m => spread (ends text e) (m - min) first first

/-- Whether the expression matches some part of the text. -/
def occursIn (e : Expr) (text : Array Char) : Bool :=
  !(e.ends text (List.range (text.size + 1))).isEmpty

/-- The number of states that the expression takes when every repetition is written out. -/
def size : Expr → Nat
  | .empty => 1
  | .one s => s.states
  | .look _ => 1
  | .concat a b => size a + size b
  | .either a b => size a + size b + 2
  | .repeat min max e =>
    match max with
    | none => (if min = 0 then 1 else min) * size e + 2
    | some m => m * size e + (m - min) + 1

end Expr

end GrammarProfile.Pattern
