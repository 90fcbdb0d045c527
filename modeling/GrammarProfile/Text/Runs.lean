/-!
Labels for all code points, kept as runs of neighbours with one label.
-/
namespace GrammarProfile.Text

/-- The first code point of each run, with the label of the run. -/
structure Runs where
  starts : Array (Nat × String)
  deriving Inhabited

namespace Runs

/-- Reads runs written as a length and a label of letters, one after the other. -/
def readRuns (position length : Nat) (label : List Char) (done : Array (Nat × String)) :
    List Char → Array (Nat × String)
  | [] => if label.isEmpty then done else done.push (position, String.ofList label.reverse)
  | c :: rest =>
    if c.isDigit then
      if label.isEmpty then readRuns position (length * 10 + (c.toNat - 48)) [] done rest
      else
        readRuns (position + length) (c.toNat - 48) []
          (done.push (position, String.ofList label.reverse)) rest
    else readRuns position length (c :: label) done rest

def ofText (pieces : List String) : Runs :=
  ⟨readRuns 0 0 [] #[] (pieces.flatMap String.toList)⟩

/-- The last run among those from `low` up to `high` that begins at or before `n`. -/
def locate (runs : Array (Nat × String)) (n : Nat) : Nat → Nat → Nat → Nat
  | 0, low, _ => low
  | fuel + 1, low, high =>
    if high ≤ low + 1 then low
    else
      let middle := (low + high) / 2
      match runs[middle]? with
      | some (start, _) => if start ≤ n then locate runs n fuel middle high
        else locate runs n fuel low middle
      | none => low

/-- The label of a code point. -/
def labelAt (runs : Runs) (n : Nat) : String :=
  match runs.starts[locate runs.starts n runs.starts.size 0 runs.starts.size]? with
  | some (_, label) => label
  | none => ""

end Runs

end GrammarProfile.Text
