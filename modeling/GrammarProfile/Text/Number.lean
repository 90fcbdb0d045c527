import GrammarProfile.Text.Blank

/-!
Reading and writing whole numbers in decimal.
-/
namespace GrammarProfile.Text

/-- The number that decimal digits write; there has to be a digit. -/
def decimal? (cs : List Char) : Option Nat :=
  if cs.isEmpty || !cs.all Char.isDigit then none
  else some (cs.foldl (fun n c => n * 10 + (c.toNat - 48)) 0)

/-- A number of at most 4294967295; it may follow a plus sign. -/
def count? (cs : List Char) : Option Nat :=
  let digits :=
    match cs with
    | '+' :: rest => rest
    | _ => cs
  match decimal? digits with
  | some n => if n ≤ 4294967295 then some n else none
  | none => none

end GrammarProfile.Text
