import GrammarProfile.Grammar.Occurs
import GrammarProfile.Text.Lines
import GrammarProfile.Text.Number

/-!
Cardinality labels of a profile: `min..max`, with `*` for no maximum.
-/
namespace GrammarProfile.Profile

open GrammarProfile.Grammar (Count Occurs)

/-- Why a text is no cardinality label. -/
inductive LabelError where
  | form
  | minimum
  | maximum
  | order
  deriving DecidableEq, Repr

def LabelError.message (e : LabelError) (text : String) : String :=
  match e with
  | form => "'" ++ text ++ "' is not of the form min..max"
  | minimum => "invalid minimum in '" ++ text ++ "'"
  | maximum => "invalid maximum in '" ++ text ++ "'"
  | order => "maximum is below minimum in '" ++ text ++ "'"

/-- The parts before and after the first two dots. -/
def splitRange? : List Char → Option (List Char × List Char)
  | '.' :: '.' :: rest => some ([], rest)
  | c :: rest => (splitRange? rest).map fun (a, b) => (c :: a, b)
  | [] => none

/-- The bounds that a label writes. Blanks around the label and its numbers do not count. -/
def readLabel (text : String) : Except LabelError Occurs :=
  match splitRange? (Text.trim text.toList) with
  | none => .error .form
  | some (low, high) =>
    match (Text.count? (Text.trim low)).bind Count.ofNat? with
    | none => .error .minimum
    | some min =>
      if Text.trim high == ['*'] then .ok ⟨min, none⟩
      else
        match (Text.count? (Text.trim high)).bind Count.ofNat? with
        | none => .error .maximum
        | some max => if max.val < min.val then .error .order else .ok ⟨min, some max⟩

/-- The label of bounds. -/
def label (o : Occurs) : String := Grammar.cardinalityLabel o.min o.max

/-- Whether some bounds stay within others. -/
def within (inner outer : Occurs) : Bool :=
  outer.min.val ≤ inner.min.val &&
    match inner.max, outer.max with
    | _, none => true
    | some a, some b => a.val ≤ b.val
    | none, some _ => false

end GrammarProfile.Profile
