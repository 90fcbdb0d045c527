import GrammarProfile.Text.Lines
import GrammarProfile.Yaml.Value

/-!
What a plain scalar stands for: the words for null and the booleans, numbers, and text otherwise.
-/
namespace GrammarProfile.Yaml

open GrammarProfile.Decimal (Binary64 twoTo)

/-- The meaning of a plain scalar. -/
inductive Meaning where
  | null
  | bool (b : Bool)
  | number (n : Number)
  /-- A whole number that is too large to be held. -/
  | outOfRange
  | text
  deriving DecidableEq, Repr

namespace Scalar

def isNull (cs : List Char) : Bool := ["null", "Null", "NULL", "~"].contains (String.ofList cs)

def bool? (cs : List Char) : Option Bool :=
  match String.ofList cs with
  | "true" => some true
  | "True" => some true
  | "TRUE" => some true
  | "false" => some false
  | "False" => some false
  | "FALSE" => some false
  | _ => none

def digitIn? (base : Nat) (c : Char) : Option Nat :=
  let n :=
    if c.isDigit then c.toNat - 48
    else if 'a' ≤ c && c ≤ 'z' then c.toNat - 87
    else if 'A' ≤ c && c ≤ 'Z' then c.toNat - 55
    else base
  if n < base then some n else none

/-- The number that digits of a base write; there has to be a digit. -/
def numeral? (base : Nat) (cs : List Char) : Option Nat :=
  if cs.isEmpty then none
  else cs.foldl
    (fun acc c =>
      match acc, digitIn? base c with
      | some n, some d => some (n * base + d)
      | _, _ => none)
    (some 0)

/-- Digits that begin with a zero, possibly after a sign: they write no number. -/
def isZeroLed (cs : List Char) : Bool :=
  let digits :=
    match cs with
    | '-' :: rest => rest
    | '+' :: rest => rest
    | _ => cs
  1 < digits.length && digits.head? == some '0' && digits.all Char.isDigit

/-- The digits after the mark of a base other than ten. -/
def based? (cs : List Char) : Option (Nat × List Char) :=
  match cs with
  | '0' :: 'x' :: rest => some (16, rest)
  | '0' :: 'o' :: rest => some (8, rest)
  | '0' :: 'b' :: rest => some (2, rest)
  | _ => none

def isSigned (cs : List Char) : Bool := cs.head? == some '+' || cs.head? == some '-'

/-- The whole number that a text without a minus sign writes, if it is below `limit`. -/
def natural? (limit : Nat) (cs : List Char) : Option Nat :=
  let body :=
    match cs with
    | '+' :: rest => rest
    | _ => cs
  let bounded (n? : Option Nat) : Option Nat :=
    n?.bind fun n => if n < limit then some n else none
  let plain : Option Nat :=
    if isSigned body || isZeroLed cs then none else bounded (numeral? 10 body)
  match based? body with
  | some (base, digits) =>
    if isSigned digits then none
    else
      match bounded (numeral? base digits) with
      | some n => some n
      | none => plain
  | none => plain

/-- The negated whole number that a text with a minus sign writes, if it is at most `limit`. -/
def negative? (limit : Nat) (cs : List Char) : Option Nat :=
  match cs with
  | '-' :: body =>
    let bounded (n? : Option Nat) : Option Nat :=
      n?.bind fun n => if n ≤ limit then some n else none
    let plain : Option Nat := if isZeroLed cs then none else bounded (numeral? 10 body)
    match based? body with
    | some (base, digits) =>
      match bounded (numeral? base digits) with
      | some n => some n
      | none => plain
    | none => plain
  | _ => none

/-- A whole number; `outOfRange` if it needs more than 64 bits but no more than 128. -/
def whole? (cs : List Char) : Option Meaning :=
  match natural? (twoTo 64) cs, negative? (twoTo 63) cs with
  | some n, _ => some (.number (.int n))
  | none, some n => some (.number (.int (-(n : Int))))
  | none, none =>
    if (natural? (twoTo 128) cs).isSome || (negative? (twoTo 127) cs).isSome then some .outOfRange
    else none

/-- A number with a fraction or an exponent, and the words for infinity and for no number. -/
def float? (cs : List Char) : Option Binary64 :=
  let finite (cs : List Char) : Option Binary64 :=
    (Decimal.readBinary64? cs).bind fun x => if x.isFinite then some x else none
  match String.ofList cs with
  | ".inf" | ".Inf" | ".INF" | "+.inf" | "+.Inf" | "+.INF" => some (.infinite false)
  | "-.inf" | "-.Inf" | "-.INF" => some (.infinite true)
  | ".nan" | ".NaN" | ".NAN" => some .nan
  | _ =>
    match cs with
    | '+' :: rest => if isSigned rest then none else finite rest
    | _ => finite cs

/-- What a plain scalar stands for. -/
def meaning (cs : List Char) : Meaning :=
  if cs.isEmpty || isNull cs then .null
  else
    match bool? cs with
    | some b => .bool b
    | none =>
      match whole? cs with
      | some m => m
      | none =>
        if isZeroLed cs then .text
        else
          match float? cs with
          | some x => .number (.float x)
          | none => .text

end Scalar

end GrammarProfile.Yaml
