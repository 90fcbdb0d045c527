/-!
Binary floating point numbers of 64 bits, and the one that is nearest to a decimal number.
-/
namespace GrammarProfile.Decimal

def twoTo (n : Nat) : Nat := Nat.pow 2 n

def tenTo (n : Nat) : Nat := Nat.pow 10 n

/-- A number `±m · 2^e`, an infinity, or no number. -/
inductive Binary64 where
  | nan
  | infinite (negative : Bool)
  | finite (negative : Bool) (m : Nat) (e : Int)
  deriving DecidableEq, Repr, Inhabited

namespace Binary64

/-- The least exponent, which is that of the numbers next to zero. -/
def minExponent : Int := -1074

/-- The greatest exponent. -/
def maxExponent : Int := 971

/-- The least mantissa of a number that is not next to zero. -/
def hidden : Nat := twoTo 52

def zero (negative : Bool) : Binary64 := .finite negative 0 minExponent

/-- Equality of numbers: both zeros are equal, and what is no number equals itself. -/
def same (a b : Binary64) : Bool :=
  match a, b with
  | .finite _ 0 _, .finite _ 0 _ => true
  | _, _ => a == b

def isFinite : Binary64 → Bool
  | .finite _ _ _ => true
  | _ => false

/-- The whole number nearest to a quotient; a half goes to the even neighbour. -/
def roundQuotient (num den : Nat) : Nat :=
  let q := num / den
  let r := num % den
  if 2 * r < den then q
  else if den < 2 * r then q + 1
  else q + q % 2

/-- A quotient divided by a power of two, as a quotient. -/
def scaleDown (num den : Nat) (e : Int) : Nat × Nat :=
  if 0 ≤ e then (num, den * twoTo e.toNat) else (num * twoTo (-e).toNat, den)

/-- The number nearest to a quotient other than zero. -/
def ofQuotient (negative : Bool) (num den : Nat) : Binary64 :=
  let guess : Int := (num.log2 : Int) - (den.log2 : Int) - 52
  let fit (e : Int) : Int :=
    let (a, b) := scaleDown num den e
    if a < hidden * b then e - 1 else e
  let e := max minExponent (fit guess)
  let (a, b) := scaleDown num den e
  let m := roundQuotient a b
  let (m, e) := if m == 2 * hidden then (hidden, e + 1) else (m, e)
  if maxExponent < e then .infinite negative else .finite negative m e

/-- The number nearest to `digits · 10^exponent`. -/
def ofDecimal (negative : Bool) (digits : Nat) (exponent : Int) : Binary64 :=
  let size : Int := (Nat.toDigits 10 digits).length
  if digits == 0 || exponent + size < -330 then zero negative
  else if 310 < exponent + size then .infinite negative
  else if 0 ≤ exponent then ofQuotient negative (digits * tenTo exponent.toNat) 1
  else ofQuotient negative digits (tenTo (-exponent).toNat)

end Binary64

/-- The whole number that decimal digits write. -/
def digitsValue (cs : List Char) : Nat := cs.foldl (fun n c => n * 10 + (c.toNat - 48)) 0

/-- The exponent part of a decimal number: nothing, or a mark, an optional sign and digits. -/
def readExponent? (cs : List Char) : Option Int :=
  match cs with
  | [] => some 0
  | c :: rest =>
    if c == 'e' || c == 'E' then
      let (negative, ds) :=
        match rest with
        | '-' :: ds => (true, ds)
        | '+' :: ds => (false, ds)
        | ds => (false, ds)
      if ds.isEmpty || !ds.all Char.isDigit then none
      else
        let n : Int := digitsValue ds
        some (if negative then -n else n)
    else none

/-- The number that a text writes in decimal: a sign, digits with a point among or beside them,
and an exponent. Only the digits are required. -/
def readBinary64? (cs : List Char) : Option Binary64 :=
  let (negative, cs) :=
    match cs with
    | '-' :: rest => (true, rest)
    | '+' :: rest => (false, rest)
    | rest => (false, rest)
  let whole := cs.takeWhile Char.isDigit
  let (fraction, rest) :=
    match cs.dropWhile Char.isDigit with
    | '.' :: rest => (rest.takeWhile Char.isDigit, rest.dropWhile Char.isDigit)
    | rest => ([], rest)
  if whole.isEmpty && fraction.isEmpty then none
  else
    (readExponent? rest).map fun e =>
      Binary64.ofDecimal negative (digitsValue (whole ++ fraction)) (e - fraction.length)

end GrammarProfile.Decimal
