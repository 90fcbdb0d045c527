import GrammarProfile.Decimal.Binary64

/-!
The shortest decimal text that reads back as a number, and the layout in which it is written.
-/
namespace GrammarProfile.Decimal

/-- The numbers that round to `m · 2^e` lie between `low / den` and `high / den`, both of which
count if `m` is even; the number itself is `value / den`. -/
structure Neighbourhood where
  low : Nat
  value : Nat
  high : Nat
  den : Nat
  closed : Bool

/-- Below a power of two the gap to the next smaller number is half as wide. -/
def neighbourhood (m : Nat) (e : Int) : Neighbourhood :=
  let below := if m == Binary64.hidden && Binary64.minExponent < e then 1 else 2
  let (low, value, high) := (4 * m - below, 4 * m, 4 * m + 2)
  let e := e - 2
  if 0 ≤ e then
    ⟨low * twoTo e.toNat, value * twoTo e.toNat, high * twoTo e.toNat, 1, m % 2 == 0⟩
  else ⟨low, value, high, twoTo (-e).toNat, m % 2 == 0⟩

namespace Neighbourhood

/-- Whether `digits · 10^k` rounds to the number. -/
def admits (n : Neighbourhood) (digits : Nat) (k : Int) : Bool :=
  let (a, b) :=
    if 0 ≤ k then (digits * tenTo k.toNat * n.den, 1) else (digits * n.den, tenTo (-k).toNat)
  if n.closed then n.low * b ≤ a && a ≤ n.high * b else n.low * b < a && a < n.high * b

/-- The best decimal that is a multiple of `10^k`: of the two nearest that round to the number,
the nearer one, and of two equally near the one with an even last digit. -/
def onGrid? (n : Neighbourhood) (k : Int) : Option Nat :=
  let (a, b) :=
    if 0 ≤ k then (n.value, n.den * tenTo k.toNat) else (n.value * tenTo (-k).toNat, n.den)
  let down := a / b
  let up := down + 1
  let nearest := Binary64.roundQuotient a b
  let other := if nearest == down then up else down
  if nearest != 0 && n.admits nearest k then some nearest
  else if other != 0 && n.admits other k then some other
  else none

/-- The first grid from `k` downwards that has a decimal. -/
def coarsest (n : Neighbourhood) : Nat → Int → Nat × Int
  | 0, k => (0, k)
  | fuel + 1, k =>
    match n.onGrid? k with
    | some digits => (digits, k)
    | none => coarsest n fuel (k - 1)

end Neighbourhood

/-- Removes zeros at the end of a number, counting them in the exponent. -/
def stripZeros : Nat → Nat → Int → Nat × Int
  | 0, digits, k => (digits, k)
  | fuel + 1, digits, k =>
    if digits != 0 && digits % 10 == 0 then stripZeros fuel (digits / 10) (k + 1) else (digits, k)

/-- The shortest decimal `digits · 10^k` that reads back as `m · 2^e`, which is not zero. -/
def shortest (m : Nat) (e : Int) : Nat × Int :=
  let n := neighbourhood m e
  let size : Int := (Nat.toDigits 10 (n.high / n.den)).length
  let top : Int := if n.den ≤ n.high then size else 0
  let (digits, k) := n.coarsest 400 top
  stripZeros 20 digits k

/-- Positional up to sixteen digits before the point and from five places after it, else with an
exponent; a whole number has a zero after its point. -/
def layOut (digits : Nat) (k : Int) : String :=
  let ds := Nat.toDigits 10 digits
  let length : Int := ds.length
  let point := length + k
  if 0 ≤ k && point ≤ 16 then String.ofList (ds ++ List.replicate k.toNat '0') ++ ".0"
  else if 0 < point && point ≤ 16 then
    String.ofList (ds.take point.toNat ++ '.' :: ds.drop point.toNat)
  else if -5 < point && point ≤ 0 then
    String.ofList ('0' :: '.' :: List.replicate (-point).toNat '0' ++ ds)
  else
    let mantissa :=
      match ds with
      | [d] => [d]
      | d :: rest => d :: '.' :: rest
      | [] => []
    String.ofList mantissa ++ "e" ++ toString (point - 1)

/-- The text of a number. -/
def Binary64.text : Binary64 → String
  | .nan => ".nan"
  | .infinite negative => if negative then "-.inf" else ".inf"
  | .finite negative m e =>
    let body :=
      if m == 0 then "0.0"
      else
        let (digits, k) := shortest m e
        layOut digits k
    if negative then "-" ++ body else body

end GrammarProfile.Decimal
