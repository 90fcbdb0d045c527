/-!
How often a part of a content model may occur. Counts stop at a fixed largest value instead of
growing further, and a missing maximum means that there is none.
-/
namespace GrammarProfile.Grammar

/-- A count of occurrences, at most 4294967295. -/
structure Count where
  val : Nat
  le_limit : val ≤ 4294967295
  deriving DecidableEq

namespace Count

def limit : Nat := 4294967295

/-- The nearest count: numbers above the limit become the limit. -/
def clamp (n : Nat) : Count := ⟨min n 4294967295, Nat.min_le_right _ _⟩

/-- The count `n`, if it is one. -/
def ofNat? (n : Nat) : Option Count :=
  if h : n ≤ 4294967295 then some ⟨n, h⟩ else none

def zero : Count := ⟨0, Nat.zero_le _⟩

def one : Count := ⟨1, by decide⟩

instance : Inhabited Count := ⟨zero⟩

def add (a b : Count) : Count := clamp (a.val + b.val)

def mul (a b : Count) : Count := clamp (a.val * b.val)

def min (a b : Count) : Count := if a.val ≤ b.val then a else b

def max (a b : Count) : Count := if a.val ≤ b.val then b else a

end Count

/-- A minimum, and a maximum unless the part may repeat without end. -/
structure Occurs where
  min : Count
  max : Option Count
  deriving DecidableEq

namespace Occurs

instance : Inhabited Occurs := ⟨⟨Count.zero, none⟩⟩

def once : Occurs := ⟨Count.one, some Count.one⟩

def never : Occurs := ⟨Count.zero, some Count.zero⟩

/-- Bounds of two parts that both appear. -/
def add (a b : Occurs) : Occurs :=
  ⟨a.min.add b.min,
    match a.max, b.max with
    | some x, some y => some (x.add y)
    | _, _ => none⟩

/-- Bounds of a part inside a repeated compositor; a maximum of zero wins over no maximum. -/
def times (a outer : Occurs) : Occurs :=
  ⟨a.min.mul outer.min,
    match a.max, outer.max with
    | some x, some y => some (x.mul y)
    | some x, none => if x.val = 0 then some x else none
    | none, some y => if y.val = 0 then some y else none
    | none, none => none⟩

/-- The tightest bounds that admit whatever one of the two admits. -/
def widest (a b : Occurs) : Occurs :=
  ⟨a.min.min b.min,
    match a.max, b.max with
    | some x, some y => some (x.max y)
    | _, _ => none⟩

end Occurs

/-- The written form of bounds: `min..max`, with `*` for no maximum. -/
def cardinalityLabel (min : Count) (max : Option Count) : String :=
  match max with
  | some m => toString min.val ++ ".." ++ toString m.val
  | none => toString min.val ++ "..*"

end GrammarProfile.Grammar
