/-!
Blank characters and what is cut at them: trimming a text and splitting it into words.
-/
namespace GrammarProfile.Text

/-- A character with the Unicode property White_Space. -/
def isBlank (c : Char) : Bool :=
  let n := c.toNat
  (9 ≤ n && n ≤ 13) || n == 32 || n == 0x85 || n == 0xA0 || n == 0x1680 ||
    (0x2000 ≤ n && n ≤ 0x200A) || n == 0x2028 || n == 0x2029 || n == 0x202F ||
    n == 0x205F || n == 0x3000

theorem isBlank_of_isWhitespace {c : Char} (h : c.isWhitespace = true) : isBlank c = true := by
  simp only [Char.isWhitespace, Bool.or_eq_true, decide_eq_true_eq] at h
  rcases h with ((h | h) | h) | h <;> subst h <;> decide

/-- Removes what satisfies `p` at the end. -/
def dropEndWhile {α : Type} (p : α → Bool) : List α → List α
  | [] => []
  | a :: rest =>
    match dropEndWhile p rest with
    | [] => if p a then [] else [a]
    | kept => a :: kept

def trimStart (cs : List Char) : List Char := cs.dropWhile isBlank

def trimEnd (cs : List Char) : List Char := dropEndWhile isBlank cs

def trim (cs : List Char) : List Char := trimEnd (trimStart cs)

/-- Cuts at every run of characters that satisfy `p`; no piece is empty. -/
def splitRuns (p : Char → Bool) : List Char → List (List Char)
  | [] => []
  | c :: rest =>
    if p c then splitRuns p rest
    else
      match rest, splitRuns p rest with
      | d :: _, piece :: pieces => if p d then [c] :: piece :: pieces else (c :: piece) :: pieces
      | _, pieces => [c] :: pieces

/-- The words of a text: its longest runs without a blank. -/
def words (cs : List Char) : List (List Char) := splitRuns isBlank cs

def trimmed (s : String) : String := String.ofList (trim s.toList)

end GrammarProfile.Text
