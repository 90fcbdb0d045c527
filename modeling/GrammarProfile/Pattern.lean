import GrammarProfile.Pattern.Reader

/-!
Patterns that a value has to match as a whole.
-/
namespace GrammarProfile

/-- A pattern facet: its source, and the expression that anchors the source on both sides. -/
structure Pattern where
  source : String
  expr : Pattern.Expr
  deriving DecidableEq, Inhabited

namespace Pattern

/-- The source set between anchors, in a group of its own. -/
def anchored (source : List Char) : List Char := "^(?:".toList ++ source ++ ")$".toList

def compile (source : String) : Except Error Pattern :=
  (readExpr (anchored source.toList)).map (⟨source, ·⟩)

/-- Whether the anchored expression matches in the value. -/
def accepts (p : Pattern) (value : String) : Bool := p.expr.occursIn value.toList.toArray

end Pattern

end GrammarProfile
