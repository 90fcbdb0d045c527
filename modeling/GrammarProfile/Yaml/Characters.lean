/-!
Classes of characters that the rules for YAML text speak of.
-/
namespace GrammarProfile.Yaml

/-- A character that ends a line. -/
def isBreak (c : Char) : Bool :=
  c == '\n' || c == '\r' || c == '\x85' || c == '\u2028' || c == '\u2029'

/-- A space or a tab. -/
def isSpacing (c : Char) : Bool := c == ' ' || c == '\t'

/-- A blank or the end of a line; a NUL counts as one. -/
def isGap (c : Char) : Bool := isSpacing c || isBreak c || c == '\x00'

/-- A character that may stand outside double quotes when a text is written. -/
def isPrintable (c : Char) : Bool :=
  let n := c.toNat
  n == 0xA || (0x20 ≤ n && n ≤ 0x7E) || (0xA0 ≤ n && n ≤ 0xFFFD && n != 0xFEFF) || 0x10000 ≤ n

/-- A letter of the basic alphabet, a digit, `-` or `_`. -/
def isWordChar (c : Char) : Bool := c.isAlphanum || c == '-' || c == '_'

end GrammarProfile.Yaml
