import ImportAlias.Text.Basic

/-!
# Blank characters

The characters with the Unicode property `White_Space`. They are more than the four that separate
tokens of a configuration file.
-/

namespace ImportAlias

namespace Text

/-- Whether a character has the property `White_Space`. -/
def isBlank (c : Char) : Bool :=
  let n := c.toNat
  decide (0x9 ≤ n) && decide (n ≤ 0xd) || n == 0x20 || n == 0x85 || n == 0xa0 || n == 0x1680 ||
    decide (0x2000 ≤ n) && decide (n ≤ 0x200a) || n == 0x2028 || n == 0x2029 || n == 0x202f ||
    n == 0x205f || n == 0x3000

end Text

end ImportAlias
