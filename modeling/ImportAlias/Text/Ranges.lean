import ImportAlias.Text.Basic

/-!
# Ranges of code points

A property of characters from the Unicode character database is given as a list of ranges of code
points, in increasing order and apart from each other, whose ends are included.
-/

namespace ImportAlias

namespace Text

/-- Whether a code point lies in one of the ranges. -/
def inRanges (ranges : List (Nat × Nat)) (n : Nat) : Bool :=
  ranges.any fun r => decide (r.1 ≤ n) && decide (n ≤ r.2)

end Text

end ImportAlias
