/-!
# Ranges of characters

A property of characters that Unicode gives by a table is held as the ranges of code points that
have it, in ascending order.

## Main Definitions

* `CodeRanges`, `CodeRanges.contains`: a table, and the characters that have its property
-/

namespace Recurrence.Text

/-- The first and the last code points of ranges, in ascending order. -/
abbrev CodeRanges := List (Nat × Nat)

/-- Is a character in one of the ranges? -/
def CodeRanges.contains (ranges : CodeRanges) (c : Char) : Bool :=
  ranges.any fun range => range.1 ≤ c.toNat && c.toNat ≤ range.2

end Recurrence.Text
