/-!
# Blanks

Rules, instants and settings are written by hand, so blanks around their parts do not count.  A
**blank** is a character with the Unicode property `White_Space`.  The zero-width space and the
byte-order mark do not have it.

## Main Definitions

* `isBlank`: the property
* `trimLeft`, `trim`: a text without the blanks at its start, or at both its ends
* `IsTrimmed`: no blank at either end
-/

namespace Recurrence.Text

/-- The characters with the Unicode property `White_Space`: the five control characters from tab to
carriage return, the space, next line, the no-break space, and the spaces and separators of the
blocks above U+1000. -/
def isBlank (c : Char) : Bool :=
  let n := c.toNat
  (9 ≤ n && n ≤ 13) || n == 0x20 || n == 0x85 || n == 0xA0 || n == 0x1680 ||
    (0x2000 ≤ n && n ≤ 0x200A) || n == 0x2028 || n == 0x2029 || n == 0x202F || n == 0x205F ||
    n == 0x3000

/-- The text from its first character that is not a blank. -/
def trimLeft (s : List Char) : List Char := s.dropWhile isBlank

/-- The text without the blanks at its two ends. -/
def trim (s : List Char) : List Char := (trimLeft (trimLeft s).reverse).reverse

/-- Neither the first nor the last character is a blank. -/
def IsTrimmed (s : List Char) : Prop :=
  (∀ c, s.head? = some c → isBlank c = false) ∧ (∀ c, s.getLast? = some c → isBlank c = false)

end Recurrence.Text
