/-!
# Blanks

The characters that are dropped at the ends of a written value: Unicode's `White_Space`.

- `isBlank`: membership in that property.
- `trim`, `trimEnd`: the text without the blanks at both ends, or at its end.
-/

namespace InnerLoop.Text

/-- First and last code point of each range of blanks. -/
def blankRanges : List (Nat × Nat) := [
  (0x9, 0xd), (0x20, 0x20), (0x85, 0x85), (0xa0, 0xa0), (0x1680, 0x1680), (0x2000, 0x200a),
  (0x2028, 0x2029), (0x202f, 0x202f), (0x205f, 0x205f), (0x3000, 0x3000)]

/-- Whether `c` is white space. -/
def isBlank (c : Char) : Bool :=
  blankRanges.any fun r => r.1 ≤ c.toNat && c.toNat ≤ r.2

/-- `cs` without the blanks it ends in. -/
def trimEnd (cs : List Char) : List Char :=
  (cs.reverse.dropWhile isBlank).reverse

/-- `cs` without the blanks at its two ends. -/
def trim (cs : List Char) : List Char :=
  trimEnd (cs.dropWhile isBlank)

/-- `trimEnd` on strings. -/
def trimmedEnd (s : String) : String := String.ofList (trimEnd s.toList)

end InnerLoop.Text
