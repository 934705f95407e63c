/-!
# Ranges of code points

A class of characters above the ASCII range is a list of ranges, given by the first and the last
code point of each.
-/

namespace ResultCache.Text

/-- The first and last code points of each range, in ascending order. -/
abbrev Ranges := Array (Nat × Nat)

/-- Whether the code point of the character lies in one of the ranges. -/
def Ranges.contains (ranges : Ranges) (c : Char) : Bool :=
  ranges.any fun (first, last) => first ≤ c.toNat && c.toNat ≤ last

end ResultCache.Text
