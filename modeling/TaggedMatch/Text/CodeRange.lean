/-!
# Sets of code points

A property of characters that comes from a standard is a set of code points. It is written as the
list of its maximal ranges in ascending order, so that two tables of one property are the same
list, and a character is looked up by its code point.
-/

namespace TaggedMatch.Text

/-- A range of code points, both ends included. -/
abbrev CodeRange := Nat × Nat

/-- Whether a character lies in one of the ranges. -/
def inRanges (ranges : List CodeRange) (c : Char) : Bool :=
  ranges.any fun (first, last) => first ≤ c.toNat && c.toNat ≤ last

end TaggedMatch.Text
