/-! Sets of code points, each written as a list of arithmetic progressions. A progression with
stride two is a block in which upper and lower case letters alternate.
-/

namespace IncrementalLisp.Text

/-- A triple (first, last, stride) holds first, first + stride, and so on up to last. -/
abbrev CodeRange := Nat × Nat × Nat

/-- Membership of a code point in one progression. -/
def CodeRange.holds : CodeRange → Nat → Bool
  | (first, last, stride), code =>
      first ≤ code && code ≤ last && (code - first) % stride == 0

/-- Membership of a character in a set written as progressions. -/
def inRanges (ranges : List CodeRange) (c : Char)
    : Bool :=
  ranges.any (·.holds c.toNat)

end IncrementalLisp.Text
