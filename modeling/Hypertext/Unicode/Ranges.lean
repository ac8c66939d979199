/-! # Sets of code points as ranges

A character property is data: the ranges of code points that have it. -/

namespace Hypertext.Unicode

/-- Closed ranges of code points. -/
abbrev CodeRanges := List (Nat × Nat)

/-- Some range has the character. -/
def CodeRanges.holds (ranges : CodeRanges) (c : Char) : Bool :=
  ranges.any fun (low, high) => low ≤ c.toNat && c.toNat ≤ high

end Hypertext.Unicode
