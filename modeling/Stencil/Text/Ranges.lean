/-! Sets of characters as lists of ranges of code points. -/

namespace Stencil.Text

/-- Whether a character lies in one of the ranges, which include both their ends. -/
def inRanges (ranges : List (Nat × Nat)) (c : Char) : Bool :=
  ranges.any fun (low, high) => low ≤ c.toNat && c.toNat ≤ high

end Stencil.Text
