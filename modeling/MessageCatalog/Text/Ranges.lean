/-!
# Ranges of characters

Classes of characters given as lists of ranges of code points.
-/

namespace MessageCatalog.Text

/-- Whether a number lies in one of the ranges, both ends included. -/
def inRanges (ranges : List (Nat × Nat)) (n : Nat) : Bool :=
  ranges.any fun range => range.1 ≤ n && n ≤ range.2

end MessageCatalog.Text
