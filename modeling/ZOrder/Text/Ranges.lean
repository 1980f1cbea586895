/-
  ZOrder.Text.Ranges

  Sets of numbers as lists of inclusive ranges, the form that properties of
  characters are written in.
-/

namespace ZOrder.Text

/-- Whether a number lies in one of the inclusive ranges. -/
def inRanges (ranges : List (Nat × Nat)) (n : Nat) : Bool :=
  ranges.any fun r => r.1 ≤ n && n ≤ r.2

end ZOrder.Text
