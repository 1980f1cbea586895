/-
  ZOrder.Position

  Where a window goes among its new siblings. Siblings are listed bottom to top.
-/

namespace ZOrder

/-- A place among siblings. -/
inductive Position where
  /-- Above all siblings. -/
  | top
  /-- Below all siblings. -/
  | bottom
  /-- Above this many siblings, or above all of them if they are fewer. -/
  | index (n : UInt64)
  deriving DecidableEq, Repr

/-- How many of `count` siblings end up below the new one. -/
def Position.slot (p : Position) (count : Nat) : Nat :=
  match p with
  | .top => count
  | .bottom => 0
  | .index n => min n.toNat count

theorem Position.slot_le (p : Position) (count : Nat) : p.slot count ≤ count := by
  cases p with
  | top => exact Nat.le_refl _
  | bottom => exact Nat.zero_le _
  | index n => exact Nat.min_le_right _ _

end ZOrder
