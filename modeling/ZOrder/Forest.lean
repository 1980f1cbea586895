/-
  ZOrder.Forest

  The forest without slots: for each band the families that stand on their own in
  it, bottom to top, a family being a window with the families nested under it.
  `Tree.forest` reads it off the slots, and forgets where each window is kept.
-/

import ZOrder.Tree.Basic

namespace ZOrder

/-- A window, its permanent band, and the families nested under it, bottom to top. -/
inductive Family (H : Type) where
  | mk (window : H) (home : Layer) (nested : List (Family H))
  deriving Repr

/-- For each band the families that stand on their own in it, bottom to top. -/
abbrev Forest (H : Type) := Layer → List (Family H)

namespace Tree

variable {H : Type}

/-- The family whose head is in a slot, read at most `depth` levels deep. -/
def familyAt (t : Tree H) : (depth : Nat) → NodeId → Option (Family H)
  | 0, _ => none
  | depth + 1, id =>
    match t.node id with
    | some ⟨.window w home, _, children⟩ =>
      some (.mk w home (children.filterMap (t.familyAt depth)))
    | _ => none

/-- The forest that the slots hold. -/
def forest (t : Tree H) : Forest H := fun l =>
  (t.children (root l)).filterMap (t.familyAt t.nodes.size)

end Tree

end ZOrder
