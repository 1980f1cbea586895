/-
  ZOrder.FlatStack

  The order of the screen as one list of windows, bottom first: what a compositor
  draws from. `apply` carries out a request on it, `forget` drops a window.
-/

import ZOrder.Request

namespace ZOrder

/-- The windows on the screen, bottom first. -/
structure FlatStack (H : Type) where
  order : List H
  deriving DecidableEq, Repr

namespace FlatStack

variable {H : Type} [DecidableEq H]

/-- No windows. -/
def empty : FlatStack H := ⟨[]⟩

/-- How many windows of an order stay below a run with this anchor. A run whose
anchor is not there goes above all of them. -/
def slot (order : List H) : Anchor H → Nat
  | .above w => ((order.idxOf? w).map (· + 1)).getD order.length
  | .below w => (order.idxOf? w).getD order.length
  | .floor => 0

/-- Takes the windows of a request out of the order and puts them back as one block
against the anchor. A request without windows changes nothing. -/
def apply (s : FlatStack H) (r : Request H) : FlatStack H :=
  if r.windows.isEmpty then s
  else
    let others := s.order.filter fun w => !r.windows.contains w
    let k := slot others r.anchor
    ⟨others.take k ++ r.windows ++ others.drop k⟩

/-- Drops a window, if it is there. -/
def forget (s : FlatStack H) (w : H) : FlatStack H :=
  ⟨s.order.filter (· ≠ w)⟩

end FlatStack

end ZOrder
