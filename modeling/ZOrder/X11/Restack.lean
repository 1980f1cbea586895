/-
  ZOrder.X11.Restack

  Requests as calls of an X server, which moves one window at a time: directly above
  or below a sibling, or without a sibling to the top or the bottom of the screen.
  `plan` is the list of calls for a request, `Restack.apply` what a call does to the
  order of the screen.
-/

import ZOrder.Request

namespace ZOrder.X11

/-- The side of a sibling that a window goes to, or the end of the screen. -/
inductive StackMode where
  | above
  | below
  deriving DecidableEq, Repr

/-- The name of a side. -/
def StackMode.name : StackMode → String
  | .above => "Above"
  | .below => "Below"

/-- One call: a window is placed against a sibling, or at an end of the screen. -/
structure Restack (H : Type) where
  window : H
  sibling : Option H
  mode : StackMode
  deriving DecidableEq, Repr

namespace Restack

variable {H : Type}

/-- The call that places a window against an anchor. -/
def ofPlacement (placement : H × Anchor H) : Restack H :=
  match placement.2 with
  | .above w => ⟨placement.1, some w, .above⟩
  | .below w => ⟨placement.1, some w, .below⟩
  | .floor => ⟨placement.1, none, .below⟩

/-- What a call does to the order of the screen, bottom first. A sibling that is not on
the screen, or is the window itself, makes the call fail. -/
def apply [DecidableEq H] (order : List H) (c : Restack H) : List H :=
  let others := order.filter (· ≠ c.window)
  match c.sibling, c.mode with
  | none, .below => c.window :: others
  | none, .above => others ++ [c.window]
  | some w, mode =>
    match others.idxOf? w with
    | none => order
    | some k => others.insertIdx (if mode = .above then k + 1 else k) c.window

end Restack

/-- The calls that carry out a request, bottom window first. -/
def plan {H : Type} (r : Request H) : List (Restack H) :=
  r.placements.map Restack.ofPlacement

end ZOrder.X11
