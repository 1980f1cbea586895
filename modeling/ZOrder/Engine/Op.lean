/-
  ZOrder.Engine.Op

  The operations of the engine as data, so that runs of them can be spoken of. Each
  answers whether it changed the stacking.
-/

import ZOrder.Engine.Focus
import ZOrder.Engine.Moving
import ZOrder.Engine.Tracking

namespace ZOrder

/-- An operation on windows. -/
inductive Op (H : Type) where
  /-- Start to track a window in the default band, at the default place. -/
  | add (w : H)
  /-- Start to track a window in a band, at a place. -/
  | addAt (w : H) (layer : Layer) (position : Position)
  /-- Stop tracking a window. -/
  | remove (w : H)
  /-- Move past the next sibling above. -/
  | up (w : H)
  /-- Move past the next sibling below. -/
  | down (w : H)
  /-- Move above all siblings. -/
  | toTop (w : H)
  /-- Move below all siblings. -/
  | toBottom (w : H)
  /-- Move the family to a band, at a place. -/
  | toLayer (w : H) (layer : Layer) (position : Position)
  /-- Move the family to the front until it loses the focus. -/
  | toFront (w : H)
  /-- Enter or leave the fullscreen band. -/
  | fullscreen (w : H) (on : Bool)
  /-- Take the focus. -/
  | focus (w : H)
  deriving DecidableEq, Repr

namespace Engine

variable {H : Type} [DecidableEq H]

/-- Carries out one operation under some answers about windows. -/
def perform (e : Engine H) (q : Query H) : Op H → Bool × Engine H
  | .add w => e.add q w
  | .addAt w l p => e.addAt q w l p
  | .remove w => e.remove w
  | .up w => e.shift q w .up
  | .down w => e.shift q w .down
  | .toTop w => e.moveTo w .top
  | .toBottom w => e.moveTo w .bottom
  | .toLayer w l p => e.moveToLayer w l p
  | .toFront w => e.bringToFront w
  | .fullscreen w on => e.setFullscreen w on
  | .focus w => e.focus w

/-- Whether an operation needs to know anything about windows: where a new window belongs,
or which siblings a window can pass. -/
def asks (e : Engine H) : Op H → Bool
  | .add w | .addAt w _ _ => !e.tree.contains w
  | .up w | .down w => ((e.tree.get w).bind e.tree.parent).isSome
  | _ => false

/-- Carries out operations in turn, each under answers of its own. -/
def performAll (e : Engine H) (steps : List (Query H × Op H)) : Engine H :=
  steps.foldl (fun e step => (e.perform step.1 step.2).2) e

end Engine

end ZOrder
