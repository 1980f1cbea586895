/-
  ZOrder.Proofs.Engine.Reachable

  The engines that a caller can meet: those that any operations lead to, under any
  answers about windows, from an engine without windows, whatever part of the queue
  has been sent on the way. Their forests are sound, which is all that the theorems
  about them use.
-/

import ZOrder.Proofs.Engine.Change
import ZOrder.Proofs.Tree.WellFormed

namespace ZOrder.Engine

variable {H : Type} [DecidableEq H] {e : Engine H}

/-- An engine that some run of operations leads to. -/
inductive Reachable : Engine H → Prop
  /-- No window is tracked yet. -/
  | start (s : Settings) : Reachable (.ofSettings s)
  /-- An operation is carried out, under any answers. -/
  | perform {e : Engine H} (q : Query H) (op : Op H) (h : Reachable e) :
      Reachable (e.perform q op).2
  /-- The oldest requests have been sent. -/
  | sent {e : Engine H} (n : Nat) (h : Reachable e) :
      Reachable { e with queue := e.queue.drop n }

theorem Reachable.performAll (h : Reachable e) (steps : List (Query H × Op H)) :
    Reachable (e.performAll steps) := by
  induction steps generalizing e with
  | nil => exact h
  | cons step rest ih => exact ih (.perform step.1 step.2 h)

theorem Reachable.sound (h : Reachable e) : e.tree.Sound none := by
  induction h with
  | start s => exact Tree.sound_empty
  | perform q op _ ih => exact perform_sound ih q op
  | sent n _ ih => exact ih

/-- Whatever the operations of a run and the answers they see, the forest keeps its form. -/
theorem performAll_wellFormed (s : Settings) (steps : List (Query H × Op H)) :
    ((Engine.ofSettings s).performAll steps).tree.WellFormed :=
  (performAll_sound Tree.sound_empty steps).wellFormed

end ZOrder.Engine
