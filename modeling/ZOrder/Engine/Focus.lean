/-
  ZOrder.Engine.Focus

  When a window takes the focus, every family in a temporary band that does not
  hold it goes back to its permanent band: directly below the family of the focused
  window if that is in the same band, else to the top. Each family is requested as
  soon as it has moved, since the display server applies the requests one by one.
-/

import ZOrder.Engine.Basic

namespace ZOrder.Engine

variable {H : Type} [DecidableEq H]

/-- The families in the temporary bands that do not hold a node. -/
def demoted (tree : Tree H) (focused : NodeId) : List NodeId :=
  (tree.children (Tree.root .fullscreen) ++ tree.children (Tree.root .bringToFront)).filter
    fun family => !tree.isInSubtree family focused

/-- How many families of a band stay below one that goes back there: those below the
family of the focused node if it is in that band, else all. -/
def returnSlot (tree : Tree H) (home : Layer) (focused : NodeId) : Option Nat :=
  match tree.topLevel focused with
  | some family =>
    if tree.layerOf family = some home then tree.position family
    else some (tree.children (Tree.root home)).length
  | none => some (tree.children (Tree.root home)).length

/-- Moves one family back to its permanent band. -/
def demote (e : Engine H) (focused family : NodeId) : Engine H :=
  let home := (e.tree.home family).getD e.defaultLayer
  match e.tree.detach family with
  | none => e
  | some (tree, _) =>
    match returnSlot tree home focused with
    | none => { e with tree }
    | some slot =>
      match tree.attach (Tree.root home) family slot with
      | none => { e with tree }
      | some (tree, _) => { e with tree }.sync [family]

/-- A window takes the focus. True if any family went back to its permanent band. -/
def focus (e : Engine H) (w : H) : Bool × Engine H :=
  if !e.demoteOnFocus then (false, e)
  else
    match e.tree.get w with
    | none => (false, e)
    | some focused =>
      let families := demoted e.tree focused
      if families.isEmpty then (false, e)
      else (true, families.foldl (fun e family => e.demote focused family) e)

end ZOrder.Engine
