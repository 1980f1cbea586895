/-
  ZOrder.Engine.Tracking

  Windows come and go. A dialog of a tracked window goes on top of that window's
  other dialogs, whatever band and place were asked for, and shares its permanent
  band. When a window goes, the windows nested under it take its place.
-/

import ZOrder.Engine.Basic

namespace ZOrder.Engine

variable {H : Type} [DecidableEq H]

/-- The node of the tracked window that this one is a dialog of. -/
def ownerNode (e : Engine H) (q : Query H) (w : H) : Option NodeId :=
  ((q.owner w).filter (· ≠ w)).bind e.tree.get

/-- Where a new window is attached, its permanent band, and its place there. -/
def placeFor (e : Engine H) (q : Query H) (w : H) (l : Layer) (p : Position) :
    NodeId × Layer × Position :=
  match e.ownerNode q w with
  | some owner => (owner, (e.tree.home owner).getD e.defaultLayer, .top)
  | none => (Tree.root l, if l.isTemporary then e.defaultLayer else l, p)

/-- Starts to track a window in a band, at a place. False for a window that is
tracked already. -/
def addAt (e : Engine H) (q : Query H) (w : H) (l : Layer) (p : Position) : Bool × Engine H :=
  if e.tree.contains w then (false, e)
  else
    let (parent, home, p) := e.placeFor q w l p
    let (tree, id) := e.tree.create w home
    match tree.addChild parent id p with
    | some (tree, _) => (true, { e with tree }.sync [id])
    | none => (false, { e with tree := ((tree.destroy w).map Prod.fst).getD tree })

/-- Starts to track a window in the default band, at the default place. -/
def add (e : Engine H) (q : Query H) (w : H) : Bool × Engine H :=
  e.addAt q w e.defaultLayer e.defaultPosition

/-- Stops tracking a window. False for a window that is not tracked. -/
def remove (e : Engine H) (w : H) : Bool × Engine H :=
  match e.tree.destroy w with
  | none => (false, e)
  | some (tree, none) => (true, { e with tree })
  | some (tree, some (parent, _)) => (true, { e with tree }.sync [parent])

end ZOrder.Engine
