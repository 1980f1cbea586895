/-
  ZOrder.Engine.Moving

  Windows move among their siblings and between bands. Moving up or down passes the
  next sibling that is visible and has no group or the same group; other siblings
  on the way are passed as well and keep their places. Moving to another band takes
  the whole family along, from the window that stands on its own down; a permanent
  band becomes the family's permanent band.
-/

import ZOrder.Engine.Basic

namespace ZOrder.Engine

variable {H : Type} [DecidableEq H]

/-! ## Among siblings -/

/-- Which way a window moves. -/
inductive Direction where
  | up
  | down
  deriving DecidableEq, Repr

/-- Whether a sibling can be passed by a window of some group. -/
def isPassable (q : Query H) (group : Option GroupId) (sibling : H) : Bool :=
  q.visible sibling && ((q.group sibling).isNone || q.group sibling == group)

/-- The siblings that count when a window moves, itself included. -/
def candidates (e : Engine H) (q : Query H) (w : H) (id parent : NodeId) : List NodeId :=
  (e.tree.children parent).filter fun sibling =>
    sibling == id || (e.tree.handle sibling).any (isPassable q (q.group w))

/-- The node of a window, its parent, and the sibling that it is to pass. -/
def passing (e : Engine H) (q : Query H) (w : H) (d : Direction) :
    Option (NodeId × NodeId × NodeId) := do
  let id ← e.tree.get w
  let parent ← e.tree.parent id
  let siblings := e.candidates q w id parent
  let place ← siblings.idxOf? id
  let target ← match d, place with
    | .up, place => siblings[place + 1]?
    | .down, 0 => none
    | .down, place + 1 => siblings[place]?
  return (id, parent, target)

/-- Moves a window past the next sibling that counts. False if there is none. -/
def shift (e : Engine H) (q : Query H) (w : H) (d : Direction) : Bool × Engine H :=
  match e.passing q w d with
  | none => (false, e)
  | some (id, parent, target) =>
    match e.tree.detach id with
    | none => (false, e)
    | some (tree, _) =>
      match tree.position target with
      | none => (false, { e with tree })
      | some slot =>
        match tree.attach parent id (if d = .up then slot + 1 else slot) with
        | none => (false, { e with tree })
        | some (tree, _) => (true, { e with tree }.sync [id])

/-- Moves a window to a place among its siblings. False if it is not tracked. -/
def moveTo (e : Engine H) (w : H) (p : Position) : Bool × Engine H :=
  match e.tree.get w with
  | none => (false, e)
  | some id =>
    match e.tree.detach id with
    | none => (false, e)
    | some (tree, parent, _) =>
      match tree.addChild parent id p with
      | none => (false, { e with tree })
      | some (tree, _) => (true, { e with tree }.sync [id])

/-! ## Between bands -/

/-- Sets the permanent band of a node and all nodes below it. -/
def settle (tree : Tree H) (id : NodeId) (l : Layer) : Tree H :=
  (tree.descendants id).foldl (fun tree member => tree.setHome member l) tree

/-- Moves a family to a band, at a place. The band it leaves is restacked as well. -/
def moveFamily (e : Engine H) (family : NodeId) (l : Layer) (p : Position) : Bool × Engine H :=
  match e.tree.detach family with
  | none => (false, e)
  | some (tree, origin, _) =>
    match tree.addChild (Tree.root l) family p with
    | none => (false, { e with tree })
    | some (tree, _) =>
      let tree := if l.isTemporary then tree else settle tree family l
      let changed := if origin = Tree.root l then [origin] else [origin, Tree.root l]
      (true, { e with tree }.sync changed)

/-- Moves the family of a window to a band, at a place. False if it is not tracked. -/
def moveToLayer (e : Engine H) (w : H) (l : Layer) (p : Position) : Bool × Engine H :=
  match (e.tree.get w).bind e.tree.topLevel with
  | none => (false, e)
  | some family => e.moveFamily family l p

/-- Moves the family of a window to the front until it loses the focus. -/
def bringToFront (e : Engine H) (w : H) : Bool × Engine H :=
  e.moveToLayer w .bringToFront .top

/-- Enters or leaves the fullscreen band. A window that leaves goes to the top of its
permanent band; false if it is not in the fullscreen band. -/
def setFullscreen (e : Engine H) (w : H) (on : Bool) : Bool × Engine H :=
  if on then e.moveToLayer w .fullscreen .top
  else if e.layerOf w ≠ some .fullscreen then (false, e)
  else
    match e.homeOf w with
    | none => (false, e)
    | some home => e.moveToLayer w home .top

end ZOrder.Engine
