/-
  ZOrder.Engine.Basic

  The stacking engine: the forest of windows, and the requests that tell a display
  server about its changes, oldest first. An operation completes its change of the
  forest and then queues requests computed from the forest as it then is.

  A request for a node carries the windows of that node, bottom first. Its anchor
  is the window directly below them in the order of the screen, or the one directly
  above them when nothing is below.
-/

import ZOrder.Query
import ZOrder.Request
import ZOrder.Settings
import ZOrder.Tree.Edit

namespace ZOrder

/-! ## Requests -/

namespace Tree

variable {H : Type}

/-- The neighbour of a run of nodes in the order of the screen. -/
def anchorIn (t : Tree H) (order run : List NodeId) : Anchor H :=
  match run.head?.bind fun id => order.idxOf? id with
  | none => .floor
  | some 0 =>
    match order[run.length]?.bind t.handle with
    | some w => .below w
    | none => .floor
  | some (k + 1) =>
    match order[k]?.bind t.handle with
    | some w => .above w
    | none => .floor

/-- The request that restacks a node and all nodes below it, in a known order. -/
def requestIn (t : Tree H) (order : List NodeId) (id : NodeId) : Request H :=
  let run := t.run id
  ⟨t.handles run, t.anchorIn order run⟩

/-- The request that restacks a node and all nodes below it. -/
def request (t : Tree H) (id : NodeId) : Request H := t.requestIn t.order id

end Tree

/-! ## The engine -/

/-- The forest of windows, the requests not sent yet, and the settings in force. -/
structure Engine (H : Type) where
  tree : Tree H
  /-- Oldest first. -/
  queue : List (Request H)
  /-- A permanent band. -/
  defaultLayer : Layer
  defaultPosition : Position
  demoteOnFocus : Bool
  deriving DecidableEq, Repr

namespace Engine

variable {H : Type}

/-- An engine without windows. A temporary band can not be the default; `layout`
stands in for it. -/
def ofSettings (s : Settings) : Engine H where
  tree := .empty
  queue := []
  defaultLayer := if s.defaultLayer.isTemporary then .layout else s.defaultLayer
  defaultPosition := s.defaultPosition
  demoteOnFocus := s.demoteOnFocus

/-- Queues one request for each node, in turn. -/
def sync (e : Engine H) (ids : List NodeId) : Engine H :=
  let order := e.tree.order
  { e with queue := e.queue ++ ids.map (e.tree.requestIn order) }

/-- All windows, bottom of the screen first. -/
def zOrder (e : Engine H) : List H := e.tree.handles e.tree.order

/-- The windows of a band, bottom first. -/
def windowsIn (e : Engine H) (l : Layer) : List H :=
  e.tree.handles (e.tree.descendants (Tree.root l))

variable [DecidableEq H]

/-- Whether a window is tracked. -/
def isStacked (e : Engine H) (w : H) : Bool := e.tree.contains w

/-- The band a window is drawn in. -/
def layerOf (e : Engine H) (w : H) : Option Layer := (e.tree.get w).bind e.tree.layerOf

/-- The permanent band of a window. -/
def homeOf (e : Engine H) (w : H) : Option Layer := (e.tree.get w).bind e.tree.home

/-- The sibling directly above a window. -/
def siblingAbove (e : Engine H) (w : H) : Option H := do
  let id ← e.tree.get w
  let parent ← e.tree.parent id
  let slot ← e.tree.position id
  let above ← (e.tree.children parent)[slot + 1]?
  e.tree.handle above

/-- The sibling directly below a window. -/
def siblingBelow (e : Engine H) (w : H) : Option H := do
  let id ← e.tree.get w
  let parent ← e.tree.parent id
  match ← e.tree.position id with
  | 0 => none
  | slot + 1 =>
    let below ← (e.tree.children parent)[slot]?
    e.tree.handle below

end Engine

end ZOrder
