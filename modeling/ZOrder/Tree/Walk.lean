/-
  ZOrder.Tree.Walk

  Walks through the forest. `path` follows the parents up from a node; what band a
  node is in, which family it belongs to and whether it lies below another node
  are all read off its path. `descendants` goes down, every node before its
  children and the children bottom to top; the order of the screen joins the
  descendants of the roots, lowest band first.

  A walk takes at most as many steps as there are slots, which is enough wherever
  no node lies below itself.
-/

import ZOrder.Tree.Basic

namespace ZOrder.Tree

variable {H : Type}

/-! ## Upwards -/

/-- A node, its parent, and so on for at most `steps` parents. -/
def climb (t : Tree H) : (steps : Nat) → NodeId → List NodeId
  | 0, id => [id]
  | steps + 1, id =>
    match t.parent id with
    | none => [id]
    | some p => id :: t.climb steps p

/-- A node and all nodes above it, itself first. -/
def path (t : Tree H) (id : NodeId) : List NodeId := t.climb t.nodes.size id

/-- The band a node is drawn in; none when its path ends at a window. -/
def layerOf (t : Tree H) (id : NodeId) : Option Layer :=
  (t.path id).getLast?.bind t.layerAt

/-- The node on the path that is attached to the root of a band. -/
def topLevel (t : Tree H) (id : NodeId) : Option NodeId :=
  (t.path id).find? fun n => ((t.parent n).bind t.layerAt).isSome

/-- Whether a node is `ancestor` or lies below it. -/
def isInSubtree (t : Tree H) (ancestor id : NodeId) : Bool :=
  (t.path id).contains ancestor

/-! ## Downwards -/

/-- The nodes met by visiting the pending ones in turn, each before its children, for
at most `steps` visits. Empty slots are passed over. -/
def visit (t : Tree H) : (steps : Nat) → (pending : List NodeId) → List NodeId
  | 0, _ => []
  | _ + 1, [] => []
  | steps + 1, id :: rest =>
    match t.node id with
    | none => t.visit steps rest
    | some n => id :: t.visit steps (n.children ++ rest)

/-- A node and all nodes below it, every node before its children, bottom to top. -/
def descendants (t : Tree H) (id : NodeId) : List NodeId :=
  t.visit (t.nodes.size + 1) [id]

/-- The window nodes among a node and all nodes below it. -/
def run (t : Tree H) (id : NodeId) : List NodeId :=
  (t.descendants id).filter fun n => (t.handle n).isSome

/-- All window nodes, bottom of the screen first. -/
def order (t : Tree H) : List NodeId :=
  Layer.all.flatMap fun l => t.run (root l)

/-- The windows in some slots. -/
def handles (t : Tree H) (ids : List NodeId) : List H := ids.filterMap t.handle

end ZOrder.Tree
