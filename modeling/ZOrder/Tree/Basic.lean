/-
  ZOrder.Tree.Basic

  The forest of bands and windows, kept in numbered slots. The first eleven slots
  hold one root for each band and are never given up; the slot of a window is used
  again once the window is gone, the last one freed first.

  A node knows its parent and its children, bottom to top. The children of a band
  are the windows that stand on their own in it; the children of a window are the
  windows nested under it.
-/

import ZOrder.Layer
import ZOrder.Position
import ZOrder.Tree.Index

namespace ZOrder

/-- What a node stands for. -/
inductive NodeKind (H : Type) where
  /-- The root of a band. -/
  | layer (layer : Layer)
  /-- A window, and the permanent band it goes back to. -/
  | window (handle : H) (home : Layer)
  deriving DecidableEq, Repr

/-- A node of the forest. -/
structure Node (H : Type) where
  kind : NodeKind H
  parent : Option NodeId
  /-- Bottom to top. -/
  children : List NodeId
  deriving DecidableEq, Repr

namespace Node

variable {H : Type}

/-- A node without parent and children. -/
def bare (kind : NodeKind H) : Node H := ⟨kind, none, []⟩

/-- The window a node stands for. -/
def handle (n : Node H) : Option H :=
  match n.kind with
  | .window h _ => some h
  | .layer _ => none

/-- The permanent band of the window a node stands for. -/
def home (n : Node H) : Option Layer :=
  match n.kind with
  | .window _ home => some home
  | .layer _ => none

/-- The band a node is the root of. -/
def layer (n : Node H) : Option Layer :=
  match n.kind with
  | .layer l => some l
  | .window _ _ => none

/-- Whether a node is the root of a band. -/
def isLayer (n : Node H) : Bool := n.layer.isSome

/-- The node with another permanent band; roots stay as they are. -/
def withHome (n : Node H) (home : Layer) : Node H :=
  match n.kind with
  | .window h _ => { n with kind := .window h home }
  | .layer _ => n

end Node

/-- The forest of bands and windows. -/
structure Tree (H : Type) where
  /-- The slots; an empty one belongs to a window that is gone. -/
  nodes : Array (Option (Node H))
  /-- The empty slots, the last one freed first. -/
  free : List NodeId
  /-- The slot of every window. -/
  index : Index H
  deriving DecidableEq, Repr

namespace Tree

variable {H : Type}

/-- Eleven bands and no windows. -/
def empty : Tree H where
  nodes := (Layer.all.map fun l => some (Node.bare (.layer l))).toArray
  free := []
  index := .empty

/-- The root of a band. -/
def root (l : Layer) : NodeId := l.index

/-! ## Looking at one node -/

/-- The node in a slot. -/
def node (t : Tree H) (id : NodeId) : Option (Node H) := t.nodes[id]?.join

/-- The node of a window. -/
def get [DecidableEq H] (t : Tree H) (w : H) : Option NodeId := t.index.find? w

/-- Whether a window is in the forest. -/
def contains [DecidableEq H] (t : Tree H) (w : H) : Bool := (t.get w).isSome

/-- How many windows there are. -/
def size (t : Tree H) : Nat := t.index.size

/-- The node a node is attached to. -/
def parent (t : Tree H) (id : NodeId) : Option NodeId := (t.node id).bind Node.parent

/-- The nodes attached to a node, bottom to top. -/
def children (t : Tree H) (id : NodeId) : List NodeId :=
  ((t.node id).map Node.children).getD []

/-- The window in a slot. -/
def handle (t : Tree H) (id : NodeId) : Option H := (t.node id).bind Node.handle

/-- The permanent band of the window in a slot. -/
def home (t : Tree H) (id : NodeId) : Option Layer := (t.node id).bind Node.home

/-- The band whose root is in a slot. -/
def layerAt (t : Tree H) (id : NodeId) : Option Layer := (t.node id).bind Node.layer

/-- How many siblings are below a node. -/
def position (t : Tree H) (id : NodeId) : Option Nat :=
  (t.parent id).bind fun p => (t.children p).idxOf? id

/-! ## Changing one node -/

/-- Changes the node in a slot; an empty slot stays empty. -/
def update (t : Tree H) (id : NodeId) (f : Node H → Node H) : Tree H :=
  { t with nodes := t.nodes.modify id (Option.map f) }

theorem node_update (t : Tree H) (id j : NodeId) (f : Node H → Node H) :
    (t.update id f).node j = if j = id then (t.node id).map f else t.node j := by
  by_cases h : j = id
  · subst h
    simp only [node, update, Array.getElem?_modify, if_true]
    cases t.nodes[j]? with
    | none => rfl
    | some o => rfl
  · simp [node, update, Array.getElem?_modify, h, Ne.symm h]

/-- Sets the permanent band of the window in a slot. -/
def setHome (t : Tree H) (id : NodeId) (home : Layer) : Tree H :=
  t.update id fun n => n.withHome home

end Tree

end ZOrder
