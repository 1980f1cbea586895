/-
  ZOrder.Tree.Edit

  Changes of the forest: a window comes and goes, a node is attached, taken out
  with all that lies below it, or taken out with its children left in its place.
  An edit that its arguments do not allow answers none.
-/

import ZOrder.Tree.Walk

namespace ZOrder.Tree

variable {H : Type}

/-! ## Attaching and taking out -/

/-- Attaches a node that has no parent, above `slot` of its new siblings, or above all
of them if they are fewer. Answers the changed forest and how many siblings are below
the node. Refused for roots of bands and below the node itself. -/
def attach (t : Tree H) (parent id : NodeId) (slot : Nat) : Option (Tree H × Nat) :=
  match t.node id, t.node parent with
  | some n, some p =>
    if n.isLayer || n.parent.isSome || t.isInSubtree id parent then none
    else
      let slot := min slot p.children.length
      some
        ((t.update parent fun p => { p with children := p.children.insertIdx slot id }).update id
          fun n => { n with parent := some parent }, slot)
  | _, _ => none

/-- Attaches a node at a place among its new siblings. -/
def addChild (t : Tree H) (parent id : NodeId) (position : Position) :
    Option (Tree H × Nat) :=
  t.attach parent id (position.slot (t.children parent).length)

/-- Takes a node out of its parent, with all that lies below it. Answers the changed
forest and where the node was. -/
def detach (t : Tree H) (id : NodeId) : Option (Tree H × NodeId × Nat) :=
  match t.parent id, t.position id with
  | some parent, some slot =>
    some
      ((t.update parent fun p => { p with children := p.children.eraseIdx slot }).update id
        fun n => { n with parent := none }, parent, slot)
  | _, _ => none

/-- Gives some nodes a new parent, without listing them there. -/
def adopt (t : Tree H) (parent : NodeId) (ids : List NodeId) : Tree H :=
  ids.foldl (fun t id => t.update id fun n => { n with parent := some parent }) t

/-- Takes a node out of its parent and puts its children in its place, so that
nothing is lost. Answers the changed forest and where the node was. -/
def unlink (t : Tree H) (id : NodeId) : Option (Tree H × NodeId × Nat) :=
  match t.parent id, t.position id with
  | some parent, some slot =>
    let promoted := t.children id
    let t := (t.update id fun n => { n with children := [] }).adopt parent promoted
    let t := t.update parent fun p =>
      { p with children := p.children.take slot ++ promoted ++ p.children.drop (slot + 1) }
    some (t.update id fun n => { n with parent := none }, parent, slot)
  | _, _ => none

/-! ## Windows -/

/-- Makes a node for a window, not attached yet, in the slot freed last or in a new one. -/
def create [DecidableEq H] (t : Tree H) (w : H) (home : Layer) : Tree H × NodeId :=
  let node := some (Node.bare (.window w home))
  match t.free with
  | id :: free =>
    ({ nodes := t.nodes.setIfInBounds id node, free, index := t.index.insert w id }, id)
  | [] =>
    let id := t.nodes.size
    ({ nodes := t.nodes.push node, free := [], index := t.index.insert w id }, id)

/-- Frees the slot of a window, its children left in its place. Answers where the
window was, if it was attached. -/
def destroy [DecidableEq H] (t : Tree H) (w : H) : Option (Tree H × Option (NodeId × Nat)) :=
  match t.get w with
  | none => none
  | some id =>
    let t := { t with index := t.index.erase w }
    let (t, former) := match t.unlink id with
      | some (t, parent, slot) => (t, some (parent, slot))
      | none => (t, none)
    some ({ t with nodes := t.nodes.setIfInBounds id none, free := id :: t.free }, former)

end ZOrder.Tree
