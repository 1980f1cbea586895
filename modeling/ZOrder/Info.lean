/-
  ZOrder.Info

  The stacking as a tree of entries to look at: one for the screen, one for each
  band, one for each window, children bottom to top.
-/

import ZOrder.Engine.Basic
import ZOrder.Forest

namespace ZOrder

/-- What an entry stands for. -/
inductive InfoKind where
  | root
  | layer
  | window
  deriving DecidableEq, Repr

/-- An entry for the screen, a band or a window. -/
structure Info (H : Type) where
  name : String
  x : Option Int32
  y : Option Int32
  kind : InfoKind
  window : Option H
  /-- Bottom to top. -/
  children : List (Info H)

namespace Info

variable {H : Type}

mutual

/-- The entry of a family. -/
def ofFamily (q : Query H) : Family H → Info H
  | .mk w _ fs =>
    { name := (q.name w).getD ""
      x := (q.position w).map Prod.fst
      y := (q.position w).map Prod.snd
      kind := .window
      window := some w
      children := ofFamilies q fs }

/-- The entries of some families. -/
def ofFamilies (q : Query H) : List (Family H) → List (Info H)
  | [] => []
  | f :: fs => ofFamily q f :: ofFamilies q fs

end

/-- The entry of a band. -/
def ofLayer (q : Query H) (forest : Forest H) (l : Layer) : Info H where
  name := l.name
  x := none
  y := none
  kind := .layer
  window := none
  children := ofFamilies q (forest l)

/-- The entry of the screen, with one entry for each band, lowest first. -/
def ofForest (q : Query H) (forest : Forest H) : Info H where
  name := "root"
  x := none
  y := none
  kind := .root
  window := none
  children := Layer.all.map (ofLayer q forest)

mutual

/-- How many window entries there are, this one included. -/
def windowCount : Info H → Nat
  | ⟨_, _, _, kind, _, children⟩ =>
    (if kind = .window then 1 else 0) + windowCounts children

/-- How many window entries there are in some trees. -/
def windowCounts : List (Info H) → Nat
  | [] => 0
  | i :: is => i.windowCount + windowCounts is

end

mutual

/-- The windows of the window entries in pre-order. -/
def windows : Info H → List H
  | ⟨_, _, _, kind, window, children⟩ =>
    (if kind = .window then window.toList else []) ++ windowsOf children

/-- The windows of the window entries of some trees. -/
def windowsOf : List (Info H) → List H
  | [] => []
  | i :: is => i.windows ++ windowsOf is

end

end Info

/-- The stacking of an engine, with names and places as a display server knows them. -/
def Engine.info {H : Type} (e : Engine H) (q : Query H) : Info H :=
  Info.ofForest q e.tree.forest

end ZOrder
