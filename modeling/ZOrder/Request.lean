/-
  ZOrder.Request

  What an engine asks of a display server: put a run of windows, listed bottom
  first, against one neighbour. The first window goes against the anchor and each
  later one directly above the one before it; `placements` spells this out.
-/

namespace ZOrder

/-- The neighbour that a run of windows is placed against. -/
inductive Anchor (H : Type) where
  /-- Directly above this window. -/
  | above (w : H)
  /-- Directly below this window. -/
  | below (w : H)
  /-- At the bottom of the screen. -/
  | floor
  deriving DecidableEq, Repr

/-- A run of windows and its anchor. -/
structure Request (H : Type) where
  windows : List H
  anchor : Anchor H
  deriving DecidableEq, Repr

/-- Each window above the one before it, the first above `below`. -/
def placeAbove {H : Type} (below : H) : List H → List (H × Anchor H)
  | [] => []
  | w :: rest => (w, .above below) :: placeAbove w rest

/-- Every window of a request with the neighbour it is placed against. -/
def Request.placements {H : Type} (r : Request H) : List (H × Anchor H) :=
  match r.windows with
  | [] => []
  | w :: rest => (w, r.anchor) :: placeAbove w rest

theorem map_fst_placeAbove {H : Type} (below : H) (ws : List H) :
    (placeAbove below ws).map Prod.fst = ws := by
  induction ws generalizing below with
  | nil => rfl
  | cons w rest ih => simp [placeAbove, ih]

theorem Request.map_fst_placements {H : Type} (r : Request H) :
    r.placements.map Prod.fst = r.windows := by
  unfold placements
  split
  · next h => simp [h]
  · next w rest h => simp [h, map_fst_placeAbove]

/-- What a display server may report while it realises a request. -/
inductive Event (H : Type) where
  | focusChanged (w : H)
  | windowDestroyed (w : H)
  deriving DecidableEq, Repr

end ZOrder
