/-
  ZOrder.Tree.Index

  Which node tracks which window: a table of pairs, one for each window. Each
  operation comes with what it does to `find?`.
-/

namespace ZOrder

/-- The place of a node in a tree. -/
abbrev NodeId := Nat

/-- A table from windows to their nodes. -/
structure Index (H : Type) where
  entries : List (H × NodeId)
  deriving DecidableEq, Repr

namespace Index

variable {H : Type} [DecidableEq H]

/-- No windows. -/
def empty : Index H := ⟨[]⟩

/-- The node of a window. -/
def find? (ix : Index H) (w : H) : Option NodeId :=
  (ix.entries.find? fun e => e.1 = w).map Prod.snd

/-- Drops a window. -/
def erase (ix : Index H) (w : H) : Index H :=
  ⟨ix.entries.filter fun e => e.1 ≠ w⟩

/-- Sets the node of a window. -/
def insert (ix : Index H) (w : H) (id : NodeId) : Index H :=
  ⟨(w, id) :: (ix.erase w).entries⟩

/-- How many windows there are. -/
def size (ix : Index H) : Nat := ix.entries.length

theorem find?_erase_self (ix : Index H) (w : H) : (ix.erase w).find? w = none := by
  simp [find?, erase, List.find?_eq_none]

theorem find?_erase_of_ne (ix : Index H) {w v : H} (h : v ≠ w) :
    (ix.erase w).find? v = ix.find? v := by
  obtain ⟨entries⟩ := ix
  simp only [find?, erase]
  congr 1
  induction entries with
  | nil => rfl
  | cons e rest ih =>
    by_cases hw : e.1 = w
    · have hv : e.1 ≠ v := fun hv => h (hv ▸ hw)
      simpa [List.filter_cons, List.find?_cons, hw, hv, Ne.symm h] using ih
    · by_cases hv : e.1 = v
      · simp [hv, h]
      · simpa [List.filter_cons, List.find?_cons, hw, hv] using ih

theorem find?_insert_self (ix : Index H) (w : H) (id : NodeId) :
    (ix.insert w id).find? w = some id := by
  simp [find?, insert]

theorem find?_insert_of_ne (ix : Index H) {w v : H} (id : NodeId) (h : v ≠ w) :
    (ix.insert w id).find? v = ix.find? v := by
  rw [← find?_erase_of_ne ix h]
  simp [find?, insert, Ne.symm h]

end Index

end ZOrder
