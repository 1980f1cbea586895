/-
  ZOrder.Query

  What an engine asks about windows it does not own. The answers may change from
  one call to the next; an operation sees one set of answers.
-/

namespace ZOrder

/-- Windows with one group move past each other. -/
abbrev GroupId := UInt64

/-- The answers about windows at one moment. -/
structure Query (H : Type) where
  /-- The window that this one is a dialog of. -/
  owner : H → Option H
  visible : H → Bool
  group : H → Option GroupId
  name : H → Option String
  position : H → Option (Int32 × Int32)

/-- Nothing is known: no owners, groups, names or places, and every window is visible. -/
def Query.blank {H : Type} : Query H where
  owner _ := none
  visible _ := true
  group _ := none
  name _ := none
  position _ := none

end ZOrder
