/-
  ZOrder.Wire.Basic

  The pieces that wire forms are made of. A choice is written as its name, or as an
  object with one member whose name is the choice and whose value goes with it; a
  choice without a value may also carry `null`. A record is written as an object,
  where other members are passed over, or as an array of its fields in order.
-/

import ZOrder.Json.Basic

namespace ZOrder.Json

/-- The choice that a value names, and what goes with it. -/
def choice? : Json → Option (String × Option Json)
  | .str name => some (name, none)
  | .obj [(name, j)] => some (name, some j)
  | _ => none

/-- The choice that a value names, if nothing goes with it. -/
def plainChoice? (j : Json) : Option String :=
  match j.choice? with
  | some (name, none) => some name
  | some (name, some .null) => some name
  | _ => none

/-- The fields of a record, none for those left out. An array must not have more items
than there are fields. -/
def fields? (names : List String) : Json → Option (List (Option Json))
  | .arr items =>
    if items.length ≤ names.length then
      some (items.map some ++ List.replicate (names.length - items.length) none)
    else none
  | .obj members => some (names.map fun name => members.lookup name)
  | _ => none

/-- The list that an array stands for. -/
def listOf? {α : Type} (item? : Json → Option α) : Json → Option (List α)
  | .arr items => items.mapM item?
  | _ => none

/-- A value, or none for `null`. -/
def optionOf? {α : Type} (value? : Json → Option α) : Json → Option (Option α)
  | .null => some none
  | j => (value? j).map some

/-- An object with one member. -/
def tagged (name : String) (j : Json) : Json := .obj [(name, j)]

end ZOrder.Json
