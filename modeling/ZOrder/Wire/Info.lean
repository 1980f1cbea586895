/-
  ZOrder.Wire.Info

  The wire form of the stacking as a tree of entries: an object with the members
  `name`, `x`, `y`, `type`, `wid` and `children`, in this order. `x`, `y` and `wid`
  may be `null`, and an object may leave them out; an array may not.
-/

import ZOrder.Info
import ZOrder.Json.Printer
import ZOrder.Wire.Stacking

namespace ZOrder

/-- The name of a kind of entry. -/
def InfoKind.name : InfoKind → String
  | .root => "root"
  | .layer => "layer"
  | .window => "window"

/-- A kind of entry is written as its name. -/
def InfoKind.toJson (k : InfoKind) : Json := .str k.name

/-- The kind of entry that a value stands for. -/
def InfoKind.ofJson? (j : Json) : Option InfoKind :=
  j.plainChoice?.bind fun name => [root, layer, window].find? fun k => k.name == name

namespace Info

variable {H : Type} [WindowHandle H]

/-- A coordinate is written as an integer. -/
def coordinateToJson (n : Int32) : Json := .int n.toInt

/-- The coordinate that a value stands for. -/
def coordinateOfJson? (j : Json) : Option Int32 := j.int?.bind int32?

/-! ## Writing -/

mutual

/-- An entry is written as an object of its fields. -/
def toJson : Info H → Json
  | ⟨name, x, y, kind, window, children⟩ =>
    .obj
      [("name", .str name),
        ("x", .ofOption coordinateToJson x),
        ("y", .ofOption coordinateToJson y),
        ("type", kind.toJson),
        ("wid", .ofOption WindowHandle.toJson window),
        ("children", .arr (allToJson children))]

/-- Some entries are written one by one. -/
def allToJson : List (Info H) → List Json
  | [] => []
  | i :: is => i.toJson :: allToJson is

end

/-- The entry as text, one member a line. -/
def toText (i : Info H) : String := i.toJson.pretty

/-! ## Reading -/

/-- An entry without its children, from the forms of its fields. -/
def ofFields? (name x y kind window : Json) (children : List (Info H)) : Option (Info H) := do
  let name ← name.str?
  let x ← x.optionOf? coordinateOfJson?
  let y ← y.optionOf? coordinateOfJson?
  let kind ← InfoKind.ofJson? kind
  let window ← window.optionOf? WindowHandle.ofJson?
  return { name, x, y, kind, window, children }

mutual

/-- The entry that a value stands for. -/
def ofJson? : Json → Option (Info H)
  | .arr [name, x, y, kind, window, children] =>
    (allOfJson? children).bind fun is => ofFields? name x y kind window is
  | .obj members => do
    let name ← members.lookup "name"
    let kind ← members.lookup "type"
    let is ← childrenOf? members
    ofFields? name ((members.lookup "x").getD .null) ((members.lookup "y").getD .null) kind
      ((members.lookup "wid").getD .null) is
  | _ => none

/-- The entries that the member `children` stands for. -/
def childrenOf? : List (String × Json) → Option (List (Info H))
  | [] => none
  | (name, j) :: rest => if name = "children" then allOfJson? j else childrenOf? rest

/-- The entries that an array stands for. -/
def allOfJson? : Json → Option (List (Info H))
  | .arr items => eachOfJson? items
  | _ => none

/-- The entries that some values stand for. -/
def eachOfJson? : List Json → Option (List (Info H))
  | [] => some []
  | j :: rest => do
    let i ← ofJson? j
    let is ← eachOfJson? rest
    return i :: is

end

end Info

end ZOrder
