/-
  ZOrder.Json.Basic

  JSON values. Integers are kept apart from other numbers: a reader that wants an
  integer takes `5` and refuses `5.0` and `5e0`. The members of an object keep the
  order they were written in.
-/

namespace ZOrder

/-- A JSON value. -/
inductive Json where
  | null
  | bool (b : Bool)
  /-- A number written with digits only. -/
  | int (n : Int)
  /-- A number written with a fraction or an exponent: `digits * 10 ^ exponent`. -/
  | decimal (digits : Int) (exponent : Int)
  | str (s : String)
  | arr (items : List Json)
  | obj (members : List (String × Json))
  deriving Repr, Inhabited

namespace Json

/-- The member of an object with a name; none for other values. -/
def member? (j : Json) (name : String) : Option Json :=
  match j with
  | .obj members => members.lookup name
  | _ => none

/-- The integer a value stands for. -/
def int? : Json → Option Int
  | .int n => some n
  | _ => none

/-- The text a value stands for. -/
def str? : Json → Option String
  | .str s => some s
  | _ => none

/-- The truth value a value stands for. -/
def bool? : Json → Option Bool
  | .bool b => some b
  | _ => none

/-- The items of an array. -/
def arr? : Json → Option (List Json)
  | .arr items => some items
  | _ => none

/-- `null` for nothing, else the form of the value. -/
def ofOption {α : Type} (form : α → Json) : Option α → Json
  | none => .null
  | some a => form a

/-- The form of a list: an array of the forms of its members. -/
def ofList {α : Type} (form : α → Json) (xs : List α) : Json :=
  .arr (xs.map form)

end Json

end ZOrder
