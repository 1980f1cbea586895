/-
  ZOrder.Toml.Value

  What the values of a TOML text are. Fractions and dates only need to be well
  formed here: no setting takes one, so their parts are not kept.
-/

namespace ZOrder.Toml

/-- A value. -/
inductive Value where
  | string (s : String)
  | integer (n : Int)
  | float
  | boolean (b : Bool)
  | date
  | array (items : List Value)
  /-- A table written between braces. -/
  | inline (entries : List (String × Value))
  /-- A table that dotted keys make up. -/
  | dotted (entries : List (String × Value))
  deriving Repr, Inhabited

/-- Adds a value under a path of keys. A key on the way names a table of its own, which is
made if it is not there; a value that is there and no such table is in the way. -/
def addEntry (entries : List (String × Value)) (value : Value) :
    (path : List String) → Option (List (String × Value))
  | [] => none
  | [key] => some (entries ++ [(key, value)])
  | key :: rest =>
    match entries.span fun e => e.1 ≠ key with
    | (before, (_, .dotted sub) :: after) =>
      (addEntry sub value rest).map fun sub => before ++ (key, .dotted sub) :: after
    | (_, _ :: _) => none
    | (_, []) => (addEntry [] value rest).map fun sub => entries ++ [(key, .dotted sub)]

end ZOrder.Toml
