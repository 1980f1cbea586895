/-
  ZOrder.Toml.Layout

  Whether the sections of a text fit together. Sections whose paths start alike make
  up one table, wherever they stand; a doubled header starts a new table of a list,
  and what follows belongs to it up to the next doubled header of the same path. A
  table must not have two sections of its own, and a list must not come after a
  section that makes a table of its path.

  The check reads the sections as one tree, a table at a time, and notes which
  sections it has used.
-/

import ZOrder.Toml.Parser

namespace ZOrder.Toml

/-- The path of a section. -/
def pathAt (ss : Array Section) (i : Nat) : List String := (ss[i]?.map Section.path).getD []

/-- Whether a section has a doubled header. -/
def isArrayAt (ss : Array Section) (i : Nat) : Bool := (ss[i]?.map Section.isArray).getD false

/-- The first section from `start` on and before `stop` that is not used and whose path
begins with `stem`. -/
def nextUnder (ss : Array Section) (used : List Nat) (stem : List String) (start stop : Nat) :
    Option Nat :=
  (List.range' start (stop - start)).find? fun i =>
    !used.contains i && stem.isPrefixOf (pathAt ss i)

/-- The first section after `i` and before `stop` that starts a new table of the list of
section `i`. -/
def nextOfList (ss : Array Section) (i stop : Nat) : Nat :=
  ((List.range' (i + 1) (stop - (i + 1))).find? fun j =>
    isArrayAt ss j && pathAt ss j == pathAt ss i).getD stop

mutual

/-- Reads a table at some depth. `first` is a section that belongs to it, `cursor` the
section to go on from, `stop` the section to stop at. Answers the sections used, none when
they do not fit together. -/
def readTable (ss : Array Section) (fuel depth first cursor stop : Nat) (used : List Nat) :
    Option (List Nat) :=
  match fuel with
  | 0 => none
  | fuel + 1 =>
    if first = stop ∨ cursor = stop then some used
    else
      match nextUnder ss used ((pathAt ss first).take depth) cursor stop with
      | none => some used
      | some i =>
        if i ≠ first ∧ pathAt ss i = pathAt ss first then none
        else
          let first := if (pathAt ss i).length < (pathAt ss first).length then i else first
          if depth ≠ (pathAt ss i).length then
            let inner :=
              if isArrayAt ss i ∧ depth + 1 = (pathAt ss i).length then
                readList ss fuel depth i stop used
              else readTable ss fuel (depth + 1) i 0 stop used
            match inner with
            | none => none
            | some used => readTable ss fuel depth first (i + 1) stop used
          else if isArrayAt ss i then none
          else readTable ss fuel depth first i stop (i :: used)

/-- Reads the tables of a list at some depth, the one that section `first` starts and those
after it. -/
def readList (ss : Array Section) (fuel depth first stop : Nat) (used : List Nat) :
    Option (List Nat) :=
  match fuel with
  | 0 => none
  | fuel + 1 =>
    if first = stop then some used
    else
      let next := nextOfList ss first stop
      match readTable ss fuel (depth + 1) first 0 next (first :: used) with
      | none => none
      | some used => readList ss fuel depth next stop used

end

/-- Whether the sections of a text fit together. -/
def fitTogether (ss : List Section) : Bool :=
  let parts := ss.foldl (fun n s => n + s.path.length) 2
  (readTable ss.toArray (parts * (2 * ss.length + 4)) 0 0 0 ss.length []).isSome

end ZOrder.Toml
