/-
  ZOrder.Scripted

  A display server that follows a script, to rehearse a manager without a real one.
  Its answers about windows are tables of facts. A request that names a dead window
  fails; any other changes the order of the server's screen and is answered with the
  next event of the script. The server remembers what it was told.
-/

import ZOrder.Handle
import ZOrder.Manager

namespace ZOrder

/-- The facts, the script, the order of the screen, and what was heard. -/
structure ScriptedServer (H : Type) where
  owners : List (H × H) := []
  hidden : List H := []
  groups : List (H × GroupId) := []
  names : List (H × String) := []
  positions : List (H × Int32 × Int32) := []
  dead : List H := []
  /-- The events still to report, oldest first. -/
  replies : List (Event H) := []
  screen : FlatStack H := ⟨[]⟩
  /-- The requests heard, oldest first. -/
  requests : List (Request H) := []
  /-- The errors answered, oldest first. -/
  failures : List SyncError := []
  /-- The windows not tracked any more, in the order heard. -/
  forgotten : List H := []

/-- A table with one entry set, in place of an earlier one. -/
def setFact {H V : Type} [DecidableEq H] (table : List (H × V)) (w : H) (v : V) :
    List (H × V) :=
  (w, v) :: table.filter fun e => e.1 ≠ w

/-- The entry of a window in a table. -/
def fact? {H V : Type} [DecidableEq H] (table : List (H × V)) (w : H) : Option V :=
  (table.find? fun e => e.1 = w).map Prod.snd

namespace ScriptedServer

variable {H : Type} [DecidableEq H]

/-- The answers that the facts give. -/
def query (s : ScriptedServer H) : Query H where
  owner := fact? s.owners
  visible w := !s.hidden.contains w
  group := fact? s.groups
  name := fact? s.names
  position := fact? s.positions

/-- Follows the script for one request. -/
def stack [WindowHandle H] (s : ScriptedServer H) (r : Request H) :
    ScriptedServer H × Except SyncError (Option (Event H)) :=
  let s := { s with requests := s.requests ++ [r] }
  match r.windows.find? s.dead.contains with
  | some w =>
    let failure := SyncError.windowGone (WindowHandle.text w)
    ({ s with failures := s.failures ++ [failure] }, .error failure)
  | none =>
    ({ s with screen := s.screen.apply r, replies := s.replies.drop 1 },
      .ok s.replies.head?)

/-- Drops a window from the screen. -/
def forget (s : ScriptedServer H) (w : H) : ScriptedServer H :=
  { s with screen := s.screen.forget w, forgotten := s.forgotten ++ [w] }

/-- The same server with nothing heard yet. -/
def cleared (s : ScriptedServer H) : ScriptedServer H :=
  { s with requests := [], failures := [], forgotten := [] }

/-- A scripted server as a display server. -/
def server [WindowHandle H] : DisplayServer (ScriptedServer H) H where
  query := query
  stack := stack
  forget := forget

end ScriptedServer

end ZOrder
