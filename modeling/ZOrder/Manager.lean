/-
  ZOrder.Manager

  An engine together with the display server it drives. Each operation changes the
  engine first, then every queued request is sent, in order, whether or not earlier
  ones fail. What the server reports meanwhile is handled once the queue is empty,
  which may queue requests again; at most `maxEventDepth` such rounds follow, and
  reports after the last one are dropped.
-/

import ZOrder.Engine.Op
import ZOrder.FlatStack
import ZOrder.Info
import ZOrder.SyncError

namespace ZOrder

/-- What a display server with states `S` does. -/
structure DisplayServer (S H : Type) where
  /-- Its answers about windows. -/
  query : S → Query H
  /-- Its state once it has answered. -/
  asked : S → S := id
  /-- Carries out a request; it may fail, or report an event. -/
  stack : S → Request H → S × Except SyncError (Option (Event H))
  /-- Hears that a window is not tracked any more. -/
  forget : S → H → S

/-- An engine, the state of its display server, and the settings. -/
structure Manager (S H : Type) where
  engine : Engine H
  server : S
  settings : Settings

namespace Manager

variable {S H : Type}

/-- A manager without windows. -/
def new (settings : Settings) (server : S) : Manager S H where
  engine := .ofSettings settings
  server := server
  settings := settings

/-! ## Sending requests -/

/-- Sends requests in turn, and gathers the events reported. -/
def send (d : DisplayServer S H) (server : S) : List (Request H) → S × List (Event H)
  | [] => (server, [])
  | r :: rest =>
    let (server, answer) := d.stack server r
    let (server, events) := send d server rest
    match answer with
    | .ok (some event) => (server, event :: events)
    | _ => (server, events)

/-- Empties the queue, and gathers the events reported. -/
def deliver (d : DisplayServer S H) (m : Manager S H) : Manager S H × List (Event H) :=
  let (server, events) := send d m.server m.engine.queue
  ({ m with server, engine := { m.engine with queue := [] } }, events)

variable [DecidableEq H]

/-- Stops tracking a window, and tells the display server if it was tracked. -/
def untrack (d : DisplayServer S H) (m : Manager S H) (w : H) : Bool × Manager S H :=
  let (removed, engine) := m.engine.remove w
  (removed, { m with engine, server := if removed then d.forget m.server w else m.server })

/-- Lets the engine see an event. -/
def dispatch (d : DisplayServer S H) (m : Manager S H) : Event H → Bool × Manager S H
  | .focusChanged w =>
    let (changed, engine) := m.engine.focus w
    (changed, { m with engine })
  | .windowDestroyed w => m.untrack d w

/-- Lets the engine see events in turn. -/
def dispatchAll (d : DisplayServer S H) (m : Manager S H) (events : List (Event H)) :
    Manager S H :=
  events.foldl (fun m event => (m.dispatch d event).2) m

/-- Empties the queue, with at most `rounds` rounds of events. -/
def flushFor (d : DisplayServer S H) : (rounds : Nat) → Manager S H → Manager S H
  | 0, m => (m.deliver d).1
  | rounds + 1, m =>
    match m.deliver d with
    | (m, []) => m
    | (m, events) => flushFor d rounds (m.dispatchAll d events)

/-- Empties the queue, with as many rounds of events as the settings allow. -/
def flush (d : DisplayServer S H) (m : Manager S H) : Manager S H :=
  flushFor d m.settings.maxEventDepth.toNat m

/-! ## Operations -/

/-- Carries out an operation on the engine alone; its requests stay in the queue. -/
def performQueued (d : DisplayServer S H) (m : Manager S H) (op : Op H) :
    Bool × Manager S H :=
  let (changed, engine) := m.engine.perform (d.query m.server) op
  let server := if m.engine.asks op then d.asked m.server else m.server
  (changed, { m with engine, server })

/-- Changes the engine, and tells the display server about a window that goes. -/
def change (d : DisplayServer S H) (m : Manager S H) : Op H → Bool × Manager S H
  | .remove w => m.untrack d w
  | op => m.performQueued d op

/-- Carries out an operation and sends the requests it leads to. -/
def perform (d : DisplayServer S H) (m : Manager S H) (op : Op H) : Bool × Manager S H :=
  let (changed, m) := m.change d op
  (changed, m.flush d)

/-- Handles an event and sends the requests it leads to. -/
def handle (d : DisplayServer S H) (m : Manager S H) (event : Event H) : Bool × Manager S H :=
  let (changed, m) := m.dispatch d event
  (changed, m.flush d)

omit [DecidableEq H] in
/-- The stacking as a tree of entries. The display server is asked about every window. -/
def inspect (d : DisplayServer S H) (m : Manager S H) : Info H × Manager S H :=
  let server := if m.engine.zOrder.isEmpty then m.server else d.asked m.server
  (m.engine.info (d.query m.server), { m with server })

/-- Sends what is left in the queue and gives the display server back. -/
def shutdown (d : DisplayServer S H) (m : Manager S H) : S := (m.flush d).server

end Manager

/-- A flat stack as a display server: it carries out every request, reports nothing,
and knows nothing about its windows. -/
def FlatStack.server {H : Type} [DecidableEq H] : DisplayServer (FlatStack H) H where
  query _ := Query.blank
  stack s r := (s.apply r, .ok none)
  forget := FlatStack.forget

end ZOrder
