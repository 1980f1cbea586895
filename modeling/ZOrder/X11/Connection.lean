/-
  ZOrder.X11.Connection

  A client of an X server: how it connects, what it learns about the windows of the
  server, and the restacking calls it makes. The server is a table of windows; it
  notes every call and changes nothing. Once the connection is closed nothing can be
  learned and no call gets through; what the client could not send stays with it, and
  from then on every request fails, also one without windows.
-/

import ZOrder.Manager
import ZOrder.X11.Error
import ZOrder.X11.Property
import ZOrder.X11.Restack

namespace ZOrder.X11

/-! ## Connecting -/

/-- How the server answers a client that wants to connect. -/
inductive Welcome where
  | accepted
  | failed (reason : List UInt8)
  | authenticate (reason : List UInt8)
  | zeroIdMask
  | hangUp
  deriving DecidableEq, Repr

/-- The display that a client is told to use. -/
inductive DisplayName where
  /-- None is given. -/
  | unset
  /-- A name that makes no sense. -/
  | malformed (name : String)
  /-- A server that can be reached. -/
  | reachable
  deriving DecidableEq, Repr

/-- What a refusal tells the client. One without a reason ends where the client still waits
for it, as if the server had hung up. -/
def refusal (error : List UInt8 → ConnectError) (reason : List UInt8) : ConnectError :=
  if reason.isEmpty then .hungUp else error reason

/-- The part of a list that is heard where one byte is sent for its length. -/
def countedInByte {α : Type} (xs : List α) : List α := xs.take (xs.length % 256)

/-- The root window that a client works on, once connected. A server counts its roots, and
the bytes of a failed setup's reason, in one byte. -/
def connect (display : DisplayName) (welcome : Welcome) (roots : List UInt32) (screen : Nat) :
    Except ConnectError UInt32 :=
  match display, welcome with
  | .unset, _ => .error .displayUnset
  | .malformed name, _ => .error (.malformedDisplay name)
  | .reachable, .failed reason => .error (refusal (.setupFailed ∘ countedInByte) reason)
  | .reachable, .authenticate reason => .error (refusal .setupAuthenticate reason)
  | .reachable, .hangUp => .error .hungUp
  | .reachable, welcome =>
    match (countedInByte roots)[screen]? with
    | none => .error .invalidScreen
    | some root => if welcome = .zeroIdMask then .error .zeroIdMask else .ok root

/-! ## A connected client -/

/-- Whether a window and all around it are shown. -/
inductive MapState where
  | unmapped
  | unviewable
  | viewable
  /-- A number without a meaning. -/
  | other (code : Nat)
  deriving DecidableEq, Repr

/-- The meaning of a number. -/
def MapState.ofNat : Nat → MapState
  | 0 => .unmapped
  | 1 => .unviewable
  | 2 => .viewable
  | code => .other code

/-- A window as the server knows it. -/
structure Window where
  mapState : MapState := .viewable
  x : Int16 := 0
  y : Int16 := 0
  transientFor : Option Property := none
  hints : Option Property := none
  name : Option Property := none
  deriving DecidableEq, Repr

/-- What becomes of the things that a client sends. -/
inductive Link where
  /-- They reach the server. -/
  | connected
  /-- The server is gone, but nothing has been sent since. -/
  | closed
  /-- The server is gone, and the client holds what it could not send. -/
  | stuck
  deriving DecidableEq, Repr

/-- A client, the windows of its server, and the calls that the server noted. -/
structure Connection where
  root : UInt32
  windows : List (UInt32 × Window) := []
  link : Link := .connected
  /-- Oldest first. -/
  calls : List (Restack UInt32) := []
  deriving DecidableEq, Repr

namespace Connection

/-- A window that the client can learn about. -/
def window? (c : Connection) (w : UInt32) : Option Window :=
  if c.link = .connected then c.windows.lookup w else none

/-- Gives the server a window, in place of one with the same number. -/
def put (c : Connection) (w : UInt32) (window : Window) : Connection :=
  { c with windows := (w, window) :: c.windows.filter fun e => e.1 ≠ w }

/-- Takes a window from the server; answers whether it was there. -/
def destroy (c : Connection) (w : UInt32) : Bool × Connection :=
  ((c.windows.lookup w).isSome, { c with windows := c.windows.filter fun e => e.1 ≠ w })

/-- The server drops the connection. -/
def close (c : Connection) : Connection :=
  { c with link := if c.link = .connected then .closed else c.link }

/-- The client sends something, such as a question about a window. -/
def asked (c : Connection) : Connection :=
  { c with link := if c.link = .connected then .connected else .stuck }

/-- What the client learns about windows. -/
def query (c : Connection) : Query UInt32 where
  owner w := (c.window? w).bind fun window => X11.owner c.root window.transientFor
  visible w := (c.window? w).any fun window => window.mapState = .viewable
  group w := (c.window? w).bind fun window => (groupLeader window.hints).map UInt32.toUInt64
  name w := (c.window? w).bind fun window => windowName window.name
  position w := (c.window? w).map fun window => (window.x.toInt32, window.y.toInt32)

/-- Makes the calls that carry out a request, and sends all that is to be sent. A request
without windows needs no calls. -/
def stack (c : Connection) (r : Request UInt32) :
    Connection × Except SyncError (Option (Event UInt32)) :=
  if c.link = .connected then ({ c with calls := c.calls ++ plan r }, .ok none)
  else if r.windows.isEmpty ∧ c.link = .closed then (c, .ok none)
  else (c.asked, .error (Error.connection .brokenPipe).toSync)

/-- An X server as a display server; it does not care which windows are tracked. -/
def server : DisplayServer Connection UInt32 where
  query := query
  asked := asked
  stack := stack
  forget c _ := c

end Connection

end ZOrder.X11
