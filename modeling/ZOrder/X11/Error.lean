/-
  ZOrder.X11.Error

  What can go wrong with an X server: there is no connection, the connection breaks,
  a call is answered with an error, or a text is not UTF-8. `Error.toSync` says what
  each means for a display server: a call refused by the server means that the
  window is gone, a failed or broken connection is what it is.
-/

import ZOrder.SyncError
import ZOrder.Text.Utf8

namespace ZOrder.X11

/-! ## Connecting -/

/-- Why there is no connection. -/
inductive ConnectError where
  /-- Nothing says which display to use. -/
  | displayUnset
  /-- The name of the display makes no sense. -/
  | malformedDisplay (name : String)
  /-- The server refuses the client. -/
  | setupFailed (reason : List UInt8)
  /-- The server wants to know more about the client. -/
  | setupAuthenticate (reason : List UInt8)
  /-- The server hangs up. -/
  | hungUp
  /-- The server has no screen of this number. -/
  | invalidScreen
  /-- The server leaves no identifiers to the client. -/
  | zeroIdMask
  | unknown
  deriving DecidableEq, Repr

/-- A text between single quotes. -/
def inQuotes (s : String) : String := "'" ++ s ++ "'"

/-- The name of a display as messages show it: without a leading `unix:`. -/
def shownDisplay (name : String) : String :=
  match name.toList with
  | 'u' :: 'n' :: 'i' :: 'x' :: ':' :: rest => String.ofList rest
  | _ => name

/-- A reason that a server gives, as messages show it: its bytes, if they are no text. -/
def shownReason (reason : List UInt8) : String :=
  match Text.utf8 reason with
  | .ok s => inQuotes s
  | .error _ =>
    "[" ++ ", ".intercalate (reason.map fun b => toString b.toNat)
      ++ "] [message is not utf8]"

/-- The text of the error. -/
def ConnectError.message : ConnectError → String
  | .displayUnset => "$DISPLAY variable not set and no value was provided explicitly"
  | .malformedDisplay name => "Failed to parse value " ++ inQuotes (shownDisplay name)
  | .setupFailed reason => "X11 setup failed: " ++ shownReason reason
  | .setupAuthenticate reason => "X11 authentication failed: " ++ shownReason reason
  | .hungUp => "failed to read whole buffer"
  | .invalidScreen => "Invalid screen"
  | .zeroIdMask => "XID mask was zero"
  | .unknown => "Unknown connection error"

/-- Why a connection broke. -/
inductive ConnectionError where
  | unknown
  | insufficientMemory
  /-- The server is not there any more. -/
  | brokenPipe
  deriving DecidableEq, Repr

/-- The text of the error. -/
def ConnectionError.message : ConnectionError → String
  | .unknown => "Unknown connection error"
  | .insufficientMemory => "Insufficient memory"
  | .brokenPipe => "Broken pipe (os error 32)"

/-! ## Calls -/

/-- The server's answer to a call that it refuses. -/
structure ProtocolError where
  code : UInt8
  sequence : UInt16
  badValue : UInt32
  minorOpcode : UInt16
  majorOpcode : UInt8
  deriving DecidableEq, Repr

namespace ProtocolError

/-- The name of the kind of error; kinds that the calls made here do not lead to have none. -/
def kind (e : ProtocolError) : String :=
  match e.code with
  | 3 => "Window"
  | 8 => "Match"
  | 9 => "Drawable"
  | code => "Unknown(" ++ toString code.toNat ++ ")"

/-- The call that leads to the kind of error. -/
def request (e : ProtocolError) : Option String :=
  match e.code with
  | 3 => some "GetProperty"
  | 8 => some "ConfigureWindow"
  | 9 => some "GetGeometry"
  | _ => none

/-- All that the server told about the error, on one line. -/
def text (e : ProtocolError) : String :=
  "X11Error \x7b error_kind: " ++ e.kind
    ++ ", error_code: " ++ toString e.code.toNat
    ++ ", sequence: " ++ toString e.sequence.toNat
    ++ ", bad_value: " ++ toString e.badValue.toNat
    ++ ", minor_opcode: " ++ toString e.minorOpcode.toNat
    ++ ", major_opcode: " ++ toString e.majorOpcode.toNat
    ++ ", extension_name: None, request_name: "
    ++ (match e.request with
      | some name => "Some(\"" ++ name ++ "\")"
      | none => "None")
    ++ " \x7d"

end ProtocolError

/-- Why a call has no answer. -/
inductive ReplyError where
  | connection (e : ConnectionError)
  | refused (e : ProtocolError)
  deriving DecidableEq, Repr

/-- The text of the error. -/
def ReplyError.message : ReplyError → String
  | .connection e => e.message
  | .refused e => "X11 error " ++ e.text

/-! ## All together -/

/-- What can go wrong with an X server. -/
inductive Error where
  | connect (e : ConnectError)
  | connection (e : ConnectionError)
  | reply (e : ReplyError)
  | notUtf8 (e : Text.Utf8Error)
  deriving DecidableEq, Repr

/-- The text of the error. -/
def Error.message : Error → String
  | .connect e => "Unable to connect to the X server: " ++ e.message
  | .connection e => "Connection error occured: " ++ e.message
  | .reply e => "Unable to parse reply: " ++ e.message
  | .notUtf8 e => e.message

/-- What the error means for a display server. -/
def Error.toSync (e : Error) : SyncError :=
  match e with
  | .reply (.refused x) => .windowGone x.text
  | .connect _ => .connection e.message
  | .connection _ => .connection e.message
  | .reply (.connection _) => .other e.message
  | .notUtf8 _ => .other e.message

end ZOrder.X11
