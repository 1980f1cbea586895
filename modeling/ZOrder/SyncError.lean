/-
  ZOrder.SyncError

  Why a display server could not carry out a request. The engine has completed its
  own change by then, so such an error is only reported.
-/

namespace ZOrder

/-- Why a request could not be carried out. -/
inductive SyncError where
  /-- A window does not exist any more. -/
  | windowGone (window : String)
  /-- The display server can not be reached. -/
  | connection (reason : String)
  /-- Anything else. -/
  | other (message : String)
  deriving DecidableEq, Repr

/-- The text of the error. -/
def SyncError.message : SyncError → String
  | .windowGone window => "Window " ++ window ++ " no longer exists"
  | .connection reason => "Connection to the display server failed: " ++ reason
  | .other message => message

end ZOrder
