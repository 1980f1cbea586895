/-
  ZOrder.Settings

  The settings of the stacking, and when they make sense: the band for new windows
  must be permanent, and at least one round of events must be allowed.
-/

import ZOrder.Layer
import ZOrder.Position

namespace ZOrder

/-- The settings of the stacking. -/
structure Settings where
  /-- The band of a new window when the caller picks none. -/
  defaultLayer : Layer := .layout
  /-- The place of a new window when the caller picks none. -/
  defaultPosition : Position := .top
  /-- Whether windows leave the temporary bands when another one takes the focus. -/
  demoteOnFocus : Bool := true
  /-- How many rounds of events one batch of requests may cause. -/
  maxEventDepth : UInt64 := 8
  deriving DecidableEq, Repr

/-- Why settings make no sense. -/
inductive SettingsError where
  | temporaryDefaultLayer (layer : Layer)
  | noEventDepth
  deriving DecidableEq, Repr

/-- The text of the error. -/
def SettingsError.message : SettingsError → String
  | .temporaryDefaultLayer layer =>
    "The default layer can not be the temporary band " ++ layer.name
  | .noEventDepth => "max_event_depth must be at least 1"

/-- The first thing wrong with some settings; the band is looked at first. -/
def Settings.validate (s : Settings) : Except SettingsError Unit :=
  if s.defaultLayer.isTemporary then .error (.temporaryDefaultLayer s.defaultLayer)
  else if s.maxEventDepth = 0 then .error .noEventDepth
  else .ok ()

end ZOrder
