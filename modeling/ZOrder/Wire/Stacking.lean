/-
  ZOrder.Wire.Stacking

  The wire forms of handles, bands, places, anchors, requests, events and settings.
  `toJson` writes the one form that a value has, `ofJson?` reads every form that is
  accepted. Names are matched exactly.
-/

import ZOrder.Handle
import ZOrder.Request
import ZOrder.Settings
import ZOrder.Wire.Basic

namespace ZOrder

/-! ## Handles -/

namespace WindowHandle

variable {H : Type} [WindowHandle H]

/-- A handle is written as its integer. -/
def toJson (w : H) : Json := .int (WindowHandle.toInt w)

/-- The handle that a value stands for. -/
def ofJson? (j : Json) : Option H := j.int?.bind WindowHandle.ofInt?

end WindowHandle

/-! ## Bands and places -/

/-- A band is written as its name. -/
def Layer.toJson (l : Layer) : Json := .str l.name

/-- The band that a value stands for. -/
def Layer.ofJson? (j : Json) : Option Layer := j.plainChoice?.bind Layer.ofName?

/-- A place is written as its name, or with the number of siblings below. -/
def Position.toJson : Position → Json
  | .top => .str "top"
  | .bottom => .str "bottom"
  | .index n => .tagged "index" (.int n.toNat)

/-- The place that a value stands for. -/
def Position.ofJson? (j : Json) : Option Position :=
  match j.choice? with
  | some ("index", some n) => (n.int?.bind uint64?).map .index
  | _ =>
    match j.plainChoice? with
    | some "top" => some .top
    | some "bottom" => some .bottom
    | _ => none

/-! ## Requests and events -/

section Handles

variable {H : Type} [WindowHandle H]

/-- An anchor is written as the side and the neighbour. -/
def Anchor.toJson : Anchor H → Json
  | .above w => .tagged "Above" (WindowHandle.toJson w)
  | .below w => .tagged "Below" (WindowHandle.toJson w)
  | .floor => .str "None"

/-- The anchor that a value stands for. -/
def Anchor.ofJson? (j : Json) : Option (Anchor H) :=
  match j.choice? with
  | some ("Above", some w) => (WindowHandle.ofJson? w).map .above
  | some ("Below", some w) => (WindowHandle.ofJson? w).map .below
  | _ =>
    match j.plainChoice? with
    | some "None" => some .floor
    | _ => none

/-- A request is written as its windows and its anchor. -/
def Request.toJson (r : Request H) : Json :=
  .obj [("windows", .ofList WindowHandle.toJson r.windows), ("anchor", r.anchor.toJson)]

/-- The request that a value stands for. -/
def Request.ofJson? (j : Json) : Option (Request H) :=
  match j.fields? ["windows", "anchor"] with
  | some [some windows, some anchor] => do
    let windows ← windows.listOf? WindowHandle.ofJson?
    let anchor ← Anchor.ofJson? anchor
    return { windows, anchor }
  | _ => none

/-- An event is written as what happened and the window. -/
def Event.toJson : Event H → Json
  | .focusChanged w => .tagged "FocusChanged" (WindowHandle.toJson w)
  | .windowDestroyed w => .tagged "WindowDestroyed" (WindowHandle.toJson w)

/-- The event that a value stands for. -/
def Event.ofJson? (j : Json) : Option (Event H) :=
  match j.choice? with
  | some ("FocusChanged", some w) => (WindowHandle.ofJson? w).map .focusChanged
  | some ("WindowDestroyed", some w) => (WindowHandle.ofJson? w).map .windowDestroyed
  | _ => none

end Handles

/-! ## Settings -/

namespace Settings

/-- The names of the settings, in order. -/
def fieldNames : List String :=
  ["default_layer", "default_position", "demote_on_focus", "max_event_depth"]

/-- Settings are written as an object of all four. -/
def toJson (s : Settings) : Json :=
  .obj
    [("default_layer", s.defaultLayer.toJson),
      ("default_position", s.defaultPosition.toJson),
      ("demote_on_focus", .bool s.demoteOnFocus),
      ("max_event_depth", .int s.maxEventDepth.toNat)]

/-- The value of a field, or its default when it is left out. -/
def orDefault {α : Type} (value? : Json → Option α) (default : α) : Option Json → Option α
  | none => some default
  | some j => value? j

/-- The settings that a value stands for; what is left out takes its default. -/
def ofJson? (j : Json) : Option Settings :=
  match j.fields? fieldNames with
  | some [layer, position, demote, depth] => do
    let standard : Settings := {}
    return {
      defaultLayer := ← orDefault Layer.ofJson? standard.defaultLayer layer
      defaultPosition := ← orDefault Position.ofJson? standard.defaultPosition position
      demoteOnFocus := ← orDefault Json.bool? standard.demoteOnFocus demote
      maxEventDepth := ← orDefault (fun n => n.int?.bind uint64?) standard.maxEventDepth depth }
  | _ => none

end Settings

end ZOrder
