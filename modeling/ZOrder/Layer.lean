/-
  ZOrder.Layer

  The eleven bands of the screen, from the bottom to the top. Every window is in
  one band, and a band is drawn above all bands before it. `fullscreen` and
  `bringToFront` are temporary: a window stays there only while it has the focus.

  A band is named by its words joined with underscores. `Layer.parse` reads such a
  name with blanks around it, letters of either case and dashes for underscores.
-/

import ZOrder.Text.Blank
import ZOrder.Text.Quoted

namespace ZOrder

/-- A band of the screen. -/
inductive Layer where
  | background
  | bottom
  | keepBelow
  | layout
  | keepAbove
  | max
  | fullscreen
  | bringToFront
  | top
  | overlay
  | system
  deriving DecidableEq, Repr

/-- Why a value names no band. -/
inductive LayerError where
  /-- No band has this name. -/
  | unknownName (name : String)
  /-- No band has this index. -/
  | outOfRange (index : Nat)
  deriving DecidableEq, Repr

/-- The text of the error. -/
def LayerError.message : LayerError → String
  | .unknownName name => "Unknown layer group name: " ++ Text.quote name
  | .outOfRange index => "Layer group index out of range: " ++ toString index

namespace Layer

/-- The band of windows that nobody places elsewhere. -/
instance : Inhabited Layer := ⟨layout⟩

/-- All bands, lowest first. -/
def all : List Layer :=
  [background, bottom, keepBelow, layout, keepAbove, max, fullscreen, bringToFront, top,
    overlay, system]

/-- The place of a band in `all`. -/
def index : Layer → Nat
  | background => 0
  | bottom => 1
  | keepBelow => 2
  | layout => 3
  | keepAbove => 4
  | max => 5
  | fullscreen => 6
  | bringToFront => 7
  | top => 8
  | overlay => 9
  | system => 10

theorem all_getElem?_index (l : Layer) : all[l.index]? = some l := by cases l <;> rfl

theorem mem_all (l : Layer) : l ∈ all := by cases l <;> decide

theorem nodup_all : all.Nodup := by decide

theorem index_lt (l : Layer) : l.index < 11 := by cases l <;> decide

/-- Bands that a window leaves when it loses the focus. -/
def isTemporary : Layer → Bool
  | fullscreen | bringToFront => true
  | _ => false

theorem isTemporary_iff (l : Layer) :
    l.isTemporary = true ↔ l = fullscreen ∨ l = bringToFront := by cases l <;> decide

/-- The name of a band. -/
def name : Layer → String
  | background => "background"
  | bottom => "bottom"
  | keepBelow => "keep_below"
  | layout => "layout"
  | keepAbove => "keep_above"
  | max => "max"
  | fullscreen => "fullscreen"
  | bringToFront => "bring_to_front"
  | top => "top"
  | overlay => "overlay"
  | system => "system"

/-- The words of the name run together, each with a capital letter. -/
def title : Layer → String
  | background => "Background"
  | bottom => "Bottom"
  | keepBelow => "KeepBelow"
  | layout => "Layout"
  | keepAbove => "KeepAbove"
  | max => "Max"
  | fullscreen => "Fullscreen"
  | bringToFront => "BringToFront"
  | top => "Top"
  | overlay => "Overlay"
  | system => "System"

/-- The band with a name, spelled exactly. -/
def ofName? (name : String) : Option Layer :=
  all.find? fun l => l.name == name

theorem ofName?_name (l : Layer) : ofName? l.name = some l := by cases l <;> decide

/-- The band that a text names: blanks around it, the case of ASCII letters and the
choice of `-` or `_` do not matter. The error keeps the whole text. -/
def parse (text : String) : Except LayerError Layer :=
  let wanted := (Text.trimBlanks text.toList).map fun c => if c = '-' then '_' else c.toLower
  match ofName? (String.ofList wanted) with
  | some l => .ok l
  | none => .error (.unknownName text)

/-- The band at a place in `all`. -/
def ofIndex (index : Nat) : Except LayerError Layer :=
  match all[index]? with
  | some l => .ok l
  | none => .error (.outOfRange index)

end Layer

end ZOrder
