/-
  ZOrder.SettingsFile

  Settings in a TOML file. The four settings may stand in any order and may be left
  out; other entries and sections are passed over. A missing file is made, with the
  standard settings; any other file is only read.

  A band or a place is a text, or a table between braces with one entry whose key is
  the choice: a number of siblings for `index`, an empty table for the others. A file
  that is nothing but one empty section may also name the choice as the last part of
  the header.
-/

import ZOrder.Handle
import ZOrder.Settings
import ZOrder.Text.Utf8
import ZOrder.Toml.Layout

namespace ZOrder

namespace SettingsFile

open Toml (Value Section)

/-! ## Reading -/

/-- An empty table. -/
def isEmptyTable : Value → Bool
  | .inline [] => true
  | .dotted [] => true
  | _ => false

/-- The choice that a value names, if nothing goes with it. -/
def plainChoice? : Value → Option String
  | .string name => some name
  | .inline [(name, v)] => if isEmptyTable v then some name else none
  | _ => none

/-- The band that a value stands for. -/
def layer? (v : Value) : Option Layer := (plainChoice? v).bind Layer.ofName?

/-- The number that a value stands for. -/
def natural? : Value → Option UInt64
  | .integer n => uint64? n
  | _ => none

/-- The place that a name stands for. -/
def placeOfName? : String → Option Position
  | "top" => some .top
  | "bottom" => some .bottom
  | _ => none

/-- The place that a value stands for. -/
def position? : Value → Option Position
  | .inline [("index", v)] => (natural? v).map .index
  | v => (plainChoice? v).bind placeOfName?

/-- The truth value that a value stands for. -/
def boolean? : Value → Option Bool
  | .boolean b => some b
  | _ => none

/-- Settings of which some may be left out. -/
structure Partial where
  layer : Option Layer := none
  position : Option Position := none
  demote : Option Bool := none
  depth : Option UInt64 := none
  deriving DecidableEq, Repr

/-- The settings, the standard ones where they are left out. -/
def Partial.complete (p : Partial) : Settings :=
  let standard : Settings := {}
  { defaultLayer := p.layer.getD standard.defaultLayer
    defaultPosition := p.position.getD standard.defaultPosition
    demoteOnFocus := p.demote.getD standard.demoteOnFocus
    maxEventDepth := p.depth.getD standard.maxEventDepth }

/-- Adds one entry. A setting must not be there twice; other entries are passed over. -/
def Partial.put (p : Partial) (key : String) (v : Value) : Option Partial :=
  match key with
  | "default_layer" =>
    if p.layer.isSome then none else (layer? v).map fun l => { p with layer := some l }
  | "default_position" =>
    if p.position.isSome then none
    else (position? v).map fun q => { p with position := some q }
  | "demote_on_focus" =>
    if p.demote.isSome then none else (boolean? v).map fun b => { p with demote := some b }
  | "max_event_depth" =>
    if p.depth.isSome then none else (natural? v).map fun n => { p with depth := some n }
  | _ => some p

/-- Adds entries in turn. -/
def Partial.putAll (p : Partial) (entries : List (String × Value)) : Option Partial :=
  entries.foldlM (fun p e => p.put e.1 e.2) p

/-- The keys of the settings. -/
def keys : List String :=
  ["default_layer", "default_position", "demote_on_focus", "max_event_depth"]

/-- Whether a section stands where a setting is wanted. -/
def shadowsSetting (s : Section) : Bool :=
  match s.path with
  | key :: _ => keys.contains key
  | [] => false

/-- The setting that the header of a lone section names. -/
def ofHeader? (s : Section) : Option Partial :=
  match s.path, s.path.getLast? with
  | "default_layer" :: _, some name =>
    if s.entries.isEmpty then (Layer.ofName? name).map fun l => { layer := some l } else none
  | "default_position" :: _, some name =>
    if s.entries.isEmpty then (placeOfName? name).map fun q => { position := some q } else none
  | _, _ => none

/-- The settings that the sections of a text stand for. -/
def ofSections? (ss : List Section) : Option Settings :=
  if !Toml.fitTogether ss then none
  else if ss.any shadowsSetting then
    match ss with
    | [s] => (ofHeader? s).map Partial.complete
    | _ => none
  else
    match ss with
    | s :: _ =>
      if s.path.isEmpty then (({} : Partial).putAll s.entries).map Partial.complete
      else some {}
    | [] => some {}

/-- The settings that a text stands for. -/
def parse? (text : String) : Option Settings := (Toml.sections text).bind ofSections?

/-! ## Writing -/

/-- One setting on a line of its own. -/
inductive Line where
  | layer (l : Layer)
  | position (p : Position)
  | demote (b : Bool)
  | depth (n : UInt64)
  deriving DecidableEq, Repr

/-- A name between double quotes. -/
def inQuotes (name : String) : String := "\"" ++ name ++ "\""

/-- The text of a line. -/
def Line.text : Line → String
  | .layer l => "default_layer = " ++ inQuotes l.name ++ "\n"
  | .position .top => "default_position = " ++ inQuotes "top" ++ "\n"
  | .position .bottom => "default_position = " ++ inQuotes "bottom" ++ "\n"
  | .position (.index n) =>
    "default_position = \x7b index = " ++ toString n.toNat ++ " \x7d\n"
  | .demote b => "demote_on_focus = " ++ (if b then "true" else "false") ++ "\n"
  | .depth n => "max_event_depth = " ++ toString n.toNat ++ "\n"

/-- The text of some lines. -/
def textOf (lines : List Line) : String := String.join (lines.map Line.text)

/-- All settings, each on a line of its own. -/
def lines (s : Settings) : List Line :=
  [.layer s.defaultLayer, .position s.defaultPosition, .demote s.demoteOnFocus,
    .depth s.maxEventDepth]

/-- The text of a new file: the standard settings. -/
def standardText : String := textOf (lines {})

/-! ## Loading -/

/-- What there is where a file is wanted. -/
inductive Content where
  | missing
  | directory
  | file (bytes : List UInt8)
  deriving DecidableEq, Repr

/-- Why settings can not be loaded. -/
inductive LoadError where
  /-- A directory is in the place of the file, or the path asks for one. -/
  | isDirectory
  /-- The file is no text. -/
  | notUtf8
  /-- The text stands for no settings. -/
  | malformed
  /-- The settings make no sense. -/
  | invalid (e : SettingsError)
  /-- A missing file can not be made, since its directory is missing. -/
  | noDirectory
  /-- A file is in the place of a directory on the way to the file. -/
  | notDirectory
  /-- A name on the way is too long. -/
  | nameTooLong
  deriving DecidableEq, Repr

/-- The settings that some bytes stand for. -/
def ofBytes (bytes : List UInt8) : Except LoadError Settings :=
  match Text.utf8 bytes with
  | .error _ => .error .notUtf8
  | .ok text =>
    match parse? text with
    | none => .error .malformed
    | some s =>
      match s.validate with
      | .error e => .error (.invalid e)
      | .ok () => .ok s

/-- The settings in a file. -/
def load : Content → Except LoadError Settings
  | .missing => .ok {}
  | .directory => .error .isDirectory
  | .file bytes => ofBytes bytes

/-- What there is after loading: a missing file has been made. -/
def after : Content → Content
  | .missing => .file standardText.toUTF8.toList
  | c => c

/-- The settings in a file, or the standard ones. Without a place for the file they are
the standard ones. -/
def loadOrStandard (place : Option Content) : Settings :=
  match place with
  | none => {}
  | some c =>
    match load c with
    | .ok s => s
    | .error _ => {}

/-- The directory of the file, below the directory for settings. -/
def standardDirectory : String := "stackwm"

/-- The name of the file. -/
def standardName : String := "config.toml"

/-- Where the file is, below the directory for settings. -/
def standardPath : String := standardDirectory ++ "/" ++ standardName

end SettingsFile

end ZOrder
