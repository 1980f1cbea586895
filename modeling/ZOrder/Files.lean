/-
  ZOrder.Files

  A tree of files in memory, seen from one of its directories. Paths are written
  with slashes; a slash in front starts at the root, `.` stays, `..` goes up, and
  the root is above itself. Every name on the way but the last one must be the name
  of a directory; the last one may be missing, unless a slash follows it.
-/

import ZOrder.SettingsFile

namespace ZOrder

open SettingsFile (Content LoadError)

/-- Directories and files, by the names on the way to them from the root. -/
structure Files where
  /-- Where paths without a slash in front start. -/
  here : List String := []
  /-- The directories below the root. -/
  directories : List (List String) := []
  files : List (List String × List UInt8) := []
  deriving DecidableEq, Repr

namespace Files

/-! ## Paths -/

/-- The parts of a path between slashes. -/
def splitSlashes : List Char → List (List Char)
  | [] => [[]]
  | c :: rest =>
    match splitSlashes rest with
    | part :: parts => if c = '/' then [] :: part :: parts else (c :: part) :: parts
    | [] => [[c]]

/-- The parts of a path. -/
def parts (path : String) : List String := (splitSlashes path.toList).map String.ofList

/-- The most bytes that a name may have. -/
def maxNameSize : Nat := 255

/-- The most bytes that a path may have. -/
def maxPathSize : Nat := 4095

/-- What there is at a place. -/
def contentAt (f : Files) (place : List String) : Content :=
  if place.isEmpty || f.directories.contains place then .directory
  else
    match f.files.lookup place with
    | some bytes => .file bytes
    | none => .missing

/-- The place that the parts of a path lead to from another place. Slashes after the last
name ask for a directory there, and are seen before the name is looked at. -/
def walk (f : Files) (place : List String) : List String → Except LoadError (List String)
  | [] => .ok place
  | part :: rest =>
    match f.contentAt place with
    | .directory =>
      if part ≠ "" ∧ rest ≠ [] ∧ rest.all String.isEmpty then .error .isDirectory
      else if maxNameSize < part.utf8ByteSize then .error .nameTooLong
      else if part = "" ∨ part = "." then f.walk place rest
      else if part = ".." then f.walk place.dropLast rest
      else f.walk (place ++ [part]) rest
    | .file _ => .error .notDirectory
    | .missing => .error .noDirectory

/-- The place that a path leads to. -/
def place (f : Files) (path : String) : Except LoadError (List String) :=
  if path.isEmpty then .error .noDirectory
  else if maxPathSize < path.utf8ByteSize then .error .nameTooLong
  else if path.toList.head? = some '/' then f.walk [] (parts path)
  else f.walk f.here (parts path)

/-! ## Contents -/

/-- Puts something at a place. -/
def put (f : Files) (place : List String) : Content → Files
  | .missing => f
  | .directory => { f with directories := place :: f.directories }
  | .file bytes =>
    { f with files := (place, bytes) :: f.files.filter fun e => e.1 ≠ place }

/-- Makes the directories that are missing on the way to a place. -/
def makeWay (f : Files) (place : List String) : Files :=
  let ways := (List.range place.length).map fun n => place.take n
  { f with directories := ways.filter (fun p => f.contentAt p = .missing) ++ f.directories }

/-- The text of the file at a place. -/
def textAt? (f : Files) (place : List String) : Option String :=
  match f.contentAt place with
  | .file bytes => (Text.utf8 bytes).toOption
  | _ => none

/-- Loads settings from a place; a missing file is made. -/
def loadAt (f : Files) (place : List String) : Except LoadError Settings × Files :=
  let content := f.contentAt place
  let made := if content = .missing then f.put place (SettingsFile.after content) else f
  (SettingsFile.load content, made)

/-- Loads settings from a path; a missing file is made. -/
def load (f : Files) (path : String) : Except LoadError Settings × Files :=
  match f.place path with
  | .error e => (.error e, f)
  | .ok place => f.loadAt place

end Files

end ZOrder
