/-
  ZOrder.Main

  The command that checks a settings file, run on the files of the machine. What it
  prints and what it makes of a file is decided in `ZOrder.Check` and
  `ZOrder.SettingsFile`; here files are read, a missing one is written, and lines
  are printed.
-/

import ZOrder.Check

namespace ZOrder.Check

/-- The file at the standard place, its directory made if needed. -/
def standardFile : IO String := do
  let standard := (← IO.getEnv "HOME").getD "" ++ "/.config"
  let home := ((← IO.getEnv "XDG_CONFIG_HOME").filter (·.startsWith "/")).getD standard
  let directory := home ++ "/" ++ SettingsFile.standardDirectory
  IO.FS.createDirAll directory
  return directory ++ "/" ++ SettingsFile.standardName

/-- What there is at a path. A path that leads nowhere leads to a missing file. -/
def contentOf (path : String) : IO SettingsFile.Content := do
  try
    return .file (← IO.FS.readBinFile path).toList
  catch
    | .inappropriateType _ 21 _ => return .directory
    | .inappropriateType _ _ _ => return .missing
    | .noFileOrDirectory _ _ _ => return .missing
    | .invalidArgument _ _ _ => return .missing
    | other => throw other

/-- Why a missing file can not be written. -/
def reasonOf? : IO.Error → Option SettingsFile.LoadError
  | .noFileOrDirectory _ _ _ => some .noDirectory
  | .inappropriateType _ 20 _ => some .notDirectory
  | .inappropriateType _ _ _ => some .isDirectory
  | .invalidArgument _ 36 _ => some .nameTooLong
  | _ => none

/-- Loads settings from a path; a missing file is written. -/
def loadFile (path : String) : IO (Except SettingsFile.LoadError Settings) := do
  let content ← contentOf path
  match content, SettingsFile.after content with
  | .missing, .file bytes =>
    try
      IO.FS.writeBinFile path ⟨bytes.toArray⟩
      return SettingsFile.load content
    catch e =>
      match reasonOf? e with
      | some reason => return .error reason
      | none => throw e
  | _, _ => return SettingsFile.load content

end ZOrder.Check

open ZOrder in
/-- Runs the command; arguments that make no sense end it with exit code 2. -/
def main (args : List String) : IO UInt32 := do
  match Check.command args with
  | .help =>
    IO.print Check.helpText
    return 0
  | .version =>
    IO.print Check.versionText
    return 0
  | .misuse =>
    IO.eprint Check.helpText
    return 2
  | .run verbose path =>
    IO.print Check.greeting
    let path ← match path with
      | some path => pure path
      | none => Check.standardFile
    IO.print (Check.loadingLine path)
    IO.print (Check.report verbose (← Check.loadFile path))
    return 0
