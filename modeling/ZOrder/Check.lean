/-
  ZOrder.Check

  A command that checks a settings file: it loads the file named on the command line,
  or the one at the standard place, and says whether it is good. With `--verbose` it
  also stacks three windows with the settings and shows the result.

  Arguments are read from left to right; the first one that asks for help or for the
  version, or that makes no sense, decides.
-/

import ZOrder.Files
import ZOrder.Manager
import ZOrder.Wire.Info

namespace ZOrder.Check

/-! ## Arguments -/

/-- What the arguments ask for. -/
inductive Command where
  /-- Show how the command is used. -/
  | help
  /-- Show the version. -/
  | version
  /-- Nothing: they make no sense. -/
  | misuse
  /-- Check the file at a path, or the one at the standard place. -/
  | run (verbose : Bool) (path : Option String)
  deriving DecidableEq, Repr

/-- The effect of flags joined behind one dash: a command, or whether to be verbose. -/
def readFlags (verbose : Bool) : List Char → Except Command Bool
  | [] => .ok verbose
  | 'v' :: rest => if verbose then .error .misuse else readFlags true rest
  | 'h' :: _ => .error .help
  | 'V' :: _ => .error .version
  | _ :: _ => .error .misuse

/-- Reads arguments from left to right. After `--` all of them are paths. -/
def readArgs (verbose : Bool) (path : Option String) (pathsOnly : Bool) :
    List String → Command
  | [] => .run verbose path
  | arg :: rest =>
    let asPath := if path.isSome then .misuse else readArgs verbose (some arg) pathsOnly rest
    if pathsOnly then asPath
    else
      match arg.toList with
      | ['-', '-'] => readArgs verbose path true rest
      | '-' :: '-' :: _ =>
        if arg = "--verbose" then
          if verbose then .misuse else readArgs true path false rest
        else if arg = "--help" then .help
        else if arg = "--version" then .version
        else .misuse
      | '-' :: c :: flags =>
        match readFlags verbose (c :: flags) with
        | .error command => command
        | .ok verbose => readArgs verbose path false rest
      | _ => asPath

/-- What the arguments ask for. -/
def command (args : List String) : Command := readArgs false none false args

/-! ## Texts -/

/-- The version of the command. -/
def versionNumber : String := "0.1.0"

/-- The name and the version. -/
def versionText : String := "stackwm Check " ++ versionNumber ++ "\n"

/-- How the help text is laid out. -/
def helpTemplate : String :=
  "\x7bname\x7d \x7bversion\x7d\n"
    ++ "\x7bauthor-with-newline\x7d\x7babout-with-newline\x7d\n"
    ++ "\x7busage-heading\x7d \x7busage\x7d\n"
    ++ "\n"
    ++ "\x7ball-args\x7d\n"

/-- How the command is used. -/
def helpText : String :=
  versionText
    ++ "stackwm contributors\n"
    ++ "Checks the stacking configuration file\n"
    ++ "\n"
    ++ "Usage: stackwm-check [OPTIONS] [INPUT]\n"
    ++ "\n"
    ++ "Arguments:\n"
    ++ "  [INPUT]  Sets the input file to use. Uses the XDG config file otherwise.\n"
    ++ "\n"
    ++ "Options:\n"
    ++ "  -v, --verbose  Outputs the loaded configuration and a sample stacking.\n"
    ++ "  -h, --help     Print help\n"
    ++ "  -V, --version  Print version\n"

/-- A line that says what is going on. -/
def notice (s : String) : String := "\x1b[0;94m::\x1b[0m " ++ s ++ "\n"

/-- The first line of a check. -/
def greeting : String := notice ("stackwm version: " ++ versionNumber)

/-- The line before a file is loaded. -/
def loadingLine (path : String) : String :=
  notice ("Loading configuration from " ++ path ++ " . . .")

/-- The line after a good file. -/
def goodLine : String := "\x1b[0;92m    -> Configuration loaded OK \x1b[0m\n"

/-- The line after a bad file. -/
def badLine (reason : String) : String :=
  "\x1b[1;91mERROR:\x1b[0m\x1b[1m Configuration failed. Reason: " ++ reason ++ " \x1b[0m\n"

/-- Why a file is bad. -/
def reason : SettingsFile.LoadError → String
  | .isDirectory => "Is a directory (os error 21)"
  | .notUtf8 => "stream did not contain valid UTF-8"
  | .malformed => "The text is not a TOML document with valid settings"
  | .invalid e => e.message
  | .noDirectory => "No such file or directory (os error 2)"
  | .notDirectory => "Not a directory (os error 20)"
  | .nameTooLong => "File name too long (os error 36)"

/-! ## A sample -/

/-- The three windows of the sample, stacked and moved about. -/
def sampleOps : List (Op Int32) :=
  [.add 1, .add 2, .addAt 3 .top .top, .fullscreen 1 true, .focus 2]

/-- A manager of a flat stack after the sample. -/
def sample (s : Settings) : Manager (FlatStack Int32) Int32 :=
  sampleOps.foldl (fun m op => (m.perform FlatStack.server op).2) (.new s .empty)

/-- The windows of a flat order, bottom first, in brackets. -/
def orderText (order : List Int32) : String :=
  "[" ++ ", ".intercalate
    (order.map fun w => "WindowHandle(" ++ WindowHandle.text w ++ ")") ++ "]"

/-- The lines that show the sample. -/
def sampleText (s : Settings) : String :=
  let m := sample s
  notice "Sample stacking:"
    ++ (m.inspect FlatStack.server).1.toText ++ "\n"
    ++ "    -> flat order " ++ orderText (m.shutdown FlatStack.server).order ++ "\n"

/-- The lines after a file has been loaded. -/
def report (verbose : Bool) : Except SettingsFile.LoadError Settings → String
  | .ok s => goodLine ++ (if verbose then sampleText s else "")
  | .error e => badLine (reason e)

/-! ## The whole command -/

/-- What the command leaves behind. -/
structure Outcome where
  code : Nat
  output : String
  files : Files

/-- Runs the command on files in memory. The standard place is below the directory `home`,
which is shown as `shownHome`. -/
def run (args : List String) (files : Files) (home : List String) (shownHome : String) :
    Outcome :=
  match command args with
  | .help => ⟨0, helpText, files⟩
  | .version => ⟨0, versionText, files⟩
  | .misuse => ⟨2, "", files⟩
  | .run verbose path =>
    let ((result, files), shown) := match path with
      | some path => (files.load path, path)
      | none =>
        let standard := home ++ Files.parts SettingsFile.standardPath
        ((files.makeWay standard).loadAt standard, shownHome ++ "/" ++ SettingsFile.standardPath)
    ⟨0, greeting ++ loadingLine shown ++ report verbose result, files⟩

end ZOrder.Check
