/-
  ZOrder.LogFilter

  Which messages are logged, as directives separated by commas. A directive is a
  level, or a target with a level after an equals sign; a target without a level
  lets everything through. Of a filter only the highest level counts here.
-/

import ZOrder.Text.Alphanumeric
import ZOrder.Text.Blank
import ZOrder.Text.Digit

namespace ZOrder

/-- How much is logged, from nothing to everything. -/
inductive LogLevel where
  | off
  | error
  | warn
  | info
  | debug
  | trace
  deriving DecidableEq, Repr

namespace LogLevel

/-- All levels, from nothing to everything. -/
def all : List LogLevel := [off, error, warn, info, debug, trace]

/-- The place of a level in `all`. -/
def rank : LogLevel → Nat
  | off => 0
  | error => 1
  | warn => 2
  | info => 3
  | debug => 4
  | trace => 5

/-- The name of a level. -/
def name : LogLevel → String
  | off => "off"
  | error => "error"
  | warn => "warn"
  | info => "info"
  | debug => "debug"
  | trace => "trace"

/-- The number that decimal digits stand for, a plus sign before them allowed. -/
def number? (cs : List Char) : Option Nat :=
  let digits := match cs with
    | '+' :: rest => rest
    | _ => cs
  if digits.isEmpty then none else Text.digitsValue? 10 digits

/-- The level that a word names, in letters of either case, or by its number. No word at
all names errors. -/
def ofWord? (cs : List Char) : Option LogLevel :=
  match (number? cs).bind fun n => all[n]? with
  | some l => some l
  | none =>
    if cs.isEmpty then some error
    else all.find? fun l => l.name.toList = cs.map Char.toLower

/-- The higher of two levels. -/
def higher (a b : LogLevel) : LogLevel := if a.rank < b.rank then b else a

end LogLevel

namespace LogFilter

/-- The parts of a text between commas. -/
def splitCommas : List Char → List (List Char)
  | [] => [[]]
  | c :: rest =>
    match splitCommas rest with
    | part :: parts => if c = ',' then [] :: part :: parts else (c :: part) :: parts
    | [] => [[c]]

/-- Whether a directive may start with a character. -/
def startsDirective (c : Char) : Bool :=
  Text.isAlphanumeric c || c = '-' || c = ':' || c = '_'

/-- The characters of a text after its first `n` bytes. -/
def dropBytes : Nat → List Char → List Char
  | 0, cs => cs
  | _, [] => []
  | n, c :: rest => dropBytes (n - c.utf8Size) rest

/-- The level of a directive; none when it is malformed. Blanks around a directive are passed
over to find its first character and its equals sign, but belong to the words: the level
starts as many bytes into the directive as the equals sign ends in the part without blanks. -/
def directive? (cs : List Char) : Option LogLevel :=
  let core := Text.trimBlanks cs
  match core with
  | [] => none
  | c :: _ =>
    if !startsDirective c then none
    else if core.contains '=' then
      let target := String.ofList (core.takeWhile (· ≠ '='))
      match dropBytes (target.utf8ByteSize + 1) cs with
      | [] => some .trace
      | level => LogLevel.ofWord? level
    else some ((LogLevel.ofWord? cs).getD .trace)

/-- The levels of the directives in a text; none when one is malformed. -/
def levels? (text : String) : Option (List LogLevel) :=
  ((splitCommas text.toList).filter fun part => !part.isEmpty).mapM directive?

/-- The highest level that a text lets through, and whether the text is well formed. Without
directives, and for a malformed text, it is `info`. -/
def highest (text : String) : Bool × LogLevel :=
  match levels? text with
  | none => (false, .info)
  | some [] => (true, .info)
  | some (l :: ls) => (true, ls.foldl LogLevel.higher l)

end LogFilter

end ZOrder
