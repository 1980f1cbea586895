/-
  ZOrder.Json.Printer

  JSON as text, in two layouts. `compress` writes no blanks. `pretty` writes each
  item and each member on a line of its own, two spaces deeper than what holds it,
  with one space after the colon; an empty array or object stays on one line.

  A text is written with escapes for the double quote, the backslash and the
  characters below U+0020 only.
-/

import ZOrder.Json.Basic

namespace ZOrder.Json

/-! ## Texts -/

/-- A number below 2^16 as four lowercase hexadecimal digits. -/
def hex4 (n : Nat) : List Char :=
  [Nat.digitChar (n / 0x1000 % 16), Nat.digitChar (n / 0x100 % 16),
    Nat.digitChar (n / 0x10 % 16), Nat.digitChar (n % 16)]

/-- How one character is written inside a JSON text. -/
def escapeChar (c : Char) : List Char :=
  if c = '"' then ['\\', '"']
  else if c = '\\' then ['\\', '\\']
  else if c = '\x08' then ['\\', 'b']
  else if c = '\t' then ['\\', 't']
  else if c = '\n' then ['\\', 'n']
  else if c = '\x0c' then ['\\', 'f']
  else if c = '\r' then ['\\', 'r']
  else if c.toNat < 0x20 then ['\\', 'u'] ++ hex4 c.toNat
  else [c]

/-- A text between double quotes. -/
def quoteText (s : String) : String :=
  String.ofList ('"' :: s.toList.flatMap escapeChar ++ ['"'])

/-- A number written as digits and a power of ten. -/
def decimalText (digits exponent : Int) : String :=
  toString digits ++ "e" ++ toString exponent

/-! ## Without blanks -/

mutual

/-- The value on one line, without blanks. -/
def compress : Json → String
  | .null => "null"
  | .bool b => if b then "true" else "false"
  | .int n => toString n
  | .decimal digits exponent => decimalText digits exponent
  | .str s => quoteText s
  | .arr items => "[" ++ compressItems items ++ "]"
  | .obj members => "\x7b" ++ compressMembers members ++ "\x7d"

/-- The items of an array, separated by commas. -/
def compressItems : List Json → String
  | [] => ""
  | [j] => compress j
  | j :: rest => compress j ++ "," ++ compressItems rest

/-- The members of an object, separated by commas. -/
def compressMembers : List (String × Json) → String
  | [] => ""
  | [(name, j)] => quoteText name ++ ":" ++ compress j
  | (name, j) :: rest => quoteText name ++ ":" ++ compress j ++ "," ++ compressMembers rest

end

/-! ## One entry a line -/

/-- A new line and two spaces for each level of depth. -/
def lineBreak (depth : Nat) : String :=
  String.ofList ('\n' :: List.replicate (2 * depth) ' ')

mutual

/-- The value with one entry a line, at some depth. -/
def prettyAt (depth : Nat) : Json → String
  | .null => "null"
  | .bool b => if b then "true" else "false"
  | .int n => toString n
  | .decimal digits exponent => decimalText digits exponent
  | .str s => quoteText s
  | .arr items =>
    if items.isEmpty then "[]"
    else "[" ++ prettyItems (depth + 1) items ++ lineBreak depth ++ "]"
  | .obj members =>
    if members.isEmpty then "\x7b\x7d"
    else "\x7b" ++ prettyMembers (depth + 1) members ++ lineBreak depth ++ "\x7d"

/-- The items of an array, each on a line of its own. -/
def prettyItems (depth : Nat) : List Json → String
  | [] => ""
  | [j] => lineBreak depth ++ prettyAt depth j
  | j :: rest => lineBreak depth ++ prettyAt depth j ++ "," ++ prettyItems depth rest

/-- The members of an object, each on a line of its own. -/
def prettyMembers (depth : Nat) : List (String × Json) → String
  | [] => ""
  | [(name, j)] => lineBreak depth ++ quoteText name ++ ": " ++ prettyAt depth j
  | (name, j) :: rest =>
    lineBreak depth ++ quoteText name ++ ": " ++ prettyAt depth j ++ ","
      ++ prettyMembers depth rest

end

/-- The value with one entry a line. -/
def pretty (j : Json) : String := prettyAt 0 j

end ZOrder.Json
