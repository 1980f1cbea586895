/-
  ZOrder.Text.Quoted

  A text between double quotes, with every character that would be misread or
  not seen written as an escape: the quote, the backslash, the common controls by
  a letter, other unprintable and joining characters by their code point in
  lowercase hexadecimal.
-/

import ZOrder.Text.Printable

namespace ZOrder.Text

/-- The escape of a code point: `\u`, then the number in braces. -/
def codePointEscape (c : Char) : List Char :=
  ['\\', 'u', '\x7b'] ++ Nat.toDigits 16 c.toNat ++ ['\x7d']

/-- How one character is written inside double quotes. -/
def quoteChar (c : Char) : List Char :=
  if c = '"' then ['\\', '"']
  else if c = '\\' then ['\\', '\\']
  else if c = '\n' then ['\\', 'n']
  else if c = '\r' then ['\\', 'r']
  else if c = '\t' then ['\\', 't']
  else if c.toNat = 0 then ['\\', '0']
  else if isUnprintable c || isExtending c then codePointEscape c
  else [c]

/-- A text between double quotes, with escapes. -/
def quote (s : String) : String :=
  String.ofList ('"' :: s.toList.flatMap quoteChar ++ ['"'])

end ZOrder.Text
