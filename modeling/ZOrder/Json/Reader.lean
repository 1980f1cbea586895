/-
  ZOrder.Json.Reader

  JSON from text. `parse?` takes a whole text, blanks around the value allowed. A
  number with neither fraction nor exponent is an integer, except `-0`. Of two
  members with one name the later one counts. A text that nests arrays and objects
  deeper than `maxDepth` is refused.
-/

import ZOrder.Json.Basic
import ZOrder.Text.Digit

namespace ZOrder.Json

/-! ## Characters and numbers -/

/-- The text from the first character that is no JSON blank. -/
def skipSpace (cs : List Char) : List Char :=
  cs.dropWhile fun c => c == ' ' || c == '\t' || c == '\n' || c == '\r'

/-- Splits off the decimal digits at the front. -/
def digits (cs : List Char) : List Char × List Char :=
  (cs.takeWhile Char.isDigit, cs.dropWhile Char.isDigit)

/-- The exponent at the front, zero when there is none. -/
def exponent? (cs : List Char) : Option (Option Int × List Char) :=
  match cs with
  | c :: rest =>
    if c = 'e' ∨ c = 'E' then
      let (negative, rest) := match rest with
        | '-' :: rest => (true, rest)
        | '+' :: rest => (false, rest)
        | _ => (false, rest)
      let (ds, rest) := digits rest
      if ds.isEmpty then none
      else
        let n : Int := ((Text.digitsValue? 10 ds).getD 0 : Nat)
        some (some (if negative then -n else n), rest)
    else some (none, cs)
  | [] => some (none, [])

/-- The fraction digits at the front, none when there is no point. -/
def fraction? (cs : List Char) : Option (Option (List Char) × List Char) :=
  match cs with
  | '.' :: rest =>
    let (ds, rest) := digits rest
    if ds.isEmpty then none else some (some ds, rest)
  | _ => some (none, cs)

/-- The number at the front. -/
def number? (cs : List Char) : Option (Json × List Char) :=
  let (negative, cs) := match cs with
    | '-' :: rest => (true, rest)
    | _ => (false, cs)
  let (whole, cs) := digits cs
  if whole.isEmpty || (whole.length > 1 && whole.head? == some '0') then none
  else do
    let (fraction, cs) ← fraction? cs
    let (exponent, cs) ← exponent? cs
    let places := fraction.getD []
    let n : Int := ((Text.digitsValue? 10 (whole ++ places)).getD 0 : Nat)
    let n := if negative then -n else n
    if fraction.isNone && exponent.isNone && !(negative && n == 0) then
      some (.int n, cs)
    else
      some (.decimal n (exponent.getD 0 - places.length), cs)

/-! ## Texts -/

/-- Reads a text up to its closing quote; `seen` holds its characters, last one first. -/
def textFrom? (seen : List Char) : List Char → Option (String × List Char)
  | [] => none
  | '"' :: rest => some (String.ofList seen.reverse, rest)
  | '\\' :: 'u' :: a :: b :: c :: d :: rest =>
    match Text.digitsValue? 16 [a, b, c, d] with
    | none => none
    | some high =>
      if 0xD800 ≤ high ∧ high < 0xDC00 then
        match rest with
        | '\\' :: 'u' :: e :: f :: g :: h :: rest =>
          match Text.digitsValue? 16 [e, f, g, h] with
          | none => none
          | some low =>
            if 0xDC00 ≤ low ∧ low < 0xE000 then
              textFrom?
                (Char.ofNat (0x10000 + (high - 0xD800) * 0x400 + (low - 0xDC00)) :: seen) rest
            else none
        | _ => none
      else if 0xDC00 ≤ high ∧ high < 0xE000 then none
      else textFrom? (Char.ofNat high :: seen) rest
  | '\\' :: c :: rest =>
    match c with
    | '"' => textFrom? ('"' :: seen) rest
    | '\\' => textFrom? ('\\' :: seen) rest
    | '/' => textFrom? ('/' :: seen) rest
    | 'b' => textFrom? ('\x08' :: seen) rest
    | 'f' => textFrom? ('\x0c' :: seen) rest
    | 'n' => textFrom? ('\n' :: seen) rest
    | 'r' => textFrom? ('\r' :: seen) rest
    | 't' => textFrom? ('\t' :: seen) rest
    | _ => none
  | c :: rest => if c.toNat < 0x20 then none else textFrom? (c :: seen) rest

/-! ## Values -/

/-- Adds a member to an object, in place of an earlier one of that name. -/
def putMember (members : List (String × Json)) (name : String) (j : Json) :
    List (String × Json) :=
  members.filter (fun m => m.1 != name) ++ [(name, j)]

/-- How many arrays and objects may be open at once. -/
def maxDepth : Nat := 127

mutual

/-- The value at the front, reading at most `fuel` levels and entries; `depth` more arrays and
objects may be opened. -/
def value? (fuel depth : Nat) (cs : List Char) : Option (Json × List Char) :=
  match fuel with
  | 0 => none
  | fuel + 1 =>
    match skipSpace cs with
    | 'n' :: 'u' :: 'l' :: 'l' :: rest => some (.null, rest)
    | 't' :: 'r' :: 'u' :: 'e' :: rest => some (.bool true, rest)
    | 'f' :: 'a' :: 'l' :: 's' :: 'e' :: rest => some (.bool false, rest)
    | '"' :: rest => (textFrom? [] rest).map fun (s, rest) => (.str s, rest)
    | '[' :: rest =>
      match depth with
      | 0 => none
      | depth + 1 =>
        match skipSpace rest with
        | ']' :: rest => some (.arr [], rest)
        | rest => items? fuel depth [] rest
    | '\x7b' :: rest =>
      match depth with
      | 0 => none
      | depth + 1 =>
        match skipSpace rest with
        | '\x7d' :: rest => some (.obj [], rest)
        | rest => members? fuel depth [] rest
    | rest => number? rest

/-- The rest of an array whose items so far are `seen`, last one first. -/
def items? (fuel depth : Nat) (seen : List Json) (cs : List Char) : Option (Json × List Char) :=
  match fuel with
  | 0 => none
  | fuel + 1 =>
    match value? fuel depth cs with
    | none => none
    | some (j, rest) =>
      match skipSpace rest with
      | ',' :: rest => items? fuel depth (j :: seen) rest
      | ']' :: rest => some (.arr (j :: seen).reverse, rest)
      | _ => none

/-- The rest of an object whose members so far are `seen`. -/
def members? (fuel depth : Nat) (seen : List (String × Json)) (cs : List Char) :
    Option (Json × List Char) :=
  match fuel with
  | 0 => none
  | fuel + 1 =>
    match skipSpace cs with
    | '"' :: rest =>
      match textFrom? [] rest with
      | none => none
      | some (name, rest) =>
        match skipSpace rest with
        | ':' :: rest =>
          match value? fuel depth rest with
          | none => none
          | some (j, rest) =>
            match skipSpace rest with
            | ',' :: rest => members? fuel depth (putMember seen name j) rest
            | '\x7d' :: rest => some (.obj (putMember seen name j), rest)
            | _ => none
        | _ => none
    | _ => none

end

/-- The value that a whole text stands for. -/
def parse? (s : String) : Option Json :=
  match value? (s.length + 1) maxDepth s.toList with
  | some (j, rest) => if (skipSpace rest).isEmpty then some j else none
  | none => none

end ZOrder.Json
