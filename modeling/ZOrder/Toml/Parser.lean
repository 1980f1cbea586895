/-
  ZOrder.Toml.Parser

  From tokens to sections. A section is a header, the path of its name, and the
  entries below it up to the next header; entries before the first header make up a
  section without a name.

  Every reader here takes the tokens that are left and gives back what it read and
  the tokens left after it.
-/

import ZOrder.Toml.Number
import ZOrder.Toml.Token
import ZOrder.Toml.Value

namespace ZOrder.Toml

/-- A part of a TOML text under one header. -/
structure Section where
  /-- Empty for the entries before the first header. -/
  path : List String
  /-- Whether the header is doubled, which adds to a list of tables. -/
  isArray : Bool
  entries : List (String × Value)
  deriving Repr, Inhabited

/-! ## Blanks and line ends -/

/-- Passes over blanks. -/
def skipBlanks : List Token → List Token
  | .blanks _ :: ts => ts
  | ts => ts

/-- Passes over blanks, line ends and comments. A comment reaches to the end of its line. -/
def skipLines : List Token → Option (List Token)
  | .blanks _ :: ts => skipLines ts
  | .newline :: ts => skipLines ts
  | .comment :: .newline :: ts => skipLines ts
  | [.comment] => some []
  | .comment :: _ => none
  | ts => some ts

/-- Passes over the rest of a line, which must hold no more than a comment. -/
def lineEnd (ts : List Token) : Option (List Token) :=
  match skipBlanks ts with
  | [] => some []
  | .newline :: ts => some ts
  | [.comment] => some []
  | .comment :: .newline :: ts => some ts
  | _ => none

/-- Passes over one token. -/
def expect (t : Token) : List Token → Option (List Token)
  | [] => none
  | u :: ts => if u = t then some ts else none

/-- Passes over one token if it is there. -/
def optional (t : Token) (ts : List Token) : Bool × List Token :=
  match expect t ts with
  | some ts => (true, ts)
  | none => (false, ts)

/-- Reads a bare word. -/
def word? : List Token → Option (List Char × List Token)
  | .word cs :: ts => some (cs, ts)
  | _ => none

/-! ## Keys -/

/-- Reads one key: a bare word, or a text on one line. -/
def key? : List Token → Option (String × List Token)
  | .word cs :: ts => some (String.ofList cs, ts)
  | .text cs false :: ts => some (String.ofList cs, ts)
  | _ => none

/-- Reads the rest of a path of keys, each after a period. -/
def moreKeys : (fuel : Nat) → List Token → Option (List String × List Token)
  | 0, ts => some ([], ts)
  | fuel + 1, ts =>
    match skipBlanks ts with
    | .period :: ts => do
      let (key, ts) ← key? (skipBlanks ts)
      let (keys, ts) ← moreKeys fuel ts
      return (key :: keys, ts)
    | ts => some ([], ts)

/-- Reads a path of keys with periods between them. -/
def path? (ts : List Token) : Option (List String × List Token) := do
  let (key, ts) ← key? ts
  let (keys, ts) ← moreKeys (ts.length + 1) ts
  return (key :: keys, ts)

/-! ## Numbers and dates -/

/-- Reads the exponent of a fraction from what follows its digits. The exponent may be in a
word of its own after a plus sign. -/
def exponentOf (suffix : List Char) (ts : List Token) : Option (Int × List Token) :=
  match suffix with
  | [] => some (0, ts)
  | c :: suffix =>
    if c ≠ 'e' ∧ c ≠ 'E' then none
    else if suffix.isEmpty then do
      let (cs, ts) ← word? (optional .plus ts).2
      let (digits, rest) ← digitsFrom 10 true {} cs
      if rest.isEmpty then some (exponentValue false digits, ts) else none
    else do
      let (negative, digits, rest) ← signedDigits true suffix
      if rest.isEmpty then some (exponentValue negative digits, ts) else none

/-- Reads the rest of a fraction, its word before the period and the one after it given. -/
def fraction (whole : List Char) (after : Option (List Char)) (ts : List Token) :
    Option (Value × List Token) := do
  let (_, digits, suffix) ← signedDigits false whole
  let (places, suffix) ← match after with
    | none => some ([], suffix)
    | some after => if suffix.isEmpty then digitsFrom 10 true {} after else none
  let (exponent, ts) ← exponentOf suffix ts
  if isFinite (digits ++ places) (exponent - places.length) then some (.float, ts) else none

/-- Reads a number, its first word given. -/
def number (cs : List Char) (ts : List Token) : Option (Value × List Token) :=
  match cs with
  | '0' :: 'x' :: digits => (unsigned? 16 digits).map fun n => (.integer n, ts)
  | '0' :: 'o' :: digits => (unsigned? 8 digits).map fun n => (.integer n, ts)
  | '0' :: 'b' :: digits => (unsigned? 2 digits).map fun n => (.integer n, ts)
  | cs =>
    if cs.contains 'e' || cs.contains 'E' then fraction cs none ts
    else
      match ts with
      | .period :: ts => do
        let (after, ts) ← word? ts
        fraction cs (some after) ts
      | ts =>
        if cs ∈ ["inf".toList, "-inf".toList, "nan".toList, "-nan".toList] then
          some (.float, ts)
        else (decimal? cs).map fun n => (.integer n, ts)

/-- Reads the rest of a date or a time, its first word and maybe a colon read. Only its
shape is looked at: words, and the marks between them. -/
def date (colonRead : Bool) (ts : List Token) : Option (Value × List Token) := do
  let ts := match ts with
    | .blanks [' '] :: .word _ :: ts => ts
    | ts => ts
  let (colon, ts) := if colonRead then (true, ts) else optional .colon ts
  if !colon then return (.date, ts)
  let (_, ts) ← word? ts
  let ts ← expect .colon ts
  let (_, ts) ← word? ts
  let (_, ts) ← withWord .period ts
  let (_, ts) ← withWord .plus ts
  let (_, ts) ← withWord .colon ts
  return (.date, ts)
where
  /-- Passes over a mark and the word after it if the mark is there. -/
  withWord (mark : Token) (ts : List Token) : Option (Bool × List Token) :=
    match optional mark ts with
    | (true, ts) => (word? ts).map fun r => (true, r.2)
    | (false, ts) => some (false, ts)

/-- Whether two characters follow each other in a word. -/
def hasPair (a b : Char) : List Char → Bool
  | c :: d :: rest => (c = a && d = b) || hasPair a b (d :: rest)
  | _ => false

/-- Whether a word looks like a date: it has a `T`, or a dash that is neither its sign nor
the sign of an exponent. -/
def looksLikeDate (cs : List Char) : Bool :=
  cs.contains 'T' || cs.contains 't'
    || ((cs.drop 1).contains '-' && !hasPair 'e' '-' cs && !hasPair 'E' '-' cs)

/-- Reads a number or a date, its first word given. -/
def numberOrDate (cs : List Char) (ts : List Token) : Option (Value × List Token) :=
  if looksLikeDate cs then date false ts
  else
    match ts with
    | .colon :: ts => date true ts
    | ts => number cs ts

/-- Reads the value that starts with a bare word. -/
def wordValue (cs : List Char) (ts : List Token) : Option (Value × List Token) :=
  if cs = "true".toList then some (.boolean true, ts)
  else if cs = "false".toList then some (.boolean false, ts)
  else if cs = "inf".toList ∨ cs = "nan".toList then numberOrDate cs ts
  else
    match cs with
    | c :: _ => if c = '-' ∨ c.isDigit then numberOrDate cs ts else none
    | [] => none

/-! ## Values -/

mutual

/-- Reads a value, at most `fuel` levels and entries of it. -/
def value (fuel : Nat) (ts : List Token) : Option (Value × List Token) :=
  match fuel with
  | 0 => none
  | fuel + 1 =>
    match ts with
    | .text cs _ :: ts => some (.string (String.ofList cs), ts)
    | .word cs :: ts => wordValue cs ts
    | .plus :: .word cs :: ts => number cs ts
    | .leftBracket :: ts => items fuel [] ts
    | .leftBrace :: ts =>
      match skipBlanks ts with
      | .rightBrace :: ts => some (.inline [], ts)
      | ts => entries fuel [] ts
    | _ => none

/-- Reads the rest of an array whose items so far are `seen`, last one first. -/
def items (fuel : Nat) (seen : List Value) (ts : List Token) : Option (Value × List Token) :=
  match fuel with
  | 0 => none
  | fuel + 1 =>
    match skipLines ts with
    | none => none
    | some (.rightBracket :: ts) => some (.array seen.reverse, ts)
    | some ts =>
      match value fuel ts with
      | none => none
      | some (v, ts) =>
        match skipLines ts with
        | some (.comma :: ts) => items fuel (v :: seen) ts
        | some (.rightBracket :: ts) => some (.array (v :: seen).reverse, ts)
        | _ => none

/-- Reads the rest of a table between braces whose entries so far are `seen`. -/
def entries (fuel : Nat) (seen : List (String × Value)) (ts : List Token) :
    Option (Value × List Token) :=
  match fuel with
  | 0 => none
  | fuel + 1 =>
    match path? ts with
    | none => none
    | some (path, ts) =>
      match skipBlanks ts with
      | .equals :: ts =>
        match value fuel (skipBlanks ts) with
        | none => none
        | some (v, ts) =>
          match addEntry seen v path with
          | none => none
          | some seen =>
            match skipBlanks ts with
            | .rightBrace :: ts => some (.inline seen, ts)
            | .comma :: ts => entries fuel seen (skipBlanks ts)
            | _ => none
      | _ => none

end

/-! ## Lines -/

/-- Reads an entry on a line of its own. -/
def entryLine (ts : List Token) : Option ((List String × Value) × List Token) := do
  let (path, ts) ← path? ts
  let ts ← expect .equals (skipBlanks ts)
  let ts := skipBlanks ts
  let (v, ts) ← value (2 * ts.length + 1) ts
  let ts ← lineEnd ts
  return ((path, v), ts)

/-- Reads a header, its first bracket read. -/
def header (ts : List Token) : Option (Section × List Token) := do
  let (isArray, ts) := optional .leftBracket ts
  let (path, ts) ← path? (skipBlanks ts)
  let ts ← expect .rightBracket (skipBlanks ts)
  let ts ← if isArray then expect .rightBracket ts else some ts
  let ts ← lineEnd ts
  return (⟨path, isArray, []⟩, ts)

/-- A section that holds nothing and has no header is left out. -/
def keep (s : Section) : List Section :=
  if s.path.isEmpty && s.entries.isEmpty then [] else [s]

/-- Reads the rest of the sections, the one begun given, at most `fuel` lines. -/
def sectionsFrom : (fuel : Nat) → Section → List Token → Option (List Section)
  | 0, _, _ => none
  | fuel + 1, begun, ts =>
    match skipLines ts with
    | none => none
    | some [] => some (keep begun)
    | some (.leftBracket :: ts) =>
      match header ts with
      | none => none
      | some (next, ts) => (sectionsFrom fuel next ts).map (keep begun ++ ·)
    | some ts =>
      match entryLine ts with
      | none => none
      | some ((path, v), ts) =>
        match addEntry begun.entries v path with
        | none => none
        | some entries => sectionsFrom fuel { begun with entries } ts

/-- The sections of a TOML text. -/
def sections (text : String) : Option (List Section) :=
  match tokens text.toList with
  | none => none
  | some ts => sectionsFrom (ts.length + 1) ⟨[], false, []⟩ ts

end ZOrder.Toml
