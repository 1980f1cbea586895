/-
  ZOrder.Toml.Token

  The words and marks that a TOML text is made of, version 0.5 of the format. A mark
  at the start that says how the text is encoded is passed over, and a line may end
  in a carriage return and a line feed.

  Bare words are keys and numbers alike; what they mean is for the reader of the
  tokens to say.
-/

import ZOrder.Text.Digit

namespace ZOrder.Toml

/-- A word or mark of a TOML text. -/
inductive Token where
  /-- Spaces and tabs, as many as follow each other. -/
  | blanks (cs : List Char)
  | newline
  | comment
  | equals
  | period
  | comma
  | colon
  | plus
  | leftBrace
  | rightBrace
  | leftBracket
  | rightBracket
  /-- Letters, digits, dashes and underscores, as many as follow each other. -/
  | word (cs : List Char)
  /-- A text between quotes, its escapes replaced. -/
  | text (cs : List Char) (multiline : Bool)
  deriving DecidableEq, Repr

/-! ## Characters -/

/-- A space or a tab. -/
def isSpace (c : Char) : Bool := c = ' ' || c = '\t'

/-- A character of a bare word. -/
def isWordChar (c : Char) : Bool := c.isAlphanum || c = '-' || c = '_'

/-- A character of a comment: no control but the tab. -/
def isCommentChar (c : Char) : Bool := c = '\t' || 0x20 ≤ c.toNat

/-- A character that may stand in a text as it is: no control but the tab. -/
def isTextChar (c : Char) : Bool := isCommentChar c && c.toNat ≠ 0x7F

/-- The character that a letter after a backslash stands for. -/
def escaped? : Char → Option Char
  | '"' => some '"'
  | '\\' => some '\\'
  | 'b' => some '\x08'
  | 'f' => some '\x0c'
  | 'n' => some '\n'
  | 'r' => some '\r'
  | 't' => some '\t'
  | _ => none

/-- The character whose code point some hexadecimal digits give. -/
def codePoint? (digits : List Char) : Option Char :=
  (Text.digitsValue? 16 digits).bind Text.charOfCode?

/-! ## Texts

Each of these reads up to the closing quotes; `seen` holds the characters of the text so
far, last one first. -/

/-- A text on one line between double quotes. -/
def basicText (seen : List Char) : List Char → Option (Token × List Char)
  | '"' :: rest => some (.text seen.reverse false, rest)
  | '\\' :: 'u' :: a :: b :: c :: d :: rest =>
    match codePoint? [a, b, c, d] with
    | some x => basicText (x :: seen) rest
    | none => none
  | '\\' :: 'U' :: a :: b :: c :: d :: e :: f :: g :: h :: rest =>
    match codePoint? [a, b, c, d, e, f, g, h] with
    | some x => basicText (x :: seen) rest
    | none => none
  | '\\' :: c :: rest =>
    match escaped? c with
    | some x => basicText (x :: seen) rest
    | none => none
  | c :: rest => if isTextChar c then basicText (c :: seen) rest else none
  | [] => none

/-- A text on one line between single quotes. -/
def literalText (seen : List Char) : List Char → Option (Token × List Char)
  | '\'' :: rest => some (.text seen.reverse false, rest)
  | c :: rest => if isTextChar c then literalText (c :: seen) rest else none
  | [] => none

/-- What a backslash at the end of a line still has to pass over. -/
inductive Skip where
  /-- Nothing. -/
  | nothing
  /-- Blanks up to the end of the line. -/
  | toLineEnd
  /-- Blanks and line ends. -/
  | toText
  deriving DecidableEq, Repr

/-- A text on several lines between triple double quotes. Up to two quotes directly before
the closing ones belong to the text. -/
def basicLines (skip : Skip) (seen : List Char) : List Char → Option (Token × List Char)
  | [] => none
  | c :: rest =>
    if skip = .toLineEnd then
      if isSpace c then basicLines .toLineEnd seen rest
      else if c = '\n' then basicLines .toText seen rest
      else none
    else if skip = .toText ∧ (isSpace c ∨ c = '\n') then basicLines .toText seen rest
    else
      match c, rest with
      | '"', '"' :: '"' :: '"' :: '"' :: rest =>
        some (.text ('"' :: '"' :: seen).reverse true, rest)
      | '"', '"' :: '"' :: '"' :: rest => some (.text ('"' :: seen).reverse true, rest)
      | '"', '"' :: '"' :: rest => some (.text seen.reverse true, rest)
      | '\\', 'u' :: a :: b :: c :: d :: rest =>
        match codePoint? [a, b, c, d] with
        | some x => basicLines .nothing (x :: seen) rest
        | none => none
      | '\\', 'U' :: a :: b :: c :: d :: e :: f :: g :: h :: rest =>
        match codePoint? [a, b, c, d, e, f, g, h] with
        | some x => basicLines .nothing (x :: seen) rest
        | none => none
      | '\\', c :: rest =>
        if isSpace c then basicLines .toLineEnd seen rest
        else if c = '\n' then basicLines .toText seen rest
        else
          match escaped? c with
          | some x => basicLines .nothing (x :: seen) rest
          | none => none
      | c, rest =>
        if c ≠ '\\' ∧ (isTextChar c ∨ c = '\n') then basicLines .nothing (c :: seen) rest
        else none

/-- A text on several lines between triple single quotes. Up to two quotes directly before
the closing ones belong to the text. -/
def literalLines (seen : List Char) : List Char → Option (Token × List Char)
  | '\'' :: '\'' :: '\'' :: '\'' :: '\'' :: rest =>
    some (.text ('\'' :: '\'' :: seen).reverse true, rest)
  | '\'' :: '\'' :: '\'' :: '\'' :: rest => some (.text ('\'' :: seen).reverse true, rest)
  | '\'' :: '\'' :: '\'' :: rest => some (.text seen.reverse true, rest)
  | c :: rest =>
    if isTextChar c ∨ c = '\n' then literalLines (c :: seen) rest else none
  | [] => none

/-- A text on several lines starts on the next line if nothing else follows the quotes. -/
def dropFirstNewline : List Char → List Char
  | '\n' :: rest => rest
  | cs => cs

/-! ## Tokens -/

/-- The token that starts with a character, and what follows it. -/
def scan (c : Char) (rest : List Char) : Option (Token × List Char) :=
  match c with
  | '\n' => some (.newline, rest)
  | '#' => some (.comment, rest.dropWhile isCommentChar)
  | '=' => some (.equals, rest)
  | '.' => some (.period, rest)
  | ',' => some (.comma, rest)
  | ':' => some (.colon, rest)
  | '+' => some (.plus, rest)
  | '\x7b' => some (.leftBrace, rest)
  | '\x7d' => some (.rightBrace, rest)
  | '[' => some (.leftBracket, rest)
  | ']' => some (.rightBracket, rest)
  | '"' =>
    match rest with
    | '"' :: '"' :: rest => basicLines .nothing [] (dropFirstNewline rest)
    | rest => basicText [] rest
  | '\'' =>
    match rest with
    | '\'' :: '\'' :: rest => literalLines [] (dropFirstNewline rest)
    | rest => literalText [] rest
  | c =>
    if isSpace c then some (.blanks (c :: rest.takeWhile isSpace), rest.dropWhile isSpace)
    else if isWordChar c then
      some (.word (c :: rest.takeWhile isWordChar), rest.dropWhile isWordChar)
    else none

/-- The tokens of a text, at most `fuel` of them. -/
def tokensFrom : (fuel : Nat) → List Char → Option (List Token)
  | _, [] => some []
  | 0, _ :: _ => none
  | fuel + 1, c :: cs =>
    match scan c cs with
    | none => none
    | some (t, rest) => (tokensFrom fuel rest).map (t :: ·)

/-- A text without the mark at its start. -/
def dropMark : List Char → List Char
  | '\ufeff' :: rest => rest
  | cs => cs

/-- A text with plain line ends. -/
def plainLineEnds : List Char → List Char
  | '\r' :: '\n' :: rest => '\n' :: plainLineEnds rest
  | c :: rest => c :: plainLineEnds rest
  | [] => []

/-- The tokens of a whole text. -/
def tokens (cs : List Char) : Option (List Token) :=
  let cs := plainLineEnds (dropMark cs)
  tokensFrom cs.length cs

end ZOrder.Toml
