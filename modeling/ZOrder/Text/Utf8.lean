/-
  ZOrder.Text.Utf8

  Strict UTF-8. A sequence of bytes is read character by character; surrogates,
  overlong forms and numbers above U+10FFFF are refused. A refusal says where the
  offending character starts and how many bytes of it could have started a
  character; at the end of the input, where more bytes might still complete the
  character, there is no such number.
-/

namespace ZOrder.Text

/-- The bytes are not UTF-8 from index `start` on. -/
structure Utf8Error where
  /-- How many bytes before the first bad character are good. -/
  start : Nat
  /-- How many bytes are bad for certain; none when the input ends inside a character. -/
  badLength : Option Nat
  deriving Repr, DecidableEq

/-- The text of the error. -/
def Utf8Error.message (e : Utf8Error) : String :=
  match e.badLength with
  | some n => s!"invalid utf-8 sequence of {n} bytes from index {e.start}"
  | none => s!"incomplete utf-8 byte sequence from index {e.start}"

/-- Bytes 80 to BF continue a character. -/
def isContinuation (b : Nat) : Bool := 0x80 ≤ b && b ≤ 0xBF

/-- Which second bytes may follow the first byte of a three-byte character. -/
def isSecondOfThree (a b : Nat) : Bool :=
  if a = 0xE0 then 0xA0 ≤ b && b ≤ 0xBF
  else if a = 0xED then 0x80 ≤ b && b ≤ 0x9F
  else isContinuation b

/-- Which second bytes may follow the first byte of a four-byte character. -/
def isSecondOfFour (a b : Nat) : Bool :=
  if a = 0xF0 then 0x90 ≤ b && b ≤ 0xBF
  else if a = 0xF4 then 0x80 ≤ b && b ≤ 0x8F
  else isContinuation b

/-- Puts a character in front of what was read after it. -/
def consChar (n : Nat) (read : Except Utf8Error (List Char)) : Except Utf8Error (List Char) :=
  read.map (Char.ofNat n :: ·)

/-- Reads characters until the bytes end, the first byte being number `start`. -/
def utf8From (start : Nat) : List Nat → Except Utf8Error (List Char)
  | [] => .ok []
  | a :: rest =>
    if a < 0x80 then consChar a (utf8From (start + 1) rest)
    else if 0xC2 ≤ a && a ≤ 0xDF then
      match rest with
      | [] => .error ⟨start, none⟩
      | b :: rest =>
        if !isContinuation b then .error ⟨start, some 1⟩
        else consChar ((a - 0xC0) * 0x40 + (b - 0x80)) (utf8From (start + 2) rest)
    else if 0xE0 ≤ a && a ≤ 0xEF then
      match rest with
      | [] => .error ⟨start, none⟩
      | b :: rest =>
        if !isSecondOfThree a b then .error ⟨start, some 1⟩
        else match rest with
          | [] => .error ⟨start, none⟩
          | c :: rest =>
            if !isContinuation c then .error ⟨start, some 2⟩
            else consChar ((a - 0xE0) * 0x1000 + (b - 0x80) * 0x40 + (c - 0x80))
              (utf8From (start + 3) rest)
    else if 0xF0 ≤ a && a ≤ 0xF4 then
      match rest with
      | [] => .error ⟨start, none⟩
      | b :: rest =>
        if !isSecondOfFour a b then .error ⟨start, some 1⟩
        else match rest with
          | [] => .error ⟨start, none⟩
          | c :: rest =>
            if !isContinuation c then .error ⟨start, some 2⟩
            else match rest with
              | [] => .error ⟨start, none⟩
              | d :: rest =>
                if !isContinuation d then .error ⟨start, some 3⟩
                else consChar
                  ((a - 0xF0) * 0x40000 + (b - 0x80) * 0x1000 + (c - 0x80) * 0x40 + (d - 0x80))
                  (utf8From (start + 4) rest)
    else .error ⟨start, some 1⟩

/-- The text that some bytes stand for. -/
def utf8 (bytes : List UInt8) : Except Utf8Error String :=
  (utf8From 0 (bytes.map UInt8.toNat)).map String.ofList

end ZOrder.Text
