/-
  ZOrder.Toml.Number

  Numbers in bare words. Digits may be grouped by single underscores; a decimal
  integer has no needless zeros in front and may have a minus sign. A fraction must
  lie in the range of 64-bit floating point numbers.
-/

import ZOrder.Text.Digit

namespace ZOrder.Toml

/-! ## Digits -/

/-- What has been read of a group of digits. -/
structure DigitState where
  /-- No digit has been read. -/
  atStart : Bool := true
  /-- The first digit is a zero. -/
  zeroFirst : Bool := false
  /-- An underscore has been read last. -/
  afterUnderscore : Bool := false
  deriving DecidableEq, Repr

/-- Splits off the digits at the front, underscores between them left out. None when there
are no digits, when an underscore is not between two digits, or when a zero comes first
without being allowed to. -/
def digitsFrom (base : Nat) (zerosAllowed : Bool) (state : DigitState) :
    List Char → Option (List Char × List Char)
  | [] => if state.atStart || state.afterUnderscore then none else some ([], [])
  | c :: rest =>
    if c = '0' ∧ state.atStart then
      (digitsFrom base zerosAllowed ⟨false, true, false⟩ rest).map fun r => (c :: r.1, r.2)
    else if (Text.digit? base c).isSome then
      if !state.atStart && state.zeroFirst && !zerosAllowed then none
      else
        (digitsFrom base zerosAllowed ⟨false, state.zeroFirst, false⟩ rest).map
          fun r => (c :: r.1, r.2)
    else if c = '_' ∧ state.atStart then none
    else if c = '_' ∧ !state.afterUnderscore then
      digitsFrom base zerosAllowed ⟨false, state.zeroFirst, true⟩ rest
    else if state.atStart || state.afterUnderscore then none
    else some ([], c :: rest)

/-- Splits off a sign and the digits at the front. -/
def signedDigits (zerosAllowed : Bool) (cs : List Char) :
    Option (Bool × List Char × List Char) :=
  match cs with
  | '-' :: rest => (digitsFrom 10 zerosAllowed {} rest).map fun r => (true, r)
  | cs => (digitsFrom 10 zerosAllowed {} cs).map fun r => (false, r)

/-! ## Integers -/

/-- The integer that a word stands for, if it is a 64-bit signed number. -/
def inRange? (n : Int) : Option Int :=
  if -0x8000000000000000 ≤ n ∧ n < 0x8000000000000000 then some n else none

/-- The integer that the digits of a base stand for. -/
def unsigned? (base : Nat) (cs : List Char) : Option Int :=
  match digitsFrom base true {} cs with
  | some (digits, []) => (Text.digitsValue? base digits).bind fun n => inRange? n
  | _ => none

/-- The integer that a sign and decimal digits stand for. -/
def decimal? (cs : List Char) : Option Int :=
  match signedDigits false cs with
  | some (negative, digits, []) =>
    (Text.digitsValue? 10 digits).bind fun n => inRange? (if negative then -n else n)
  | _ => none

/-! ## Fractions -/

/-- Half a step above the largest floating point number. From here on numbers are rounded
to infinity. -/
def floatBound : Nat := 1 <<< 1024 - 1 <<< 970

/-- Whether `digits * 10 ^ exponent` is rounded to a finite floating point number. -/
def isFinite (digits : List Char) (exponent : Int) : Bool :=
  let m := (Text.digitsValue? 10 digits).getD 0
  if m = 0 then true
  else if exponent + digits.length ≤ 308 then true
  else if 310 ≤ exponent then false
  else if 0 ≤ exponent then m * Nat.pow 10 exponent.toNat < floatBound
  else m < floatBound * Nat.pow 10 (-exponent).toNat

/-- The exponent that a sign and digits stand for. -/
def exponentValue (negative : Bool) (digits : List Char) : Int :=
  let n : Int := ((Text.digitsValue? 10 digits).getD 0 : Nat)
  if negative then -n else n

end ZOrder.Toml
