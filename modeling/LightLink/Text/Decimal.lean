/-!
# Decimal numbers in a range

A number as people write it: a sign, which may be left out, and digits; leading zeros are allowed.
The digits are read from left to right, and the first of them that is none, or that takes the number
out of its range, decides the error (`NumberError`).
-/

namespace LightLink.Decimal

/-- Why a text is not a number in the range asked for. -/
inductive NumberError where
  | empty
  | invalidDigit
  | tooLarge
  | tooSmall
  deriving DecidableEq, Repr

/-- The wording of an error. -/
def NumberError.message : NumberError → String
  | .empty => "cannot parse integer from empty string"
  | .invalidDigit => "invalid digit found in string"
  | .tooLarge => "number too large to fit in target type"
  | .tooSmall => "number too small to fit in target type"

/-- The value of a decimal digit. -/
def digit? (c : Char) : Option Nat :=
  if '0' ≤ c ∧ c ≤ '9' then some (c.toNat - '0'.toNat) else none

/-- Reads digits after a number `n` of which the digits so far are the ones before them; it may not
exceed `max`. -/
def digitsFrom (max : Nat) (excess : NumberError) (n : Nat) : List Char → Except NumberError Nat
  | [] => .ok n
  | c :: cs =>
    match digit? c with
    | none => .error .invalidDigit
    | some d => if n * 10 + d ≤ max then digitsFrom max excess (n * 10 + d) cs else .error excess

/-- At least one digit. -/
def digits (max : Nat) (excess : NumberError) : List Char → Except NumberError Nat
  | [] => .error .invalidDigit
  | cs => digitsFrom max excess 0 cs

/-- A number from 0 to `max`, with or without a plus sign. -/
def natUpTo (max : Nat) : List Char → Except NumberError Nat
  | [] => .error .empty
  | '+' :: cs => digits max .tooLarge cs
  | cs => digits max .tooLarge cs

/-- A number from `-low` to `max`, with or without a sign. -/
def intBetween (low max : Nat) : List Char → Except NumberError Int
  | [] => .error .empty
  | '-' :: cs => (fun n : Nat => -(n : Int)) <$> digits low .tooSmall cs
  | '+' :: cs => Int.ofNat <$> digits max .tooLarge cs
  | cs => Int.ofNat <$> digits max .tooLarge cs

end LightLink.Decimal
