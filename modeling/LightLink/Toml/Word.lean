import LightLink.Text.Decimal
import LightLink.Text.Double
import LightLink.Text.Hex

/-!
# TOML words

The values that are written without quotes or brackets: integers in four bases, numbers with a
fraction or an exponent, booleans, dates and times. Of the latter, and of numbers that are no
integers, it is only known that they are there.
-/

namespace LightLink.Toml

/-- A value that is written as a word. -/
inductive Word where
  | integer (value : Int)
  | float
  | boolean (value : Bool)
  | dateTime
  deriving DecidableEq, Repr

/-! ## Digits -/

/-- The values of digits between which single underscores may stand. -/
def digitValues? (value? : Char → Option Nat) : List Char → Option (List Nat)
  | [] => none
  | [c] => do some [← value? c]
  | c :: '_' :: rest => do some ((← value? c) :: (← digitValues? value? rest))
  | c :: rest => do some ((← value? c) :: (← digitValues? value? rest))

/-- The number that digits make in a base. -/
def ofDigits (base : Nat) (ds : List Nat) : Nat := ds.foldl (fun n d => n * base + d) 0

/-- The value of a digit in a base up to sixteen. -/
def digitIn? (base : Nat) (c : Char) : Option Nat := do
  let d ← hexValue? c
  if d < base then some d else none

/-- A number without a sign in a base. -/
def natural? (base : Nat) (cs : List Char) : Option Nat :=
  ofDigits base <$> digitValues? (digitIn? base) cs

/-- A decimal number without a sign that has no zero in front. -/
def decimal? : List Char → Option Nat
  | ['0'] => some 0
  | '0' :: _ => none
  | cs => natural? 10 cs

/-- The sign of a word, true for a minus, and what is behind it. -/
def splitSign : List Char → Bool × List Char
  | '-' :: cs => (true, cs)
  | '+' :: cs => (false, cs)
  | cs => (false, cs)

/-! ## Integers -/

/-- The integer of a word. -/
def unboundedInteger? : List Char → Option Int
  | '0' :: 'x' :: cs => Int.ofNat <$> natural? 16 cs
  | '0' :: 'o' :: cs => Int.ofNat <$> natural? 8 cs
  | '0' :: 'b' :: cs => Int.ofNat <$> natural? 2 cs
  | cs => do
    let (negative, cs) := splitSign cs
    let n ← decimal? cs
    some (if negative then -(n : Int) else n)

/-- The integer of a word, if it fits in 64 bits. -/
def integer? (cs : List Char) : Option Int := do
  let n ← unboundedInteger? cs
  if -9223372036854775808 ≤ n ∧ n ≤ 9223372036854775807 then some n else none

/-! ## Numbers that are no integers -/

/-- The exponent of a number; without a mark there is none, which comes to zero. -/
def exponent? : List Char → Option Int
  | [] => some 0
  | _ :: cs => do
    let (negative, cs) := splitSign cs
    let n ← natural? 10 cs
    some (if negative then -(n : Int) else n)

/-- The digits of a fraction; without a point there are none. -/
def fraction? : List Char → Option (List Nat)
  | [] => some []
  | _ :: cs => digitValues? Decimal.digit? cs

/-- The character begins an exponent. -/
def isExponentMark (c : Char) : Bool := c == 'e' || c == 'E'

/-- The word is a number with a fraction, an exponent or both, and not too large above zero. -/
def isNumber (cs : List Char) : Bool :=
  let (negative, cs) := splitSign cs
  let mantissa := cs.takeWhile (!isExponentMark ·)
  let whole := mantissa.takeWhile (· != '.')
  let fraction := fraction? (mantissa.drop whole.length)
  let exponent := exponent? (cs.drop mantissa.length)
  match decimal? whole, fraction, exponent with
  | some n, some ds, some e =>
    let digits := n * Nat.pow 10 ds.length + ofDigits 10 ds
    whole.length < cs.length && (negative || !exceedsDouble digits (e - ds.length))
  | _, _, _ => false

/-- The word is a number, infinite, or no number. -/
def isFloat (cs : List Char) : Bool :=
  let unsigned := (splitSign cs).2
  unsigned == ['i', 'n', 'f'] || unsigned == ['n', 'a', 'n'] || isNumber cs

/-! ## Dates and times -/

/-- The number of two digits. -/
def twoDigits? (a b : Char) : Option Nat := do
  some ((← Decimal.digit? a) * 10 + (← Decimal.digit? b))

/-- The year has a 29th of February. -/
def isLeapYear (year : Nat) : Bool := year % 4 == 0 && (year % 100 != 0 || year % 400 == 0)

/-- How many days a month has. -/
def daysInMonth (year month : Nat) : Nat :=
  if month = 2 then (if isLeapYear year then 29 else 28)
  else if month = 4 ∨ month = 6 ∨ month = 9 ∨ month = 11 then 30
  else 31

/-- What is behind a date. -/
def afterDate? : List Char → Option (List Char)
  | a :: b :: c :: d :: '-' :: e :: f :: '-' :: g :: h :: rest => do
    let year := (← twoDigits? a b) * 100 + (← twoDigits? c d)
    let month ← twoDigits? e f
    let day ← twoDigits? g h
    if 1 ≤ month ∧ month ≤ 12 ∧ 1 ≤ day ∧ day ≤ daysInMonth year month then some rest else none
  | _ => none

/-- What is behind a time. -/
def afterTime? : List Char → Option (List Char)
  | a :: b :: ':' :: c :: d :: ':' :: e :: f :: rest => do
    let hour ← twoDigits? a b
    let minute ← twoDigits? c d
    let second ← twoDigits? e f
    if hour ≤ 23 ∧ minute ≤ 59 ∧ second ≤ 60 then
      match rest with
      | '.' :: fraction =>
        let ds := fraction.takeWhile Char.isDigit
        if ds.isEmpty then none else some (fraction.drop ds.length)
      | _ => some rest
    else none
  | _ => none

/-- The distance to universal time, or nothing. -/
def isOffset : List Char → Bool
  | [] => true
  | ['Z'] => true
  | ['z'] => true
  | [sign, a, b, ':', c, d] =>
    (sign == '+' || sign == '-') &&
      (twoDigits? a b).any (· ≤ 23) && (twoDigits? c d).any (· ≤ 59)
  | _ => false

/-- A time of day with or without its distance to universal time. -/
def isOffsetTime (cs : List Char) : Bool := (afterTime? cs).any isOffset

/-- A date and nothing else. -/
def isDate (cs : List Char) : Bool := afterDate? cs == some []

/-- A date, a time of day, or both with a mark between them. -/
def isDateTime (cs : List Char) : Bool :=
  match afterDate? cs with
  | some [] => true
  | some (mark :: time) => (mark == 'T' || mark == 't') && isOffsetTime time
  | none => afterTime? cs == some []

/-! ## Words -/

/-- The value of a word. -/
def Word.ofText? (cs : List Char) : Option Word :=
  if cs == ['t', 'r', 'u', 'e'] then some (.boolean true)
  else if cs == ['f', 'a', 'l', 's', 'e'] then some (.boolean false)
  else if isDateTime cs then some .dateTime
  else if isFloat cs then some .float
  else integer <$> integer? cs

end LightLink.Toml
