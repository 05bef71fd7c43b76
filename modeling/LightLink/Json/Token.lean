import LightLink.Text.Decimal
import LightLink.Text.Double
import LightLink.Text.Hex

/-!
# JSON tokens

A JSON text is taken apart one character at a time. Between two characters the reading stands
between tokens or within one (`State`); a number is over when a character comes that cannot be part
of it.

* `Token.scan?`: the tokens of a text, if it has nothing else in it;
* `Number.int?`: the value of a number that is written without a fraction or an exponent;
* `Json.text?`: the text of a string, in which surrogates have to come in pairs.
-/

namespace LightLink.Json

/-! ## Strings -/

/-- What a string is made of: characters, and the halves of surrogate pairs that were written as
escapes. -/
inductive Piece where
  | char (c : Char)
  | surrogate (code : Nat)
  deriving DecidableEq, Repr

/-- The piece that an escape with a code below 65536 stands for. -/
def Piece.ofCode (code : Nat) : Piece :=
  if 0xD800 ≤ code ∧ code ≤ 0xDFFF then surrogate code else char (Char.ofNat code)

/-- The character that two halves make, if the first is a leading and the second a trailing one. -/
def joinHalves (lead trail : Nat) : Option Char :=
  if lead < 0xDC00 ∧ 0xDC00 ≤ trail then
    some (Char.ofNat (0x10000 + (lead - 0xD800) * 0x400 + (trail - 0xDC00)))
  else none

/-- The text that pieces make, with every half of a pair beside its other half. -/
def text? : List Piece → Option (List Char)
  | [] => some []
  | .char c :: rest => (c :: ·) <$> text? rest
  | .surrogate lead :: .surrogate trail :: rest => do
    let c ← joinHalves lead trail
    (c :: ·) <$> text? rest
  | .surrogate _ :: _ => none

/-- The string is this text. -/
def isText (pieces : List Piece) (s : String) : Bool := text? pieces == some s.toList

/-! ## Numbers -/

/-- A number as it was written: all its digits as one number, how many of them stand behind the
point, and its exponent. -/
structure Number where
  negative : Bool
  digits : Nat
  places : Nat
  exponent : Int
  /-- Written without a point and without an exponent. -/
  plain : Bool
  deriving DecidableEq, Repr

namespace Number

/-- The integer that a plain number is. A zero with a minus sign counts as a fraction. -/
def int? (n : Number) : Option Int :=
  if !n.plain then none
  else if !n.negative then some n.digits
  else if n.digits = 0 then none
  else some (-(n.digits : Int))

/-- The magnitude is below what double precision rounds to infinity. -/
def isFinite (n : Number) : Bool := !exceedsDouble n.digits (n.exponent - n.places)

end Number

/-! ## Tokens -/

/-- The smallest parts of a JSON text. -/
inductive Token where
  | openObject
  | closeObject
  | openArray
  | closeArray
  | comma
  | colon
  | null
  | bool (value : Bool)
  | number (number : Number)
  | string (pieces : List Piece)
  deriving DecidableEq, Repr

/-- Where the reading of a number stands: what the last character of it was. -/
inductive NumberPlace where
  | sign
  /-- A zero in front, after which no other digit of the whole part comes. -/
  | zero
  | whole
  | point
  | fraction
  | mark
  | exponentSign
  | exponent
  deriving DecidableEq, Repr

/-- A number of which some characters have been read. -/
structure OpenNumber where
  place : NumberPlace
  negative : Bool
  digits : Nat := 0
  places : Nat := 0
  exponent : Nat := 0
  exponentNegative : Bool := false
  deriving DecidableEq, Repr

namespace OpenNumber

/-- The number may end here. -/
def isComplete (n : OpenNumber) : Bool :=
  match n.place with
  | .zero | .whole | .fraction | .exponent => true
  | _ => false

/-- The number that has been read. -/
def toNumber (n : OpenNumber) : Number where
  negative := n.negative
  digits := n.digits
  places := n.places
  exponent := if n.exponentNegative then -(n.exponent : Int) else n.exponent
  plain := n.place == .zero || n.place == .whole

/-- One more digit of the whole part or of the fraction. -/
def digit (n : OpenNumber) (place : NumberPlace) (d places : Nat) : OpenNumber :=
  { n with place, digits := n.digits * 10 + d, places := n.places + places }

/-- One more digit of the exponent. -/
def exponentDigit (n : OpenNumber) (d : Nat) : OpenNumber :=
  { n with place := .exponent, exponent := n.exponent * 10 + d }

/-- A digit where there may be one. -/
def onDigit (n : OpenNumber) (d : Nat) : Option OpenNumber :=
  match n.place with
  | .sign => some (n.digit (if d = 0 then .zero else .whole) d 0)
  | .zero => none
  | .whole => some (n.digit .whole d 0)
  | .point | .fraction => some (n.digit .fraction d 1)
  | .mark | .exponentSign | .exponent => some (n.exponentDigit d)

/-- Any other character that can be part of a number. -/
def onMark (n : OpenNumber) (c : Char) : Option OpenNumber :=
  match c, n.place with
  | '.', .zero | '.', .whole => some { n with place := .point }
  | 'e', .zero | 'e', .whole | 'e', .fraction | 'E', .zero | 'E', .whole | 'E', .fraction =>
    some { n with place := .mark }
  | '+', .mark => some { n with place := .exponentSign }
  | '-', .mark => some { n with place := .exponentSign, exponentNegative := true }
  | _, _ => none

/-- The number with one more character, if it can be part of it. -/
def push (n : OpenNumber) (c : Char) : Option OpenNumber :=
  match Decimal.digit? c with
  | some d => n.onDigit d
  | none => n.onMark c

end OpenNumber

/-- Where the reading stands between two characters. -/
inductive State where
  | between
  /-- Within a word: the characters of it that are still to come, and what it means. -/
  | word (rest : List Char) (meaning : Token)
  | number (number : OpenNumber)
  | string (read : Array Piece)
  | escape (read : Array Piece)
  /-- Within the four digits of an escape. -/
  | code (read : Array Piece) (left value : Nat)

/-- The characters that may stand between tokens. -/
def isSpace (c : Char) : Bool := c == ' ' || c == '\t' || c == '\n' || c == '\r'

/-- The first character of a token, or a space. -/
def begin? (c : Char) : Option (List Token × State) :=
  match c with
  | '\x7b' => some ([.openObject], .between)
  | '\x7d' => some ([.closeObject], .between)
  | '[' => some ([.openArray], .between)
  | ']' => some ([.closeArray], .between)
  | ',' => some ([.comma], .between)
  | ':' => some ([.colon], .between)
  | '"' => some ([], .string #[])
  | 'n' => some ([], .word ['u', 'l', 'l'] .null)
  | 't' => some ([], .word ['r', 'u', 'e'] (.bool true))
  | 'f' => some ([], .word ['a', 'l', 's', 'e'] (.bool false))
  | '-' => some ([], .number { place := .sign, negative := true })
  | _ =>
    if isSpace c then some ([], .between)
    else do
      let d ← Decimal.digit? c
      let n ← OpenNumber.onDigit { place := .sign, negative := false } d
      some ([], .number n)

/-- The character that stands for another one behind a backslash. -/
def escaped? : Char → Option Char
  | '"' => some '"'
  | '\\' => some '\\'
  | '/' => some '/'
  | 'b' => some '\x08'
  | 'f' => some '\x0c'
  | 'n' => some '\n'
  | 'r' => some '\r'
  | 't' => some '\t'
  | _ => none

/-- The next character of a string. -/
def inString (read : Array Piece) (c : Char) : Option (List Token × State) :=
  if c == '"' then some ([.string read.toList], .between)
  else if c == '\\' then some ([], .escape read)
  else if c < ' ' then none
  else some ([], .string (read.push (.char c)))

/-- The next character: the tokens it completes and where it leaves the reading. -/
def step : State → Char → Option (List Token × State)
  | .between, c => begin? c
  | .word [] meaning, c => do
    let (ts, s) ← begin? c
    some (meaning :: ts, s)
  | .word (expected :: rest) meaning, c =>
    if c = expected then some ([], .word rest meaning) else none
  | .number n, c =>
    match n.push c with
    | some n' => some ([], .number n')
    | none =>
      if n.isComplete then do
        let (ts, s) ← begin? c
        some (.number n.toNumber :: ts, s)
      else none
  | .string read, c => inString read c
  | .escape read, c =>
    if c == 'u' then some ([], .code read 4 0)
    else do
      let e ← escaped? c
      some ([], .string (read.push (.char e)))
  | .code read left value, c => do
    let d ← hexValue? c
    let value := value * 16 + d
    if left = 1 then some ([], .string (read.push (.ofCode value)))
    else some ([], .code read (left - 1) value)

/-- The token that the end of the text completes. -/
def finish? : State → Option (List Token)
  | .between => some []
  | .word [] meaning => some [meaning]
  | .number n => if n.isComplete then some [.number n.toNumber] else none
  | _ => none

/-- The tokens of the rest of a text, after those already found. -/
def scanFrom (s : State) (found : Array Token) : List Char → Option (Array Token)
  | [] => (fun ts => found ++ ts.toArray) <$> finish? s
  | c :: cs =>
    match step s c with
    | some (ts, s') => scanFrom s' (found ++ ts) cs
    | none => none

/-- The tokens of a text. -/
def Token.scan? (cs : List Char) : Option (List Token) := Array.toList <$> scanFrom .between #[] cs

end LightLink.Json
