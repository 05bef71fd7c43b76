import LightLink.Bytes

/-!
# Hexadecimal text

A byte as two hexadecimal digits, in lower or upper case.
-/

namespace LightLink

/-- The lower-case digit of a number below 16. -/
def hexDigit (n : Nat) : Char := Nat.digitChar (n % 16)

/-- A byte as two lower-case digits. -/
def hexByte (b : UInt8) : String := String.ofList [hexDigit (b.toNat / 16), hexDigit b.toNat]

/-- A byte as two upper-case digits. -/
def hexByteUpper (b : UInt8) : String :=
  String.ofList [(hexDigit (b.toNat / 16)).toUpper, (hexDigit b.toNat).toUpper]

/-- The value of a hexadecimal digit. -/
def hexValue? (c : Char) : Option Nat :=
  if '0' ≤ c ∧ c ≤ '9' then some (c.toNat - '0'.toNat)
  else if 'a' ≤ c ∧ c ≤ 'f' then some (c.toNat - 'a'.toNat + 10)
  else if 'A' ≤ c ∧ c ≤ 'F' then some (c.toNat - 'A'.toNat + 10)
  else none

/-- Bytes as lower-case digits. -/
def hexText (bs : Bytes) : String := String.join (bs.map hexByte)

/-- The bytes that pairs of digits stand for, behind those already read. -/
def ofHexFrom (read : Array UInt8) : List Char → Option Bytes
  | [] => some read.toList
  | [_] => none
  | hi :: lo :: rest => do
    ofHexFrom (read.push (UInt8.ofNat ((← hexValue? hi) * 16 + (← hexValue? lo)))) rest

/-- The bytes that pairs of digits stand for. -/
def ofHex? (cs : List Char) : Option Bytes := ofHexFrom #[] cs

end LightLink
