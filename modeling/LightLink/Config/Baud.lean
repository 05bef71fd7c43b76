import LightLink.Bytes

/-!
# Baud rates

A module keeps its baud rate in one byte, in units of 1200 bits per second.
-/

namespace LightLink

/-- A baud rate, in units of 1200 bits per second. -/
structure Baud where
  raw : UInt8
  deriving DecidableEq, Repr

namespace Baud

/-- Bits per second of one unit. -/
def unit : Nat := 1200

/-- The rate in bits per second. -/
def bps (b : Baud) : Nat := b.raw.toNat * unit

/-- The rate of `bps` bits per second, which has to be a positive number of units and fit a byte. -/
def ofBps? (bps : UInt32) : Option Baud :=
  let n := bps.toNat
  if n ≠ 0 ∧ n % unit = 0 ∧ n / unit < 256 then some ⟨UInt8.ofNat (n / unit)⟩ else none

end Baud

end LightLink
