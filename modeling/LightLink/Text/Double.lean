/-!
# The range of double precision

Which decimal numbers are too large for double precision.
-/

namespace LightLink

/-- The least magnitude that double precision rounds to infinity. -/
def overflowBound : Nat := Nat.pow 2 1024 - Nat.pow 2 970

/-- `d · 10 ^ e` is `overflowBound` or more. An exponent that alone decides is not raised to its
power. -/
def exceedsDouble (d : Nat) : (e : Int) → Bool
  | .ofNat e => d ≠ 0 ∧ (e > 309 ∨ overflowBound ≤ d * Nat.pow 10 e)
  | .negSucc e => 3 * e ≤ Nat.log2 d ∧ overflowBound * Nat.pow 10 (e + 1) ≤ d

end LightLink
