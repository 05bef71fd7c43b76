/-!
# Spans of time

Times and spans of time are numbers of nanoseconds. A span is shown in the largest of seconds,
milliseconds, microseconds and nanoseconds of which it holds at least one, with as many decimal
places as it needs.
-/

namespace LightLink

/-- Nanoseconds of a microsecond. -/
def nanosPerMicro : Nat := 1000

/-- Nanoseconds of a millisecond. -/
def nanosPerMilli : Nat := 1000000

/-- Nanoseconds of a second. -/
def nanosPerSecond : Nat := 1000000000

/-- So many milliseconds. -/
def millis (n : Nat) : Nat := n * nanosPerMilli

/-- So many seconds. -/
def seconds (n : Nat) : Nat := n * nanosPerSecond

namespace Span

/-- The digits of a fraction of `places` places, without the zeros at its end. -/
def fractionDigits (places n : Nat) : List Char :=
  let ds := Nat.toDigits 10 n
  let padded := List.replicate (places - ds.length) '0' ++ ds
  (padded.reverse.dropWhile (· == '0')).reverse

/-- `n` in units of `10 ^ places`, with `symbol` behind. -/
def inUnit (places n : Nat) (symbol : String) : String :=
  let whole := toString (n / Nat.pow 10 places)
  let rest := n % Nat.pow 10 places
  if rest = 0 then whole ++ symbol
  else whole ++ "." ++ String.ofList (fractionDigits places rest) ++ symbol

/-- The text of a span. -/
def text (n : Nat) : String :=
  if n ≥ nanosPerSecond then inUnit 9 n "s"
  else if n ≥ nanosPerMilli then inUnit 6 n "ms"
  else if n ≥ nanosPerMicro then inUnit 3 n "µs"
  else inUnit 0 n "ns"

end Span

end LightLink
