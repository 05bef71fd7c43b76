import LightLink.Message.Output
import LightLink.Text.Blank
import LightLink.Text.Decimal

/-!
# Colours as text

A colour is written as its three levels with commas between them. Blanks around a level do not
count. A level that is no number from 0 to 255 is reported before a wrong number of levels.
-/

namespace LightLink

/-- Why a text is no colour. -/
inductive ColourError where
  /-- A level, as it was written, is no number from 0 to 255. -/
  | badLevel (written : List Char) (cause : Decimal.NumberError)
  /-- There are more or fewer than three levels. -/
  | wrongCount (written : List Char)
  deriving DecidableEq, Repr

/-- The wording of an error. -/
def ColourError.message : ColourError → String
  | badLevel written cause =>
    "bad colour component '" ++ String.ofList written ++ "': " ++ cause.message
  | wrongCount written => "expected r,g,b but got '" ++ String.ofList written ++ "'"

namespace Colour

/-- The parts of a text between its commas. -/
def splitCommas (cs : List Char) : List (List Char) := cs.splitOn ','

/-- The level that one part gives. -/
def level (part : List Char) : Except ColourError UInt8 :=
  match Decimal.natUpTo 255 (trim part) with
  | .ok n => .ok (UInt8.ofNat n)
  | .error cause => .error (.badLevel part cause)

/-- The colour that a text gives. -/
def parse (cs : List Char) : Except ColourError Colour := do
  match ← (splitCommas cs).mapM level with
  | [r, g, b] => pure ⟨r, g, b⟩
  | _ => .error (.wrongCount cs)

end Colour

end LightLink
