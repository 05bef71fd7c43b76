import LightLink.Wire.Format

/-!
# Outputs and colours

An output is a lamp, a strip, a sensor or a radio of a module. On the wire it is named by its type
and its position, in the two bytes of an `OutputHeader`.
-/

namespace LightLink

/-- The output index that means every output of the addressed module. -/
def allOutputs : UInt8 := 254

/-- A colour, as the brightness of its three lamps. -/
structure Colour where
  red : UInt8
  green : UInt8
  blue : UInt8
  deriving DecidableEq, Repr

/-- The bytes of a colour. -/
def Colour.bytes (c : Colour) : Bytes := [c.red, c.green, c.blue]

/-- The next three bytes as a colour, all of them or none. -/
def Decoder.colour : Decoder Colour := fun c =>
  match c.rest with
  | r :: g :: b :: _ => .ok (⟨r, g, b⟩, c.advance 3)
  | _ => .error (.insufficientData (c.pos + 3) c.size)

/-- Which output of a module is meant, and of what type it is. -/
structure OutputHeader where
  type : OutputType
  index : UInt8
  deriving DecidableEq, Repr

/-- The size of an output header. -/
def OutputHeader.wireSize : Nat := 2

instance : Wire OutputHeader where
  size _ := OutputHeader.wireSize
  encode h := [h.type.code, h.index]
  decoder := do
    let code ← Decoder.byte
    let index ← Decoder.byte
    let type ← Decoder.ofOption (.unknownOutputType code) (OutputType.ofCode? code)
    pure ⟨type, index⟩

end LightLink
