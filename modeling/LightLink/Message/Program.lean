import LightLink.Message.Output

/-!
# Light programs

A program runs on an output by itself. It is a code and a block of 32 bytes of parameters; the
parameters of the known programs stand at the front of the block, words least significant byte
first, and zeros fill the rest. `Program.ofParams` carries the proof that the parameters fit, so no
builder can write past the block.
-/

namespace LightLink

/-- A program code with its block of parameters. -/
structure Program where
  code : UInt8
  params : Row UInt8 32
  deriving DecidableEq, Repr

namespace Program

/-- The size of the parameter block. -/
def paramsSize : Nat := 32

/-- The size of a program: its code and its parameters. -/
def wireSize : Nat := 1 + paramsSize

/-- The program with `params` at the front of its block. -/
def ofParams (code : UInt8) (params : Bytes) (h : params.length ≤ paramsSize := by decide) :
    Program :=
  ⟨code, Row.padded paramsSize params 0 h⟩

/-- The program with `params` at the front of its block, if they fit into it. -/
def ofParams? (code : UInt8) (params : Bytes) : Except WireError Program :=
  if h : params.length ≤ paramsSize then .ok (ofParams code params h)
  else .error (.oversizedPayload params.length paramsSize)

/-- Stops whatever runs on the output. -/
def stop : Program := ofParams 0x00 []

/-- The output follows the module's level input. -/
def followLevel : Program := ofParams 0x03 []

/-- The output follows the module's sound input. -/
def followSound : Program := ofParams 0x04 []

/-- Shows `on` and `off` in turn, each for its own number of milliseconds. -/
def blink (onPeriod : UInt16) (on : Colour) (offPeriod : UInt16) (off : Colour) : Program :=
  ofParams 0x01 (little16 onPeriod ++ on.bytes ++ little16 offPeriod ++ off.bytes)
    (by simp [Colour.bytes, paramsSize])

/-- Shows `start` for `period` milliseconds and `stop` from then on. -/
def timedChange (period : UInt32) (start stop : Colour) : Program :=
  ofParams 0x02 (little32 period ++ start.bytes ++ stop.bytes) (by simp [Colour.bytes, paramsSize])

/-- Goes over from `start` to `stop` in `period` milliseconds. -/
def fade (period : UInt32) (start stop : Colour) (flags : UInt8) : Program :=
  ofParams 0x05 (little32 period ++ start.bytes ++ stop.bytes ++ [flags])
    (by simp [Colour.bytes, paramsSize])

end Program

instance : Wire Program where
  size _ := Program.wireSize
  encode p := p.code :: p.params.toList
  decoder := do
    let code ← Decoder.byte
    let params ← Decoder.row 32
    pure ⟨code, params⟩

end LightLink
