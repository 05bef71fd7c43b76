import LightLink.Wire.Tag
import LightLink.Text.Hex

/-!
# What can be wrong with bytes

The causes for which bytes are refused by a decoder, or a value by an encoder, and the one place
where each cause gets its wording (`WireError.message`).
-/

namespace LightLink

/-- The first byte of every binary message. -/
def startCode : UInt8 := 0xFC

/-- The first byte of every configuration record. -/
def configStart : UInt8 := 0xFD

/-- Why bytes of the right size still do not say anything. -/
inductive Malformation where
  /-- An output command for a kind of output that takes none. -/
  | noOutputCommand (type : OutputType)
  /-- A poll body whose size is neither that of a request nor that of a reply. -/
  | pollBody (size : Nat)
  /-- A configuration record that does not begin with `configStart`. -/
  | recordStart (found : UInt8)
  /-- A configuration record whose tag and whose output header name different types. -/
  | recordType (declared : ConfigType) (carried : OutputType)
  /-- A list of records whose first one is not a header. -/
  | missingHeader
  /-- A record after the header that does not set up an output. -/
  | unexpectedRecord (type : ConfigType)
  /-- A header that declares another number of outputs than follow it. -/
  | outputCount (declared : UInt8) (found : Nat)
  /-- A line of text where a binary message was asked for. -/
  | textLine
  deriving DecidableEq, Repr

/-- The wording of a malformation. -/
def Malformation.message : Malformation → String
  | .noOutputCommand t => s!"output type {t.name} carries no output command"
  | .pollBody n => s!"poll body of {n} bytes is neither a request nor a response"
  | .recordStart b =>
    s!"config record starts with 0x{hexByteUpper b}, expected 0x{hexByteUpper configStart}"
  | .recordType t o => s!"config type {t.name} carries a {o.name} output record"
  | .missingHeader => "configuration does not start with a header record"
  | .unexpectedRecord t => s!"unexpected {t.name} record after configuration header"
  | .outputCount d n => s!"header declares {d.toNat} outputs but {n} output records follow"
  | .textLine => "text line is not a binary message"

/-- Why bytes could not be decoded, or a value not be encoded. -/
inductive WireError where
  /-- The bytes end before position `needed`. -/
  | insufficientData (needed available : Nat)
  | badStartCode (found : UInt8)
  | unknownMessageType (code : UInt8)
  | unknownOutputType (code : UInt8)
  | unknownConfigType (code : UInt8)
  | malformedPayload (cause : Malformation)
  /-- The header's length is not what the message takes up. -/
  | lengthMismatch (declared actual : Nat)
  /-- The value does not fit its field; only encoders say this, and a length prefix that is read. -/
  | oversizedPayload (size max : Nat)
  deriving DecidableEq, Repr

namespace WireError

/-- The wording of an error. -/
def message : WireError → String
  | insufficientData needed available =>
    s!"insufficient data: need at least {needed} bytes, got {available}"
  | badStartCode b => s!"bad start code: 0x{hexByteUpper b}"
  | unknownMessageType b => s!"unknown message type: 0x{hexByteUpper b}"
  | unknownOutputType b => s!"unknown output type: 0x{hexByteUpper b}"
  | unknownConfigType b => s!"unknown config type: 0x{hexByteUpper b}"
  | malformedPayload cause => s!"malformed payload: {cause.message}"
  | lengthMismatch declared actual =>
    s!"length mismatch: header declares {declared} bytes, body decodes to {actual}"
  | oversizedPayload size max =>
    s!"oversized payload: {size} bytes exceeds the maximum of {max}"

/-- Every error but an oversized payload blames the bytes that were read. -/
def isMalformed : WireError → Bool
  | oversizedPayload .. => false
  | _ => true

end WireError

end LightLink
