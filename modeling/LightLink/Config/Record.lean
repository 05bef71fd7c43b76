import LightLink.Config.Baud
import LightLink.Message.Output

/-!
# Configuration records

What a module keeps of its set-up, record by record. Each record starts with `configStart` and the
code of its config type:

    header     FD 00 magic protocol hardware baud outputs flags device:2 address:2
    output     FD tt tt index <what an output of this type needs>
    address    FD E0 address:2
    device id  FD E1 device:2
    baud       FD E2 baud

An output's record names its type twice, in the tag and in the output header that follows, and the
two have to agree.
-/

namespace LightLink

/-- The first byte of a configuration header. -/
def configMagic : UInt8 := 0x5C

/-! ## The header -/

/-- A module's identity and settings. -/
structure ConfigHeader where
  magic : UInt8
  protocolVersion : UInt8
  hardwareVersion : UInt8
  baud : Baud
  numOutputs : UInt8
  flags : UInt8
  deviceId : UInt16
  address : UInt16
  deriving DecidableEq, Repr

/-- The size of a configuration header. -/
def ConfigHeader.wireSize : Nat := 10

instance : Wire ConfigHeader where
  size _ := ConfigHeader.wireSize
  encode h :=
    [h.magic, h.protocolVersion, h.hardwareVersion, h.baud.raw, h.numOutputs, h.flags] ++
      little16 h.deviceId ++ little16 h.address
  decoder := do
    let magic ← Decoder.byte
    let protocolVersion ← Decoder.byte
    let hardwareVersion ← Decoder.byte
    let baud ← Decoder.byte
    let numOutputs ← Decoder.byte
    let flags ← Decoder.byte
    let deviceId ← Decoder.word
    let address ← Decoder.word
    pure ⟨magic, protocolVersion, hardwareVersion, ⟨baud⟩, numOutputs, flags, deviceId, address⟩

/-! ## Outputs -/

/-- How an output of each type is wired and set. -/
inductive OutputSetup where
  | value (pin : UInt8) (value : Int16)
  | rgb (pins values : Row UInt8 3)
  | program (values : Row Int16 12)
  | pixels (clockPin dataPin : UInt8) (numPixels : UInt16) (rgbType : UInt8)
  /-- A touch sensor; a channel's threshold byte has the release level in its high half and the
  trigger level in its low one. -/
  | mpr121 (irqPin : UInt8) (useInterrupt : Bool) (thresholds : Row UInt8 12)
  | rs485 (recvPin xmitPin enablePin : UInt8)
  | xbee (recvPin xmitPin : UInt8)
  deriving DecidableEq, Repr

namespace OutputSetup

/-- The type of output that is set up. -/
def type : OutputSetup → OutputType
  | value .. => .value
  | rgb .. => .rgb
  | program .. => .program
  | pixels .. => .pixels
  | mpr121 .. => .mpr121
  | rs485 .. => .rs485
  | xbee .. => .xbee

/-- How many bytes follow the output header. -/
def bodySize : OutputSetup → Nat
  | value .. => 3
  | rgb .. => 6
  | program .. => 24
  | pixels .. => 5
  | mpr121 .. => 14
  | rs485 .. => 3
  | xbee .. => 2

/-- The bytes that follow the output header. -/
def body : OutputSetup → Bytes
  | value pin v => pin :: little16 v.toUInt16
  | rgb pins values => pins.toList ++ values.toList
  | program values => values.toList.flatMap fun v => little16 v.toUInt16
  | pixels clock data n t => clock :: data :: little16 n ++ [t]
  | mpr121 irq useInterrupt thresholds =>
    irq :: (if useInterrupt then 1 else 0) :: thresholds.toList
  | rs485 recv xmit enable => [recv, xmit, enable]
  | xbee recv xmit => [recv, xmit]

/-- Reads what follows the output header. Any byte but zero turns a sensor's interrupt on. -/
def bodyDecoder : OutputType → Decoder OutputSetup
  | .value => do
    let pin ← Decoder.byte
    let v ← Decoder.signed
    pure (.value pin v)
  | .rgb => do
    let pins ← Decoder.row 3
    let values ← Decoder.row 3
    pure (.rgb pins values)
  | .program => do
    let values ← Decoder.rowOf Decoder.signed 12
    pure (.program values)
  | .pixels => do
    let clock ← Decoder.byte
    let data ← Decoder.byte
    let n ← Decoder.word
    let t ← Decoder.byte
    pure (.pixels clock data n t)
  | .mpr121 => do
    let irq ← Decoder.byte
    let useInterrupt ← Decoder.byte
    let thresholds ← Decoder.row 12
    pure (.mpr121 irq (useInterrupt != 0) thresholds)
  | .rs485 => do
    let recv ← Decoder.byte
    let xmit ← Decoder.byte
    let enable ← Decoder.byte
    pure (.rs485 recv xmit enable)
  | .xbee => do
    let recv ← Decoder.byte
    let xmit ← Decoder.byte
    pure (.xbee recv xmit)

end OutputSetup

/-- One output of a module: its position and its set-up. -/
structure OutputConfig where
  index : UInt8
  setup : OutputSetup
  deriving DecidableEq, Repr

/-- The output header of a configured output. -/
def OutputConfig.header (o : OutputConfig) : OutputHeader := ⟨o.setup.type, o.index⟩

instance : Wire OutputConfig where
  size o := OutputHeader.wireSize + o.setup.bodySize
  encode o := Wire.encode o.header ++ o.setup.body
  decoder := do
    let header : OutputHeader ← Wire.decoder
    let setup ← OutputSetup.bodyDecoder header.type
    pure ⟨header.index, setup⟩

/-! ## Records -/

/-- One configuration record. -/
inductive ConfigRecord where
  | header (header : ConfigHeader)
  | output (output : OutputConfig)
  | address (address : UInt16)
  | deviceId (deviceId : UInt16)
  | baud (baud : Baud)
  deriving DecidableEq, Repr

namespace ConfigRecord

/-- The config type of a record. -/
def type : ConfigRecord → ConfigType
  | header _ => .header
  | output o => .output o.setup.type
  | address _ => .address
  | deviceId _ => .deviceId
  | baud _ => .baud

/-- How many bytes follow the tag. -/
def bodySize : ConfigRecord → Nat
  | header h => Wire.size h
  | output o => Wire.size o
  | address _ => 2
  | deviceId _ => 2
  | baud _ => 1

/-- The bytes that follow the tag. -/
def body : ConfigRecord → Bytes
  | header h => Wire.encode h
  | output o => Wire.encode o
  | address a => little16 a
  | deviceId d => little16 d
  | baud b => [b.raw]

/-- Reads what follows the tag. -/
def bodyDecoder : ConfigType → Decoder ConfigRecord
  | .header => do
    let h : ConfigHeader ← Wire.decoder
    pure (.header h)
  | .output t => do
    let o : OutputConfig ← Wire.decoder
    if o.setup.type = t then pure (.output o)
    else Decoder.fail (.malformedPayload (.recordType (.output t) o.setup.type))
  | .address => do
    let a ← Decoder.word
    pure (.address a)
  | .deviceId => do
    let d ← Decoder.word
    pure (.deviceId d)
  | .baud => do
    let b ← Decoder.byte
    pure (.baud ⟨b⟩)

end ConfigRecord

instance : Wire ConfigRecord where
  size r := 2 + r.bodySize
  encode r := configStart :: r.type.code :: r.body
  decoder := do
    let start ← Decoder.byte
    if start ≠ configStart then Decoder.fail (.malformedPayload (.recordStart start))
    let code ← Decoder.byte
    let type ← Decoder.ofOption (.unknownConfigType code) (ConfigType.ofCode? code)
    ConfigRecord.bodyDecoder type

end LightLink
