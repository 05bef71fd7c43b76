import LightLink.Config.Record
import LightLink.Message.Program

/-!
# Messages

A binary message is an eight-byte header and a body that the header's message type selects:

    output       output header, then a value, a colour or a program
    poll         nothing (the request) or 15 bytes of identity (a module's reply)
    set address  device:2 address:2
    dump config  nothing (the request) or configuration records (a module's reply)

`Message` keeps what a sender decides; length, version and checksum are the encoder's.
-/

namespace LightLink

/-- The protocol version that is written. -/
def protocolVersion : UInt8 := 2

/-- The address that means every module. -/
def broadcastAddress : UInt16 := 0xFFFF

/-! ## Flags -/

/-- The flag bits of a header; bits without a meaning are kept as they are. -/
structure Flags where
  bits : UInt8
  deriving DecidableEq, Repr

namespace Flags

/-- No flag. -/
def none : Flags := ⟨0⟩

/-- The sender wants an acknowledgement. -/
def ack : Flags := ⟨0x01⟩

/-- The sender wants data back, or this is such data. -/
def response : Flags := ⟨0x02⟩

/-- Another part of the same answer follows. -/
def moreData : Flags := ⟨0x04⟩

/-- The module reports an error. -/
def error : Flags := ⟨0x08⟩

/-- Every bit of `g` is set. -/
def contains (f g : Flags) : Bool := f.bits &&& g.bits == g.bits

/-- The bits of both. -/
def union (f g : Flags) : Flags := ⟨f.bits ||| g.bits⟩

end Flags

/-! ## The header -/

/-- The header at the front of every message. -/
structure MessageHeader where
  /-- Written as zero and never looked at. -/
  crc : UInt8
  version : UInt8
  /-- The size of the whole message, header included. -/
  length : UInt8
  type : MessageType
  flags : Flags
  address : UInt16
  deriving DecidableEq, Repr

/-- The size of a message header. -/
def MessageHeader.wireSize : Nat := 8

instance : Wire MessageHeader where
  size _ := MessageHeader.wireSize
  encode h :=
    [startCode, h.crc, h.version, h.length, h.type.code, h.flags.bits] ++ little16 h.address
  decoder := do
    let start ← Decoder.byte
    if start ≠ startCode then Decoder.fail (.badStartCode start)
    let crc ← Decoder.byte
    let version ← Decoder.byte
    let length ← Decoder.byte
    let code ← Decoder.byte
    let flags ← Decoder.byte
    let address ← Decoder.word
    let type ← Decoder.ofOption (.unknownMessageType code) (MessageType.ofCode? code)
    pure ⟨crc, version, length, type, ⟨flags⟩, address⟩

/-! ## Output commands -/

/-- What an output is told to do. -/
inductive OutputAction where
  | value (value : Int16)
  | rgb (colour : Colour)
  | program (program : Program)
  deriving DecidableEq, Repr

/-- The type of output that understands an action. -/
def OutputAction.type : OutputAction → OutputType
  | value _ => .value
  | rgb _ => .rgb
  | program _ => .program

/-- An output and what it is told to do. -/
structure OutputCommand where
  index : UInt8
  action : OutputAction
  deriving DecidableEq, Repr

/-- The output header of an output command. -/
def OutputCommand.header (c : OutputCommand) : OutputHeader := ⟨c.action.type, c.index⟩

namespace OutputAction

/-- How many bytes follow the output header. -/
def bodySize : OutputAction → Nat
  | value _ => 2
  | rgb _ => 3
  | program p => Wire.size p

/-- The bytes that follow the output header. -/
def body : OutputAction → Bytes
  | value v => little16 v.toUInt16
  | rgb c => c.bytes
  | program p => Wire.encode p

/-- Reads what follows the output header; only three types of output take an action. -/
def bodyDecoder : OutputType → Decoder OutputAction
  | .value => do
    let v ← Decoder.signed
    pure (.value v)
  | .rgb => do
    let c ← Decoder.colour
    pure (.rgb c)
  | .program => do
    let p : Program ← Wire.decoder
    pure (.program p)
  | t => Decoder.fail (.malformedPayload (.noOutputCommand t))

end OutputAction

instance : Wire OutputCommand where
  size c := OutputHeader.wireSize + c.action.bodySize
  encode c := Wire.encode c.header ++ c.action.body
  decoder := do
    let header : OutputHeader ← Wire.decoder
    let action ← OutputAction.bodyDecoder header.type
    pure ⟨header.index, action⟩

/-! ## Module identities -/

/-- What a module says about itself when it is polled. -/
structure Identity where
  magic : UInt8
  protocolVersion : UInt8
  hardwareVersion : UInt8
  baud : Baud
  numOutputs : UInt8
  flags : UInt8
  deviceId : UInt16
  address : UInt16
  /-- The product, see `moduleTypeName?`. -/
  objectType : UInt16
  bufferSize : UInt16
  messageVersion : UInt8
  deriving DecidableEq, Repr

/-- The size of an identity. -/
def Identity.wireSize : Nat := 15

instance : Wire Identity where
  size _ := Identity.wireSize
  encode i :=
    [i.magic, i.protocolVersion, i.hardwareVersion, i.baud.raw, i.numOutputs, i.flags] ++
      little16 i.deviceId ++ little16 i.address ++ little16 i.objectType ++ little16 i.bufferSize ++
      [i.messageVersion]
  decoder := do
    let magic ← Decoder.byte
    let protocolVersion ← Decoder.byte
    let hardwareVersion ← Decoder.byte
    let baud ← Decoder.byte
    let numOutputs ← Decoder.byte
    let flags ← Decoder.byte
    let deviceId ← Decoder.word
    let address ← Decoder.word
    let objectType ← Decoder.word
    let bufferSize ← Decoder.word
    let messageVersion ← Decoder.byte
    pure ⟨magic, protocolVersion, hardwareVersion, ⟨baud⟩, numOutputs, flags, deviceId, address,
      objectType, bufferSize, messageVersion⟩

/-! ## Addresses -/

/-- The new address of the module that has a device id. -/
structure AddressChange where
  deviceId : UInt16
  address : UInt16
  deriving DecidableEq, Repr

/-- The size of an address change. -/
def AddressChange.wireSize : Nat := 4

instance : Wire AddressChange where
  size _ := AddressChange.wireSize
  encode a := little16 a.deviceId ++ little16 a.address
  decoder := do
    let deviceId ← Decoder.word
    let address ← Decoder.word
    pure ⟨deviceId, address⟩

/-! ## Whole messages -/

/-- What a message says. -/
inductive Body where
  | output (command : OutputCommand)
  /-- Asks modules who they are. -/
  | pollRequest
  /-- A module's reply to a poll. -/
  | pollResponse (identity : Identity)
  | setAddress (change : AddressChange)
  /-- Asks for a module's configuration, with no records, or holds records of it. -/
  | dumpConfig (records : List ConfigRecord)
  deriving DecidableEq, Repr

/-- The message type of a body. -/
def Body.type : Body → MessageType
  | output _ => .output
  | pollRequest => .poll
  | pollResponse _ => .poll
  | setAddress _ => .setAddress
  | dumpConfig _ => .dumpConfig

/-- A message to or from the module at an address. -/
structure Message where
  address : UInt16
  flags : Flags
  body : Body
  deriving DecidableEq, Repr

namespace Message

/-- The message type. -/
def type (m : Message) : MessageType := m.body.type

/-- The message with more flags set. -/
def withFlags (m : Message) (f : Flags) : Message := { m with flags := m.flags.union f }

/-- A message without flags. -/
def plain (address : UInt16) (body : Body) : Message := ⟨address, .none, body⟩

/-- Tells an output what to do. -/
def output (address : UInt16) (index : UInt8) (action : OutputAction) : Message :=
  plain address (.output ⟨index, action⟩)

/-- Sets an output to a value. -/
def value (address : UInt16) (index : UInt8) (v : Int16) : Message :=
  output address index (.value v)

/-- Sets an output to a colour. -/
def rgb (address : UInt16) (index : UInt8) (c : Colour) : Message :=
  output address index (.rgb c)

/-- Starts a program on an output. -/
def program (address : UInt16) (index : UInt8) (p : Program) : Message :=
  output address index (.program p)

/-- Asks modules who they are. -/
def poll (address : UInt16) : Message := (plain address .pollRequest).withFlags .response

/-- Gives the module with `deviceId` a new address. -/
def setAddress (address deviceId newAddress : UInt16) : Message :=
  plain address (.setAddress ⟨deviceId, newAddress⟩)

/-- Asks a module for its configuration. -/
def dumpConfig (address : UInt16) : Message :=
  (plain address (.dumpConfig [])).withFlags .response

end Message

end LightLink
