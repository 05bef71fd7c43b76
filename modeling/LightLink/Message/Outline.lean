import LightLink.Message.Basic
import LightLink.Text.Outline

/-!
# Outlines of messages and configurations

How messages, configuration headers and configured outputs are shown to a person, with every field.
-/

namespace LightLink

open Outline (nat int leaf record wrap list)

/-- A byte. -/
def Outline.byte (b : UInt8) : Outline := nat b.toNat

/-- A 16-bit word. -/
def Outline.word (w : UInt16) : Outline := nat w.toNat

/-- A row of bytes. -/
def Outline.bytes {n : Nat} (r : Row UInt8 n) : Outline := list (r.toList.map .byte)

/-- A baud rate, as its number of units. -/
def Baud.outline (b : Baud) : Outline := wrap "BaudRate" (.byte b.raw)

/-- A colour. -/
def Colour.outline (c : Colour) : Outline :=
  record "Rgb" [("r", .byte c.red), ("g", .byte c.green), ("b", .byte c.blue)]

/-- A program. -/
def Program.outline (p : Program) : Outline :=
  record "ProgramPayload" [("code", .byte p.code), ("params", .bytes p.params)]

/-- What an output is told to do. -/
def OutputAction.outline : OutputAction → Outline
  | .value v => wrap "Value" (int v.toInt)
  | .rgb c => wrap "Rgb" c.outline
  | .program p => wrap "Program" p.outline

/-- An output command. -/
def OutputCommand.outline (c : OutputCommand) : Outline :=
  record "OutputMessage" [("output_index", .byte c.index), ("command", c.action.outline)]

/-- A module's identity. -/
def Identity.outline (i : Identity) : Outline :=
  record "PollResponse"
    [("magic", .byte i.magic), ("protocol_version", .byte i.protocolVersion),
      ("hardware_version", .byte i.hardwareVersion), ("baud", i.baud.outline),
      ("num_outputs", .byte i.numOutputs), ("flags", .byte i.flags),
      ("device_id", .word i.deviceId), ("address", .word i.address),
      ("object_type", .word i.objectType), ("buffer_size", .word i.bufferSize),
      ("msg_version", .byte i.messageVersion)]

/-- A new address. -/
def AddressChange.outline (a : AddressChange) : Outline :=
  record "SetAddressMessage" [("device_id", .word a.deviceId), ("address", .word a.address)]

/-- A configuration header. -/
def ConfigHeader.outline (h : ConfigHeader) : Outline :=
  record "ConfigHeader"
    [("magic", .byte h.magic), ("protocol_version", .byte h.protocolVersion),
      ("hardware_version", .byte h.hardwareVersion), ("baud", h.baud.outline),
      ("num_outputs", .byte h.numOutputs), ("flags", .byte h.flags),
      ("device_id", .word h.deviceId), ("address", .word h.address)]

/-- How an output is set up. -/
def OutputSetup.outline : OutputSetup → Outline
  | .value pin v =>
    wrap "Value" (record "ValueConfig" [("pin", .byte pin), ("value", int v.toInt)])
  | .rgb pins values =>
    wrap "Rgb" (record "RgbConfig" [("pins", .bytes pins), ("values", .bytes values)])
  | .program values =>
    wrap "Program" (record "ProgramConfig"
      [("values", list (values.toList.map fun v => int v.toInt))])
  | .pixels clock data n t =>
    wrap "Pixels" (record "PixelsConfig"
      [("clock_pin", .byte clock), ("data_pin", .byte data), ("num_pixels", .word n),
        ("rgb_type", .byte t)])
  | .mpr121 irq useInterrupt thresholds =>
    wrap "Mpr121" (record "Mpr121Config"
      [("irq_pin", .byte irq), ("use_interrupt", leaf (if useInterrupt then "true" else "false")),
        ("thresholds", .bytes thresholds)])
  | .rs485 recv xmit enable =>
    wrap "Rs485" (record "Rs485Config"
      [("recv_pin", .byte recv), ("xmit_pin", .byte xmit), ("enable_pin", .byte enable)])
  | .xbee recv xmit =>
    wrap "Xbee" (record "XbeeConfig" [("recv_pin", .byte recv), ("xmit_pin", .byte xmit)])

/-- A configured output. -/
def OutputConfig.outline (o : OutputConfig) : Outline :=
  record "OutputConfig" [("output_index", .byte o.index), ("kind", o.setup.outline)]

/-- A configuration record. -/
def ConfigRecord.outline : ConfigRecord → Outline
  | .header h => wrap "Header" h.outline
  | .output o => wrap "Output" o.outline
  | .address a => wrap "Address" (.word a)
  | .deviceId d => wrap "DeviceId" (.word d)
  | .baud b => wrap "Baud" b.outline

/-- What a message says. -/
def Body.outline : Body → Outline
  | .output c => wrap "Output" c.outline
  | .pollRequest => leaf "PollRequest"
  | .pollResponse i => wrap "PollResponse" i.outline
  | .setAddress a => wrap "SetAddress" a.outline
  | .dumpConfig rs => wrap "DumpConfig" (list (rs.map ConfigRecord.outline))

/-- A message. -/
def Message.outline (m : Message) : Outline :=
  record "HmtlMessage"
    [("address", .word m.address), ("flags", wrap "MessageFlags" (.byte m.flags.bits)),
      ("body", m.body.outline)]

end LightLink
