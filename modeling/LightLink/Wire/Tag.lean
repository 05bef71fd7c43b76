import LightLink.Bytes

/-!
# Type tags

The one-byte codes by which a message, an output and a configuration record say what follows them.
Each kind of tag lists its members once (`all`); a byte is read as the member that has it as its
code, so `ofCode?` inverts `code` and refuses every other byte.
-/

namespace LightLink

/-! ## Messages -/

/-- What a binary message is about. -/
inductive MessageType where
  | output
  | poll
  | setAddress
  | dumpConfig
  deriving DecidableEq, Repr

namespace MessageType

/-- Every message type. -/
def all : List MessageType := [.output, .poll, .setAddress, .dumpConfig]

/-- The byte that stands for a message type in a header. -/
def code : MessageType → UInt8
  | .output => 1
  | .poll => 2
  | .setAddress => 3
  | .dumpConfig => 4

/-- The message type a byte stands for, if any. -/
def ofCode? (b : UInt8) : Option MessageType := all.find? (·.code == b)

/-- The name shown to people. -/
def label : MessageType → String
  | .output => "OUTPUT"
  | .poll => "POLL"
  | .setAddress => "SETADDR"
  | .dumpConfig => "DUMPCONFIG"

/-- The name used in structured text. -/
def name : MessageType → String
  | .output => "Output"
  | .poll => "Poll"
  | .setAddress => "SetAddress"
  | .dumpConfig => "DumpConfig"

@[simp] theorem ofCode?_code (t : MessageType) : ofCode? t.code = some t := by
  cases t <;> rfl

theorem code_eq_of_ofCode? {b : UInt8} {t : MessageType} (h : ofCode? b = some t) : t.code = b := by
  simpa using List.find?_some h

end MessageType

/-! ## Outputs -/

/-- What kind of hardware an output is. -/
inductive OutputType where
  | value
  | rgb
  | program
  | pixels
  | mpr121
  | rs485
  | xbee
  deriving DecidableEq, Repr

namespace OutputType

/-- Every output type. -/
def all : List OutputType := [.value, .rgb, .program, .pixels, .mpr121, .rs485, .xbee]

/-- The byte that stands for an output type. -/
def code : OutputType → UInt8
  | .value => 1
  | .rgb => 2
  | .program => 3
  | .pixels => 4
  | .mpr121 => 5
  | .rs485 => 6
  | .xbee => 7

/-- The output type a byte stands for, if any. -/
def ofCode? (b : UInt8) : Option OutputType := all.find? (·.code == b)

/-- The name used in structured text. -/
def name : OutputType → String
  | .value => "Value"
  | .rgb => "Rgb"
  | .program => "Program"
  | .pixels => "Pixels"
  | .mpr121 => "Mpr121"
  | .rs485 => "Rs485"
  | .xbee => "Xbee"

/-- The name used in written descriptions of a module. -/
def kindName : OutputType → String
  | .value => "value"
  | .rgb => "rgb"
  | .program => "program"
  | .pixels => "pixels"
  | .mpr121 => "mpr121"
  | .rs485 => "rs485"
  | .xbee => "xbee"

/-- The output type a description names, if any. -/
def ofKindName? (s : String) : Option OutputType := all.find? (·.kindName == s)

@[simp] theorem ofCode?_code (t : OutputType) : ofCode? t.code = some t := by
  cases t <;> rfl

theorem code_eq_of_ofCode? {b : UInt8} {t : OutputType} (h : ofCode? b = some t) : t.code = b := by
  simpa using List.find?_some h

end OutputType

/-! ## Configuration records -/

/-- What a configuration record holds: the module's header, the set-up of an output of some type, or
one setting on its own. -/
inductive ConfigType where
  | header
  | output (type : OutputType)
  | address
  | deviceId
  | baud
  deriving DecidableEq, Repr

namespace ConfigType

/-- Every config type. -/
def all : List ConfigType :=
  .header :: (OutputType.all.map .output ++ [.address, .deviceId, .baud])

/-- The byte that stands for a config type; the record of an output has the output's own code. -/
def code : ConfigType → UInt8
  | .header => 0
  | .output t => t.code
  | .address => 0xE0
  | .deviceId => 0xE1
  | .baud => 0xE2

/-- The config type a byte stands for, if any. -/
def ofCode? (b : UInt8) : Option ConfigType := all.find? (·.code == b)

/-- The name used in structured text. -/
def name : ConfigType → String
  | .header => "Header"
  | .output t => t.name
  | .address => "Address"
  | .deviceId => "DeviceId"
  | .baud => "Baud"

@[simp] theorem ofCode?_code (t : ConfigType) : ofCode? t.code = some t := by
  cases t with
  | output o => cases o <;> rfl
  | _ => rfl

theorem code_eq_of_ofCode? {b : UInt8} {t : ConfigType} (h : ofCode? b = some t) : t.code = b := by
  simpa using List.find?_some h

end ConfigType

/-! ## Modules -/

/-- The product name of a module's object type, where one is known. -/
def moduleTypeName? (code : UInt16) : Option String :=
  match code.toNat with
  | 1 => some "HMTL_Module"
  | 2 => some "WirelessPendant"
  | 3 => some "TriangleLightModule"
  | 4 => some "HMTL_Fire_Control"
  | _ => none

end LightLink
