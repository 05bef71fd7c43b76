import LightLink.Config.Module

/-!
# Module descriptions

A module's set-up as a person writes it down, and the checks that turn it into a `ModuleConfig`.
Nothing is built from a description with a fault; which of several faults is reported follows the
order baud rate, number of outputs, outputs from the first to the last, and within an output the
order of the checks in `OutputDescription.setup`.
-/

namespace LightLink

/-- The greatest trigger or release level of a touch channel. -/
def maxThreshold : UInt8 := 15

/-! ## Faults -/

/-- What is wrong with the description of one output. -/
inductive SetupError where
  | wrongLength (field : String) (expected actual : Nat)
  | tooManyValues (field : String) (max actual : Nat)
  | thresholdOutOfRange (field : String) (index : Nat) (value : UInt8)
  deriving DecidableEq, Repr

/-- The wording of a fault in an output. -/
def SetupError.message : SetupError → String
  | wrongLength field expected actual =>
    s!"'{field}' must have exactly {expected} entries, found {actual}"
  | tooManyValues field max actual => s!"'{field}' allows at most {max} entries, found {actual}"
  | thresholdOutOfRange field index value =>
    s!"{field}[{index}] = {value.toNat} exceeds the maximum threshold of 0xF"

/-- What is wrong with a description. -/
inductive DescriptionError where
  | invalidBaud (bps : UInt32)
  | tooManyOutputs (count : Nat)
  | output (index : Nat) (type : OutputType) (cause : SetupError)
  deriving DecidableEq, Repr

/-- The wording of a fault. -/
def DescriptionError.message : DescriptionError → String
  | invalidBaud bps =>
    s!"invalid baud rate {bps.toNat}: must be a non-zero multiple of 1200 no larger than 306000"
  | tooManyOutputs count => s!"too many outputs: {count} (a module holds at most 255)"
  | output index type cause => s!"output {index} ({type.kindName}): {cause.message}"

/-- The baud rate of so many bits per second. -/
def Baud.ofBps (bps : UInt32) : Except DescriptionError Baud :=
  match Baud.ofBps? bps with
  | some b => .ok b
  | none => .error (.invalidBaud bps)

/-- The configuration with this header, but for its output count, and these outputs. -/
def ModuleConfig.ofOutputs (header : ConfigHeader) (outputs : List OutputConfig) :
    Except DescriptionError ModuleConfig :=
  match ModuleConfig.ofOutputs? header outputs with
  | some c => .ok c
  | none => .error (.tooManyOutputs outputs.length)

/-! ## Touch thresholds -/

/-- The position and the value of the first level above `maxThreshold`. -/
def firstExcess (levels : List UInt8) : Option (Nat × UInt8) :=
  (levels.zipIdx.find? fun p => maxThreshold < p.1).map fun p => (p.2, p.1)

/-- A row of exactly `n` entries from the list that a field describes. -/
def exactRow {α : Type} (n : Nat) (field : String) (values : List α) :
    Except SetupError (Row α n) :=
  match Row.ofList? n values with
  | some r => .ok r
  | none => .error (.wrongLength field n values.length)

/-- Refuses levels above `maxThreshold`. -/
def checkThresholds (field : String) (levels : Row UInt8 12) : Except SetupError Unit :=
  match firstExcess levels.toList with
  | some (index, value) => .error (.thresholdOutOfRange field index value)
  | none => .ok ()

/-- The byte of a channel: its release level in the high half, its trigger level in the low one. -/
def packThreshold (release trigger : UInt8) : UInt8 := (release <<< 4) ||| trigger

/-- The threshold bytes of a touch sensor's twelve channels. -/
def packThresholds (trigger release : List UInt8) : Except SetupError (Row UInt8 12) := do
  let trigger ← exactRow 12 "trigger" trigger
  let release ← exactRow 12 "release" release
  checkThresholds "trigger" trigger
  checkThresholds "release" release
  pure (release.zipWith packThreshold trigger)

/-! ## Descriptions -/

/-- The settings of a module as a whole. -/
structure HeaderDescription where
  protocolVersion : UInt8
  hardwareVersion : UInt8
  address : UInt16
  deviceId : UInt16
  /-- In bits per second. -/
  baud : UInt32
  flags : UInt8
  deriving DecidableEq, Repr

/-- How an output is wired and set. -/
inductive OutputDescription where
  | value (pin : UInt8) (value : Int16)
  | rgb (pins values : List UInt8)
  | program (values : List Int16)
  | pixels (clockPin dataPin : UInt8) (numPixels : UInt16) (rgbType : UInt8)
  | mpr121 (irqPin : UInt8) (useInterrupt : Bool) (trigger release : List UInt8)
  | rs485 (recvPin xmitPin enablePin : UInt8)
  | xbee (recvPin xmitPin : UInt8)
  deriving DecidableEq, Repr

namespace OutputDescription

/-- The type of output that is described. -/
def type : OutputDescription → OutputType
  | value .. => .value
  | rgb .. => .rgb
  | program .. => .program
  | pixels .. => .pixels
  | mpr121 .. => .mpr121
  | rs485 .. => .rs485
  | xbee .. => .xbee

/-- The set-up that is described; a program's missing values are zero. -/
def setup : OutputDescription → Except SetupError OutputSetup
  | value pin v => .ok (.value pin v)
  | rgb pins values => do
    let pins ← exactRow 3 "pins" pins
    let values ← exactRow 3 "values" values
    pure (.rgb pins values)
  | program values =>
    if h : values.length ≤ 12 then .ok (.program (Row.padded 12 values 0 h))
    else .error (.tooManyValues "values" 12 values.length)
  | pixels clock data n t => .ok (.pixels clock data n t)
  | mpr121 irq useInterrupt trigger release =>
    .mpr121 irq useInterrupt <$> packThresholds trigger release
  | rs485 recv xmit enable => .ok (.rs485 recv xmit enable)
  | xbee recv xmit => .ok (.xbee recv xmit)

/-- The outputs that are described, numbered from `index` on. -/
def outputsFrom (index : Nat) : List OutputDescription → Except DescriptionError (List OutputConfig)
  | [] => .ok []
  | d :: ds =>
    match d.setup with
    | .error cause => .error (.output index d.type cause)
    | .ok s => (⟨UInt8.ofNat index, s⟩ :: ·) <$> outputsFrom (index + 1) ds

end OutputDescription

/-- A module as a person describes it. -/
structure ModuleDescription where
  header : HeaderDescription
  outputs : List OutputDescription
  deriving DecidableEq, Repr

namespace ModuleDescription

/-- The configuration header that is described, before its outputs are counted. -/
def configHeader (d : HeaderDescription) (baud : Baud) : ConfigHeader :=
  ⟨configMagic, d.protocolVersion, d.hardwareVersion, baud, 0, d.flags, d.deviceId, d.address⟩

/-- The configuration that is described, or its first fault. -/
def validate (d : ModuleDescription) : Except DescriptionError ModuleConfig := do
  let baud ← Baud.ofBps d.header.baud
  if d.outputs.length > ModuleConfig.maxOutputs then
    .error (.tooManyOutputs d.outputs.length)
  else do
    let outputs ← OutputDescription.outputsFrom 0 d.outputs
    ModuleConfig.ofOutputs (configHeader d.header baud) outputs

/-- The description with another address. -/
def withAddress (d : ModuleDescription) (address : UInt16) : ModuleDescription :=
  { d with header := { d.header with address := address } }

end ModuleDescription

end LightLink
