import LightLink.Config.Description
import LightLink.Json.Value

/-!
# Module descriptions as JSON

A description is an object with a header and a list of outputs; an output names its type under
`type`, and the fields that it has follow from that. Each of these objects may also be a list of its
fields in their order. Members with other names are skipped. A text that is no description is
refused without a reason.
-/

namespace LightLink

open Json (Value)

/-- The most containers within each other, that of the whole text included. -/
def maxNesting : Nat := 127

namespace HeaderDescription

/-- The fields of a header, of which the last may be missing. -/
def fieldNames : List String :=
  ["protocol_version", "hardware_version", "address", "device_id", "baud", "flags"]

/-- Reads a header. -/
def ofJson? (v : Value) : Option HeaderDescription := do
  let [some protocolVersion, some hardwareVersion, some address, some deviceId, some baud, flags] ←
    v.fields? fieldNames | none
  some {
    protocolVersion := ← protocolVersion.asByte?
    hardwareVersion := ← hardwareVersion.asByte?
    address := ← address.asWord?
    deviceId := ← deviceId.asWord?
    baud := ← baud.asLong?
    flags := ← Value.orDefault Value.asByte? 0 flags }

end HeaderDescription

namespace OutputDescription

/-- The field that names an output's type. -/
def typeField : String := "type"

/-- The fields that an output of each type has beside its type. -/
def fieldNames : OutputType → List String
  | .value => ["pin", "value"]
  | .rgb => ["pins", "values"]
  | .program => ["values"]
  | .pixels => ["clockpin", "datapin", "numpixels", "rgbtype"]
  | .mpr121 => ["irqpin", "useinterrupt", "trigger", "release"]
  | .rs485 => ["recvpin", "xmitpin", "enablepin"]
  | .xbee => ["recvpin", "xmitpin"]

/-- The value that names the type: the member of that name, or the first entry of a list. -/
def typeValue? : Value → Option Value
  | .object members => (members.find? fun m => Json.isText m.1 typeField).map Prod.snd
  | .array (v :: _) => some v
  | _ => none

/-- Reads the type of an output. -/
def typeOf? (v : Value) : Option OutputType := do
  let name ← (← typeValue? v).asText?
  OutputType.ofKindName? (String.ofList name)

/-- Reads the fields of an output of a type. -/
def ofFields? : OutputType → List (Option Value) → Option OutputDescription
  | .value, [some pin, some v] => do some (.value (← pin.asByte?) (← v.asSigned?))
  | .rgb, [some pins, some values] => do
    some (.rgb (← pins.asList? Value.asByte?) (← values.asList? Value.asByte?))
  | .program, [values] => do
    some (.program (← Value.orDefault (Value.asList? Value.asSigned?) [] values))
  | .pixels, [some clock, some data, some count, some rgbType] => do
    some (.pixels (← clock.asByte?) (← data.asByte?) (← count.asWord?) (← rgbType.asByte?))
  | .mpr121, [some irq, some useInterrupt, some trigger, some release] => do
    some (.mpr121 (← irq.asByte?) (← useInterrupt.asBool?) (← trigger.asList? Value.asByte?)
      (← release.asList? Value.asByte?))
  | .rs485, [some recv, some xmit, some enable] => do
    some (.rs485 (← recv.asByte?) (← xmit.asByte?) (← enable.asByte?))
  | .xbee, [some recv, some xmit] => do some (.xbee (← recv.asByte?) (← xmit.asByte?))
  | _, _ => none

/-- Reads an output. As its type may stand behind its other fields, all of it has to be sound, also
the members that are skipped; two containers lie around it. -/
def ofJson? (v : Value) : Option OutputDescription := do
  if !v.fits (maxNesting - 2) then none
  let type ← typeOf? v
  let _ :: fields ← v.fields? (typeField :: fieldNames type) | none
  ofFields? type fields

end OutputDescription

namespace ModuleDescription

/-- Reads a description. -/
def ofJson? (v : Value) : Option ModuleDescription := do
  let [some header, outputs] ← v.fields? ["header", "outputs"] | none
  some {
    header := ← HeaderDescription.ofJson? header
    outputs := ← Value.orDefault (Value.asList? OutputDescription.ofJson?) [] outputs }

/-- The description that a text gives. -/
def parse? (cs : List Char) : Option ModuleDescription := Value.parse? cs >>= ofJson?

end ModuleDescription

end LightLink
