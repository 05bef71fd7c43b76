import LightLink.Config.Record

/-!
# Module configurations

The whole set-up of a module: its header and its outputs. The header's output count is always the
number of outputs (`numOutputs_eq`). A configuration and its list of records determine each other:
`toRecords` lists it, `ofRecords` puts a list together again.
-/

namespace LightLink

/-- A module's header and its outputs, which the header counts. -/
structure ModuleConfig where
  header : ConfigHeader
  outputs : List OutputConfig
  numOutputs_eq : header.numOutputs.toNat = outputs.length
  deriving DecidableEq, Repr

namespace ModuleConfig

/-- The most outputs a module holds. -/
def maxOutputs : Nat := 255

/-- The configuration with this header, but for its output count, and these outputs, if there are
not too many to be counted. -/
def ofOutputs? (header : ConfigHeader) (outputs : List OutputConfig) : Option ModuleConfig :=
  if h : outputs.length ≤ maxOutputs then
    some ⟨{ header with numOutputs := UInt8.ofNat outputs.length }, outputs, by
      simp [maxOutputs] at h ⊢; omega⟩
  else none

/-- The header's record, then one for each output. -/
def toRecords (c : ModuleConfig) : List ConfigRecord :=
  .header c.header :: c.outputs.map .output

/-- The outputs of records that all set up an output, or the first record that does not. -/
def outputsOf : List ConfigRecord → Except WireError (List OutputConfig)
  | [] => .ok []
  | .output o :: rest => (o :: ·) <$> outputsOf rest
  | r :: _ => .error (.malformedPayload (.unexpectedRecord r.type))

/-- The configuration that has these records: a header, then as many outputs as it counts. -/
def ofRecords : List ConfigRecord → Except WireError ModuleConfig
  | .header header :: rest => do
    let outputs ← outputsOf rest
    if h : header.numOutputs.toNat = outputs.length then pure ⟨header, outputs, h⟩
    else .error (.malformedPayload (.outputCount header.numOutputs outputs.length))
  | _ => .error (.malformedPayload .missingHeader)

end ModuleConfig

end LightLink
