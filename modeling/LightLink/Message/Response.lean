import LightLink.Config.Module
import LightLink.Message.Codec
import LightLink.Text.Column

/-!
# Responses

What the parts of an answer say together: the modules that replied to a poll, a module's whole
configuration, or messages of another kind.
-/

namespace LightLink

namespace Identity

/-- How many characters a column of the table of modules has. -/
def columnWidth : Nat := 8

/-- The headings of the table of modules. -/
def tableHeader : String :=
  Column.row columnWidth
    ["device", "address", "protocol", "hardware", "baud", "outputs", "type"]

/-- The product name, or the object type where it is not known. -/
def productName (i : Identity) : String :=
  (moduleTypeName? i.objectType).getD s!"unknown({i.objectType.toNat})"

/-- A module's row in the table of modules. -/
def tableRow (i : Identity) : String :=
  Column.row columnWidth
    [toString i.deviceId.toNat, toString i.address.toNat, toString i.protocolVersion.toNat,
      toString i.hardwareVersion.toNat, toString i.baud.bps, toString i.numOutputs.toNat,
      i.productName]

end Identity

/-- The identity that a poll's reply carries. -/
def Body.identity? : Body → Option Identity
  | pollResponse i => some i
  | _ => none

/-- The records that a configuration dump carries. -/
def Body.records? : Body → Option (List ConfigRecord)
  | dumpConfig rs => some rs
  | _ => none

/-- What an answer says. -/
inductive Response where
  | modules (identities : List Identity)
  | config (config : ModuleConfig)
  | other (messages : List Message)
  deriving DecidableEq, Repr

namespace Response

/-- What some messages say together: if they are all replies to a poll, the modules; if they are all
parts of a configuration, that configuration; in every other case just the messages. -/
def ofMessages (ms : List Message) : Except WireError Response :=
  if ms.isEmpty then .ok (other [])
  else
    match ms.mapM (·.body.identity?) with
    | some identities => .ok (modules identities)
    | none =>
      match ms.mapM (·.body.records?) with
      | some parts => config <$> ModuleConfig.ofRecords parts.flatten
      | none => .ok (other ms)

/-- The messages of the parts of an answer, up to the first one that is none. -/
def messagesOf (fragments : List Bytes) : Except WireError (List Message) :=
  fragments.mapM fun f => Prod.fst <$> Message.decode f

/-- What the parts of an answer say. -/
def ofFragments (fragments : List Bytes) : Except WireError Response := do
  ofMessages (← messagesOf fragments)

end Response

end LightLink
