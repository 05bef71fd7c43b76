import LightLink.Settings.Basic
import LightLink.Text.Utf8
import LightLink.Toml.Document

/-!
# Settings as TOML

Settings are written as three tables, `serial`, `relay` and `scanner`. Whatever is missing keeps its
default, and other entries are skipped. `Settings.render` writes all of them, but for a device that
is not set.

* `Settings.parse?`: the settings of a document;
* `Settings.load`: the settings of a file.
-/

namespace LightLink

open Toml (Node Table)

namespace Settings

/-! ## Reading -/

/-- The values of fields in the order of `names`; a table names them, an array holds them in order.
A date is a value of its own without any of them. -/
def fields? (names : List String) : Node → Option (List (Option Node))
  | .table _ entries => some (names.map fun n => Table.get? entries n.toList)
  | .array items => some (inOrder items)
  | .tables last earlier => some (inOrder ((last :: earlier).reverse.map (.table .header)))
  | .word .dateTime => some (names.map fun _ => none)
  | _ => none
where
  /-- The first values, and none where there are no more. -/
  inOrder (items : List Node) : List (Option Node) :=
    (List.range names.length).map fun i => items[i]?

/-- The value of a field, or its default where it is missing. -/
def orDefault {α : Type} (default : α) (read : Node → Option α) : Option Node → Option α
  | some n => read n
  | none => some default

/-- A string. -/
def asString? : Node → Option (List Char)
  | .string s => some s
  | _ => none

/-- A boolean. -/
def asBool? : Node → Option Bool
  | .word (.boolean b) => some b
  | _ => none

/-- A number from zero to `max`. -/
def asNat? (max : Nat) : Node → Option Nat
  | .word (.integer n) => if 0 ≤ n ∧ n ≤ max then some n.toNat else none
  | _ => none

/-- A 16-bit word. -/
def asWord? (n : Node) : Option UInt16 := UInt16.ofNat <$> asNat? 0xFFFF n

/-- A 32-bit word. -/
def asLong? (n : Node) : Option UInt32 := UInt32.ofNat <$> asNat? 0xFFFFFFFF n

/-- A 64-bit word. -/
def asCount? (n : Node) : Option UInt64 := UInt64.ofNat <$> asNat? 0xFFFFFFFFFFFFFFFF n

/-- Reads the settings of the serial link. -/
def serial? (n : Node) : Option SerialSettings := do
  let d : SerialSettings := {}
  let [device, baud, ready, ack] ←
    fields? ["device", "baud", "ready_timeout_ms", "ack_timeout_ms"] n | none
  some {
    device := ← orDefault none (fun n => some <$> asString? n) device
    baud := ← orDefault d.baud asLong? baud
    readyTimeoutMs := ← orDefault d.readyTimeoutMs asCount? ready
    ackTimeoutMs := ← orDefault d.ackTimeoutMs asCount? ack }

/-- Reads the settings of the relay. -/
def relay? (n : Node) : Option RelaySettings := do
  let d : RelaySettings := {}
  let [address, port, wait] ← fields? ["address", "port", "data_wait_ms"] n | none
  some {
    address := ← orDefault d.address asString? address
    port := ← orDefault d.port asWord? port
    dataWaitMs := ← orDefault d.dataWaitMs asCount? wait }

/-- Reads the settings of the scanner. -/
def scanner? (n : Node) : Option ScannerSettings := do
  let d : ScannerSettings := {}
  let [enabled, first, last, scan, address] ←
    fields? ["enabled", "first_address", "last_address", "scan_period_secs", "address_period_ms"] n
    | none
  some {
    enabled := ← orDefault d.enabled asBool? enabled
    firstAddress := ← orDefault d.firstAddress asWord? first
    lastAddress := ← orDefault d.lastAddress asWord? last
    scanPeriodSecs := ← orDefault d.scanPeriodSecs asCount? scan
    addressPeriodMs := ← orDefault d.addressPeriodMs asCount? address }

/-- Reads settings. -/
def ofTable? (t : Table) : Option Settings := do
  some {
    serial := ← orDefault {} serial? (Table.get? t "serial".toList)
    relay := ← orDefault {} relay? (Table.get? t "relay".toList)
    scanner := ← orDefault {} scanner? (Table.get? t "scanner".toList) }

/-- The settings of a document. -/
def parse? (cs : List Char) : Option Settings := Toml.parse? cs >>= ofTable?

/-- What a file may be. -/
inductive File where
  | missing
  | unreadable
  | holds (bytes : Bytes)

/-- The settings of a file; where there is none, the defaults. -/
def load : File → Except SettingsError Settings
  | .missing => .ok {}
  | .unreadable => .error .io
  | .holds bytes =>
    match Utf8.decode? bytes with
    | none => .error .io
    | some cs =>
      match parse? cs with
      | some s => .ok s
      | none => .error .parse

/-! ## Writing -/

/-- A line with a setting. -/
def entry (key value : String) : String := key ++ " = " ++ value ++ "\n"

/-- A number. -/
def number (n : Nat) : String := toString n

/-- The lines of the serial link. -/
def serialLines (s : SerialSettings) : String :=
  "[serial]\n" ++ (s.device.map fun d => entry "device" (Toml.Quoted.encode d)).getD "" ++
    entry "baud" (number s.baud.toNat) ++
    entry "ready_timeout_ms" (number s.readyTimeoutMs.toNat) ++
    entry "ack_timeout_ms" (number s.ackTimeoutMs.toNat)

/-- The lines of the relay. -/
def relayLines (s : RelaySettings) : String :=
  "[relay]\n" ++ entry "address" (Toml.Quoted.encode s.address) ++
    entry "port" (number s.port.toNat) ++ entry "data_wait_ms" (number s.dataWaitMs.toNat)

/-- The lines of the scanner. -/
def scannerLines (s : ScannerSettings) : String :=
  "[scanner]\n" ++ entry "enabled" (if s.enabled then "true" else "false") ++
    entry "first_address" (number s.firstAddress.toNat) ++
    entry "last_address" (number s.lastAddress.toNat) ++
    entry "scan_period_secs" (number s.scanPeriodSecs.toNat) ++
    entry "address_period_ms" (number s.addressPeriodMs.toNat)

/-- The document that settings are saved as. -/
def render (s : Settings) : String :=
  serialLines s.serial ++ "\n" ++ relayLines s.relay ++ "\n" ++ scannerLines s.scanner

end Settings

end LightLink
