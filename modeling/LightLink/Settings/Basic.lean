import LightLink.Relay.Server
import LightLink.Scan.Scanner

/-!
# Settings of a server

What a server is told about its serial link, its relay and its scanner, and the configurations that
follow from it. Every setting has a default.
-/

namespace LightLink

/-- Settings of the serial link. -/
structure SerialSettings where
  device : Option (List Char) := none
  baud : UInt32 := 57600
  readyTimeoutMs : UInt64 := 10000
  ackTimeoutMs : UInt64 := 10000
  deriving DecidableEq, Repr

/-- Settings of the relay. -/
structure RelaySettings where
  address : List Char := "127.0.0.1".toList
  port : UInt16 := 6000
  dataWaitMs : UInt64 := 250
  deriving DecidableEq, Repr

/-- Settings of the scanner; the last address is not scanned. -/
structure ScannerSettings where
  enabled : Bool := false
  firstAddress : UInt16 := 120
  lastAddress : UInt16 := 150
  scanPeriodSecs : UInt64 := 60
  addressPeriodMs : UInt64 := 250
  deriving DecidableEq, Repr

/-- The settings of a server. -/
structure Settings where
  serial : SerialSettings := {}
  relay : RelaySettings := {}
  scanner : ScannerSettings := {}
  deriving DecidableEq, Repr

/-- Why no configuration follows from settings, or none could be loaded. -/
inductive SettingsError where
  /-- The file cannot be read. -/
  | io
  /-- The file does not hold settings. -/
  | parse
  | invalidAddress (written : List Char)
  | emptyScanRange (first last : UInt16)
  deriving DecidableEq, Repr

/-- The wording of an error. -/
def SettingsError.message : SettingsError → String
  | io => "I/O error accessing config"
  | parse => "failed to parse config"
  | invalidAddress written => "invalid relay address '" ++ String.ofList written ++ "'"
  | emptyScanRange first last => s!"scanner range {first.toNat}..{last.toNat} is empty"

namespace Settings

/-- The configuration of sessions. -/
def sessionConfig (s : Settings) : SessionConfig :=
  { readyTimeout := millis s.serial.readyTimeoutMs.toNat
    ackTimeout := millis s.serial.ackTimeoutMs.toNat
    dataWait := millis s.relay.dataWaitMs.toNat }

/-- The configuration of the relay. -/
def relayConfig (s : Settings) : Except SettingsError Relay.Config :=
  match IpAddress.parse? s.relay.address with
  | none => .error (.invalidAddress s.relay.address)
  | some address =>
    .ok {
      endpoint := ⟨address, s.relay.port⟩
      dataWait := millis s.relay.dataWaitMs.toNat
      ackTimeout := millis s.serial.ackTimeoutMs.toNat }

/-- The configuration of the scanner. -/
def scanConfig (s : Settings) : Except SettingsError ScanConfig :=
  if s.scanner.lastAddress ≤ s.scanner.firstAddress then
    .error (.emptyScanRange s.scanner.firstAddress s.scanner.lastAddress)
  else
    .ok {
      scanPeriod := seconds s.scanner.scanPeriodSecs.toNat
      addressPeriod := millis s.scanner.addressPeriodMs.toNat
      first := s.scanner.firstAddress
      limit := s.scanner.lastAddress
      dataWait := millis s.relay.dataWaitMs.toNat
      ackTimeout := millis s.serial.ackTimeoutMs.toNat }

end Settings

end LightLink
