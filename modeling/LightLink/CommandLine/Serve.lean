import LightLink.CommandLine.Run
import LightLink.Config.Document
import LightLink.Session.Upload
import LightLink.Settings.Document

/-!
# Serving a module

The program that is attached to a module: it relays clients to it, or sets it up. It first finds out
all that it needs to know, and only then touches the module or writes a file.

* `Serve.parse`: what a command line asks for;
* `Serve.Invocation.paths`: the files that are to be read;
* `Serve.plan`: what is to be done, once they have been read;
* `Serve.setUp`: how a module is set up.
-/

namespace LightLink.CommandLine

namespace Serve

/-! ## The command line -/

/-- What is common to all tasks. -/
structure Options where
  config : String := "hmtl-server.toml"
  device : Option String := none
  baud : Option UInt32 := none
  deriving DecidableEq, Repr

/-- What the program is to do. -/
inductive Task where
  | relay (address : Option IpAddress) (port : Option UInt16) (scan : Bool)
  | configure (file : String) (address : Option UInt16) (persist : Bool)
  | setAddress (address : UInt16) (persist : Bool)
  | setDeviceId (deviceId : UInt16) (persist : Bool)
  | setBaud (bps : UInt32) (persist : Bool)
  | printConfig
  | initConfig (path : String)
  deriving DecidableEq, Repr

/-- A whole command line. -/
structure Invocation where
  options : Options
  task : Task
  deriving DecidableEq, Repr

/-- What comes in front of a task. -/
def options : Grammar Options where
  leads := true
  switches := [
    .valued "config" 'c' path? fun v o => { o with config := v },
    .valued "device" 'd' some fun v o => { o with device := v },
    .valued "baud" 'b' long? fun v o => { o with baud := v },
    Grammar.versionSwitch]

/-- The variables of the environment that stand for switches. -/
def environmentSwitches : List (String × String) :=
  [("HMTL_CONFIG", "config"), ("HMTL_DEVICE", "device"), ("HMTL_BAUD", "baud")]

/-- Where a relay listens, and whether it scans. -/
structure Listening where
  address : Option IpAddress := none
  port : Option UInt16 := none
  scan : Bool := false

/-- What a relay is told. -/
def listening : Grammar Listening where
  switches := [
    .valued "address" 'a' (fun text => IpAddress.parse? text.toList)
      fun v o => { o with address := v },
    .valued "port" 'p' word? fun v o => { o with port := v },
    { name := "scan", effect := .flag fun o => { o with scan := true } }]

/-- A file, and what changes in it. -/
structure Configuring where
  file : String := ""
  address : Option UInt16 := none
  persist : Bool := false

/-- What is told whoever sets up a whole module. -/
def configuring : Grammar Configuring where
  operands := [.valued path? fun v o => { o with file := v }]
  switches := [
    .valued "address" none word? fun v o => { o with address := v },
    { name := "write", letter := 'w', effect := .flag fun o => { o with persist := true } }]

/-- A setting, and whether it is stored. -/
structure Setting (α : Type) where
  value : α
  persist : Bool := false

/-- What is told whoever changes one setting. -/
def setting {α : Type} (read? : String → Option α) : Grammar (Setting α) where
  operands := [.valued read? fun v o => { o with value := v }]
  switches := [
    { name := "write", letter := 'w', effect := .flag fun o => { o with persist := true } }]

/-- A file's path. -/
def file : Grammar String where
  operands := [.valued path? fun v _ => v]

/-- The tasks. -/
def tasks : List (Subcommand Task) := [
  .of "relay" listening {} fun o => .relay o.address o.port o.scan,
  .of "configure" configuring {} fun o => .configure o.file o.address o.persist,
  .of "set-address" (setting word?) ⟨0, false⟩ fun o => .setAddress o.value o.persist,
  .of "set-device-id" (setting word?) ⟨0, false⟩ fun o => .setDeviceId o.value o.persist,
  .of "set-baud" (setting long?) ⟨0, false⟩ fun o => .setBaud o.value o.persist,
  .of "print-config" {} () fun () => .printConfig,
  .of "init-config" file "" .initConfig]

/-- What a command line asks for; without a task, to relay clients. -/
def parse (environment : List (String × String)) (arguments : List String) :
    Except Stop Invocation := do
  let (o, given, rest) ← options.read {} arguments
  let task ← if rest.isEmpty then pure (.relay none none false) else choose tasks rest
  let o ← options.fromEnvironment environment given o
  pure ⟨o, task⟩

/-- How the program is used. -/
def about : String :=
  "Usage: hmtl-server [OPTIONS] [COMMAND]\nCommands: " ++ " ".intercalate (tasks.map (·.name))

/-- The program's name and version. -/
def version : String := "hmtl-server 0.1.0"

/-! ## Planning -/

/-- Why nothing was done, or not all of it. -/
inductive Failure where
  | loading (path : String)
  | reading (path : String)
  | parsing (path : String)
  | badDescription (cause : DescriptionError)
  | badBaud (cause : DescriptionError)
  | badSettings (cause : SettingsError)
  | noDevice
  | notConnected
  | setUp (cause : TransportError)
  | relay (cause : Relay.RelayError)
  | writing (path : String)
  deriving DecidableEq, Repr

/-- The wording of a failure. -/
def Failure.message : Failure → String
  | loading path => "loading " ++ path
  | reading path => "reading " ++ path
  | parsing path => "parsing " ++ path
  | badDescription _ => "invalid module configuration"
  | badBaud cause => cause.message
  | badSettings cause => cause.message
  | noDevice => "no serial device given; use --device or [serial] device"
  | notConnected => "could not connect to module"
  | setUp _ => "configuration failed"
  | relay cause => cause.message
  | writing path => "writing " ++ path

/-- How a module is attached. -/
structure Attachment where
  device : String
  baud : UInt32
  config : SessionConfig
  deriving DecidableEq, Repr

/-- What is to be done. -/
inductive Job where
  /-- A module is sent payloads, each of which has to be confirmed. -/
  | setUp (target : Attachment) (payloads : List Bytes)
  /-- Clients are relayed to a module, which may be scanned meanwhile. -/
  | relay (target : Attachment) (config : Relay.Config) (scan : Option ScanConfig)
  /-- A file is written. -/
  | write (path text : String)
  deriving DecidableEq, Repr

/-- The files that are to be read. -/
def Invocation.paths (i : Invocation) : List String :=
  i.options.config ::
    match i.task with
    | .configure file _ _ => [file]
    | _ => []

/-- The settings of a file as a command line changes them. -/
def Options.apply (o : Options) (s : Settings) : Settings :=
  { s with
    serial.device := (o.device.map String.toList).or s.serial.device
    serial.baud := o.baud.getD s.serial.baud }

/-- How settings say that the module is attached. -/
def attachment (s : Settings) : Except Failure Attachment :=
  match s.serial.device with
  | some device => .ok ⟨String.ofList device, s.serial.baud, s.sessionConfig⟩
  | none => .error .noDevice

/-- Sends a module payloads, with the one that has it store what it was told if `persist` is set. -/
def setUpJob (s : Settings) (payloads : List Bytes) (persist : Bool) : Except Failure Job := do
  pure (.setUp (← attachment s) (payloads ++ if persist then Upload.persistPlan else []))

/-- The configuration that a file describes, with another address if one is given. -/
def description (path : String) (f : Settings.File) (address : Option UInt16) :
    Except Failure ModuleConfig := do
  let .holds bytes := f | .error (.reading path)
  let some cs := Utf8.decode? bytes | .error (.reading path)
  let some d := ModuleDescription.parse? cs | .error (.parsing path)
  (address.elim d d.withAddress).validate.mapError .badDescription

/-- A relay as settings and a command line say. -/
def relayJob (s : Settings) (address : Option IpAddress) (port : Option UInt16) (scan : Bool) :
    Except Failure Job := do
  let relay : RelaySettings :=
    { s.relay with
      address := (address.map (·.text.toList)).getD s.relay.address
      port := port.getD s.relay.port }
  let s := { s with relay, scanner.enabled := s.scanner.enabled || scan }
  let config ← s.relayConfig.mapError .badSettings
  let scan ← if s.scanner.enabled then some <$> s.scanConfig.mapError .badSettings else pure none
  pure (.relay (← attachment s) config scan)

/-- What is to be done, given what the files hold. -/
def plan (i : Invocation) (files : String → Settings.File) : Except Failure Job := do
  let path := i.options.config
  let s := i.options.apply (← (Settings.load (files path)).mapError fun _ => .loading path)
  match i.task with
  | .relay address port scan => relayJob s address port scan
  | .configure file address persist => do
    let c ← description file (files file) address
    setUpJob s (Upload.configPlan c false) persist
  | .setAddress address persist =>
    setUpJob s (Upload.settingPlan (.address address)) persist
  | .setDeviceId deviceId persist =>
    setUpJob s (Upload.settingPlan (.deviceId deviceId)) persist
  | .setBaud bps persist => do
    let b ← (Baud.ofBps bps).mapError .badBaud
    setUpJob s (Upload.settingPlan (.baud b)) persist
  | .printConfig => setUpJob s (Upload.readPlan ++ Upload.printPlan) false
  | .initConfig path => pure (.write path s.render)

/-! ## Carrying it out -/

variable {σ : Type} [FarEnd σ]

/-- Sends a module payloads once it has said that it is ready. -/
def setUp (a : Attachment) (payloads : List Bytes) (far : σ) : Except Failure Unit × Session σ :=
  match Session.waitReady (.attach a.device a.config far) with
  | (.error _, s) => (.error .notConnected, s)
  | (.ok (), s) =>
    let (r, s) := (Session.sendPlan payloads).run s
    (r.mapError .setUp, s)

end Serve

end LightLink.CommandLine
