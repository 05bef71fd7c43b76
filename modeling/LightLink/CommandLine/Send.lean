import LightLink.CommandLine.Run
import LightLink.Message.ColourText
import LightLink.Message.Outline
import LightLink.Relay.Client

/-!
# Sending a command

The program that gives one command to modules through a relay and shows what they answer.

* `Send.parse`: the order that a command line gives;
* `Send.run`: the whole program.
-/

namespace LightLink.CommandLine

namespace Send

/-- What every command is sent with. -/
structure Options where
  server : Endpoint := .local 6000
  address : UInt16 := broadcastAddress
  output : UInt8 := allOutputs
  ackTimeout : Nat := seconds 15
  deriving DecidableEq, Repr

/-- What is asked of the relay. -/
inductive Order where
  | command (command : Command)
  /-- It is told to stop. -/
  | exit
  deriving DecidableEq, Repr

/-! ## The command line -/

/-- The colour that a text gives. -/
def colour? (text : String) : Option Colour := (Colour.parse text.toList).toOption

/-- What comes in front of a command. -/
def options : Grammar Options where
  leads := true
  switches := [
    .valued "server" 's' (fun text => Endpoint.parse? text.toList)
      fun v o => { o with server := v },
    .valued "address" 'A' word? fun v o => { o with address := v },
    .valued "output" 'o' byte? fun v o => { o with output := v },
    .valued "ack-timeout" none count? fun v o => { o with ackTimeout := seconds v },
    Grammar.versionSwitch]

/-- The variables of the environment that stand for switches. -/
def environmentSwitches : List (String × String) := [("HMTL_SERVER", "server")]

/-- Two colours in turn. -/
structure Blink where
  onPeriod : UInt16 := 500
  on : Colour := ⟨255, 255, 255⟩
  offPeriod : UInt16 := 500
  off : Colour := ⟨0, 0, 0⟩

/-- What a blinking light is told. -/
def blink : Grammar Blink where
  switches := [
    .valued "on-period" none word? fun v o => { o with onPeriod := v },
    .valued "on" none colour? fun v o => { o with on := v },
    .valued "off-period" none word? fun v o => { o with offPeriod := v },
    .valued "off" none colour? fun v o => { o with off := v }]

/-- A change from one colour to another. -/
structure Change where
  period : UInt32 := 1000
  start : Colour := ⟨0, 0, 0⟩
  stop : Colour := ⟨0, 0, 0⟩
  flags : UInt8 := 0

/-- What a changing light is told; both colours have to be given. -/
def change : Grammar Change where
  switches := [
    .valued "period" none long? fun v o => { o with period := v },
    { Switch.valued "start" none colour? (fun v o => { o with start := v }) with required := true },
    { Switch.valued "stop" none colour? (fun v o => { o with stop := v }) with required := true }]

/-- What a fading light is told. -/
def fade : Grammar Change where
  switches := change.switches ++ [.valued "flags" none byte? fun v o => { o with flags := v }]

/-- A module and its new address. -/
structure Move where
  deviceId : UInt16 := 0
  newAddress : UInt16 := 0

/-- What a module is told that gets another address. -/
def move : Grammar Move where
  operands := [
    .valued word? fun v o => { o with deviceId := v },
    .valued word? fun v o => { o with newAddress := v }]

/-- What an output is told that is set to a value. -/
def value : Grammar Int16 where
  operands := [.valued signed? fun v _ => v]
  hyphens := true

/-- What an output is told that is set to a colour. -/
def colour : Grammar Colour where
  operands := [.valued colour? fun v _ => v]

/-- A command without arguments. -/
def bare (name : String) (order : UInt8 → Order) : Subcommand (UInt8 → Order) :=
  .of name {} () fun () => order

/-- The commands; each is still to be told the output. -/
def commands : List (Subcommand (UInt8 → Order)) := [
  .of "value" value 0 fun v output => .command (.value output v),
  .of "rgb" colour ⟨0, 0, 0⟩ fun c output => .command (.rgb output c),
  .of "blink" blink {} fun b output =>
    .command (.blink output b.onPeriod b.on b.offPeriod b.off),
  .of "timed-change" change {} fun c output =>
    .command (.timedChange output c.period c.start c.stop),
  .of "fade" fade {} fun c output => .command (.fade output c.period c.start c.stop c.flags),
  bare "none" fun output => .command (.noProgram output),
  bare "poll" fun _ => .command .poll,
  .of "set-address" move {} fun m _ => .command (.setAddress m.deviceId m.newAddress),
  bare "dump-config" fun _ => .command .dumpConfig,
  bare "exit" fun _ => .exit]

/-- The order that a command line gives. What it leaves open may come from an environment, which
lists switches and their values. -/
def parse (environment : List (String × String)) (arguments : List String) :
    Except Stop (Options × Order) := do
  let (o, given, rest) ← options.read {} arguments
  let order ← choose commands rest
  let o ← options.fromEnvironment environment given o
  pure (o, order o.output)

/-! ## Carrying it out -/

/-- Why an order was not carried out. -/
inductive Failure where
  | exitUnacknowledged
  | unacknowledged
  | undecodable (cause : WireError)
  deriving DecidableEq, Repr

/-- The wording of a failure. -/
def Failure.message : Failure → String
  | exitUnacknowledged => "relay did not acknowledge exit"
  | unacknowledged => "command was not acknowledged"
  | undecodable _ => "could not decode response"

/-- The lines that show an answer. -/
def report : Response → List String
  | .modules is => Identity.tableHeader :: is.map Identity.tableRow
  | .config c => c.header.outline.lines ++ c.outputs.map (·.outline.line)
  | .other [] => ["no response"]
  | .other ms => ms.map (·.outline.line)

variable {τ : Type} [Relay.RelayEnd τ]

/-- The run of a program whose request to a relay ended like this. -/
def finish {α : Type} (failure : Failure) (done : α → Run) : Except Relay.Stop α → Run
  | .ok a => done a
  | .error .forever => .endless
  | .error (.failed _) => .failed failure.message

/-- Shows the answer to a command, if one is expected. -/
def shown (c : Command) (fragments : List Bytes) : Run :=
  if c.expectsResponse then
    match Response.ofFragments fragments with
    | .ok r => .done (report r)
    | .error e => .failed (Failure.undecodable e).message
  else .done []

/-- Carries out an order. -/
def perform (address : UInt16) (k : Relay.Client τ) : Order → Run × Relay.Client τ
  | .exit =>
    let (r, k) := Relay.Client.sendExit.run k
    (finish .exitUnacknowledged (fun () => .done []) r, k)
  | .command c =>
    let (r, k) := (Relay.Client.command c address).run k
    (finish .unacknowledged (shown c) r, k)

/-- How the program is used. -/
def about : String :=
  "Usage: hmtl-send [OPTIONS] <COMMAND>\nCommands: " ++ " ".intercalate (commands.map (·.name))

/-- The program's name and version. -/
def version : String := "hmtl-send 0.1.0"

/-- How a client reaches the relay. -/
def Options.client (o : Options) : Relay.ClientConfig :=
  { endpoint := o.server, ackTimeout := o.ackTimeout }

/-- Runs the program with a relay at the other end of its stream. -/
def run (environment : List (String × String)) (arguments : List String) (far : τ) : Run × τ :=
  match parse environment arguments with
  | .error stop => (.stopped about version stop, far)
  | .ok (o, order) =>
    let (r, k) := perform o.address ⟨o.client, .connect far⟩ order
    (r, k.channel.far)

/-- Runs the program where no stream to a relay can be opened. -/
def runOffline (environment : List (String × String)) (arguments : List String) (cause : Fault) :
    Run :=
  match parse environment arguments with
  | .error stop => .stopped about version stop
  | .ok (o, _) => .failed (Relay.ClientError.connectFailed o.server cause).message

end Send

end LightLink.CommandLine
