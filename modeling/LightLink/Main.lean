import LightLink.CommandLine.Send
import LightLink.CommandLine.Serve

/-!
# The command line

`send` gives one command to modules through a relay, `serve` relays clients to a module or sets it
up. This layer reads files and the environment and writes what a run leaves behind. It opens no
network stream and no serial port: to a program run from here, relays and modules are out of reach.
-/

namespace LightLink.CommandLine

/-- The switches that the environment gives, by the variables that stand for them. -/
def environment (names : List (String × String)) : IO (List (String × String)) := do
  let found ← names.mapM fun v => do pure ((← IO.getEnv v.1).map (v.2, ·))
  pure (found.filterMap id)

/-- What a path leads to. -/
def readFile (path : String) : IO Settings.File := do
  try
    pure (.holds (← IO.FS.readBinFile path).toList)
  catch
    | .noFileOrDirectory .. => pure .missing
    | _ => pure .unreadable

/-- Does what is to be done, as far as that is possible without a module. -/
def carryOut : Serve.Job → IO Run
  | .write path text => do
    try
      IO.FS.writeFile path text
      pure (.done [])
    catch _ => pure (.failed (Serve.Failure.writing path).message)
  | _ => pure (.failed Serve.Failure.notConnected.message)

/-- Runs the program that serves a module. -/
def serve (arguments : List String) : IO Run := do
  match Serve.parse (← environment Serve.environmentSwitches) arguments with
  | .error stop => pure (.stopped Serve.about Serve.version stop)
  | .ok i =>
    let files ← i.paths.mapM fun path => do pure (path, ← readFile path)
    match Serve.plan i fun path => (files.lookup path).getD .missing with
    | .error e => pure (.failed e.message)
    | .ok job => carryOut job

/-- Runs the program that sends a command. -/
def send (arguments : List String) : IO Run := do
  let cause : Fault := ⟨.other "ConnectionRefused", "Connection refused"⟩
  pure (Send.runOffline (← environment Send.environmentSwitches) arguments cause)

/-- Writes what a run leaves behind, and gives its exit code. -/
def report (run : Run) : IO UInt32 := do
  (← IO.getStdout).putStr run.output
  for line in run.error do
    (← IO.getStderr).putStrLn line
  pure (UInt32.ofNat (run.exit.getD 0))

/-- Runs the program that the first argument names. -/
def dispatch : List String → IO UInt32
  | "send" :: rest => do report (← send rest)
  | "serve" :: rest => do report (← serve rest)
  | _ => report (.stopped "Usage: lightlink send | serve" "" .usage)

end LightLink.CommandLine

/-- Runs a command line. -/
def main (arguments : List String) : IO UInt32 := LightLink.CommandLine.dispatch arguments
