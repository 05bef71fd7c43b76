import LightLink.Config.Module
import LightLink.Session.Basic

/-!
# Setting up a module

A module that is attached directly is set up by text commands and configuration records. Each of
them is sent with a terminator and has to be confirmed before the next one is sent. A plan is the
list of payloads:

    a whole configuration    start, its records, end
    one setting              read, start, its record, end

`read` loads what the module has stored, so that one setting leaves the others as they were. Nothing
is stored before `write`.
-/

namespace LightLink

namespace Upload

/-- The payload of a text command. -/
def command (token : String) : Bytes := Utf8.ofString token

/-- Records between the commands that begin and end them. -/
def bracket (records : List ConfigRecord) : List Bytes :=
  command Token.start :: records.map Wire.encode ++ [command Token.finish]

/-- Stores what was set up. -/
def persistPlan : List Bytes := [command Token.write]

/-- Sets up a whole module and stores that if `persist` is set. -/
def configPlan (c : ModuleConfig) (persist : Bool) : List Bytes :=
  bracket c.toRecords ++ if persist then persistPlan else []

/-- Changes one setting. -/
def settingPlan (r : ConfigRecord) : List Bytes := command Token.read :: bracket [r]

/-- Loads what a module has stored. -/
def readPlan : List Bytes := [command Token.read]

/-- Has a module print its set-up. -/
def printPlan : List Bytes := [command Token.print]

end Upload

namespace Session

variable {σ : Type} [FarEnd σ]

/-- Sends the payloads of a plan up to the first that is not confirmed. -/
def sendPlan : List Bytes → Exchange σ Unit
  | [] => pure ()
  | payload :: rest => do
    sendTerminated payload
    sendPlan rest

/-- Sets up a module. -/
def upload (c : ModuleConfig) (persist : Bool) : Exchange σ Unit :=
  sendPlan (Upload.configPlan c persist)

/-- Gives a module another address. -/
def setAddress (address : UInt16) : Exchange σ Unit :=
  sendPlan (Upload.settingPlan (.address address))

/-- Gives a module another device id. -/
def setDeviceId (deviceId : UInt16) : Exchange σ Unit :=
  sendPlan (Upload.settingPlan (.deviceId deviceId))

/-- Gives a module another baud rate. -/
def setBaud (baud : Baud) : Exchange σ Unit := sendPlan (Upload.settingPlan (.baud baud))

/-- Has a module load what it has stored. -/
def readStored : Exchange σ Unit := sendPlan Upload.readPlan

/-- Has a module print its set-up. -/
def printConfig : Exchange σ Unit := sendPlan Upload.printPlan

/-- Has a module store its set-up. -/
def persist : Exchange σ Unit := sendPlan Upload.persistPlan

end Session

end LightLink
