import LightLink.Session.Basic

/-!
# A stand-in for modules

A far end without hardware: it answers each write as it has been told to, replies to polls for the
modules it has been told about, and sends whatever else it is asked to send. What it sends at one
time comes as one piece and is followed by a pause.
-/

namespace LightLink

/-- How a stand-in answers what is written to it. -/
inductive Answer where
  | ok
  | fail
  | silent
  deriving DecidableEq, Repr

/-- A stand-in for modules. -/
structure StandIn where
  /-- What it has sent that has not been read. -/
  unread : Bytes := []
  /-- Every payload that has been written to it, the last one first. -/
  log : List Bytes := []
  answer : Answer := .ok
  /-- The modules that reply to polls, by ascending address. -/
  modules : List Identity := []
  /-- What it sends behind its next answers `ok`, one entry each. -/
  queued : List Bytes := []
  /-- Reading and writing fail. -/
  unplugged : Bool := false
  /-- Reading fails. -/
  hung : Bool := false
  deriving DecidableEq, Repr

/-- An identity to try things out with. -/
def sampleIdentity (deviceId address : UInt16) : Identity :=
  ⟨configMagic, 2, 3, ⟨48⟩, 2, 0, deviceId, address, 1, 128, 2⟩

namespace StandIn

/-- The payloads that have been written, first one first. -/
def written (m : StandIn) : List Bytes := m.log.reverse

/-- Sends bytes. -/
def sendBytes (m : StandIn) (bytes : Bytes) : StandIn := { m with unread := m.unread ++ bytes }

/-- The bytes of a line as a module sends it. -/
def lineBytes (text : String) : Bytes := Utf8.ofString text ++ [carriageReturn, lineFeed]

/-- Sends a line of text. -/
def sendLine (m : StandIn) (text : String) : StandIn := m.sendBytes (lineBytes text)

/-- Sends a message, if it can be encoded. -/
def sendMessage (m : StandIn) (message : Message) : StandIn :=
  match message.encode with
  | .ok bytes => m.sendBytes bytes
  | .error _ => m

/-- Adds an identity to a list by address, in place of one with the same address. -/
def insertByAddress (i : Identity) : List Identity → List Identity
  | [] => [i]
  | j :: js =>
    if i.address < j.address then i :: j :: js
    else if i.address = j.address then i :: js
    else j :: insertByAddress i js

/-- From now on replies to polls for this module. -/
def addModule (m : StandIn) (i : Identity) : StandIn :=
  { m with modules := insertByAddress i m.modules }

/-- Replies no more for the module at an address. -/
def removeModule (m : StandIn) (address : UInt16) : StandIn :=
  { m with modules := m.modules.filter (·.address ≠ address) }

/-- Sends bytes behind the next answer `ok` that has none so far. -/
def queue (m : StandIn) (bytes : Bytes) : StandIn := { m with queued := m.queued ++ [bytes] }

/-- The reply of a module to a poll. -/
def pollReply (i : Identity) : Message := ⟨i.address, .response, .pollResponse i⟩

/-- The module replies to a poll of an address. -/
def isPolledAt (i : Identity) (address : UInt16) : Bool :=
  address = broadcastAddress ∨ address = i.address

/-- The bytes of the replies to a payload: if it is a poll, one of each module that it asks. -/
def pollReplies (m : StandIn) (payload : Bytes) : Bytes :=
  match Message.decode payload with
  | .ok (⟨address, _, .pollRequest⟩, _) =>
    (m.modules.filter (isPolledAt · address)).flatMap fun i => (pollReply i).encode.toOption.getD []
  | _ => []

/-- Answers a payload. -/
def reply (m : StandIn) (payload : Bytes) : StandIn :=
  match m.answer with
  | .ok =>
    let m := (m.sendLine Token.ok).sendBytes (m.pollReplies payload)
    { m.sendBytes (m.queued.head?.getD []) with queued := m.queued.tail }
  | .fail => m.sendLine Token.fail
  | .silent => m

/-- The fault of a device that is not there any more. -/
def unpluggedFault : Fault := ⟨.other "BrokenPipe", "fake module unplugged"⟩

instance : FarEnd StandIn where
  write m _ bytes :=
    if m.unplugged then (.error unpluggedFault, m)
    else (.ok (), reply { m with log := bytes :: m.log } bytes)
  send m :=
    if m.unplugged || m.hung then ([(0, .failure)], m)
    else ([(0, .chunk m.unread), (0, .pause)], { m with unread := [] })

end StandIn

end LightLink
