import LightLink.Net.Address
import LightLink.Relay.Item
import LightLink.Session.Basic

/-!
# The relay

A relay lets one client at a time use a session. It handles the items that the client sends one
after the other:

    exit            is acknowledged and ends the relay
    data            is answered with the next binary frame of the module, or with nothing
    anything else   is sent to the module and acknowledged once the module has confirmed it

Whatever goes wrong on the client's side ends its connection only; whatever goes wrong on the
module's side ends the relay.

* `handleItem`: what one item leads to;
* `Connection.receive`: more of what a client sends;
* `Relay.run`: one connection after the other.
-/

namespace LightLink.Relay

/-- How a relay listens and waits. -/
structure Config where
  endpoint : Endpoint := .local 6000
  /-- How long a request for data waits for a frame. -/
  dataWait : Nat := millis 250
  ackTimeout : Nat := seconds 10
  deriving DecidableEq, Repr

/-- Why a relay failed. -/
inductive RelayError where
  | bindFailed (endpoint : Endpoint) (cause : Fault)
  | acceptFailed (cause : Fault)
  | transport (cause : TransportError)
  | encode (cause : WireError)
  deriving DecidableEq, Repr

/-- The wording of an error. -/
def RelayError.message : RelayError → String
  | bindFailed endpoint cause => s!"bind failed on {endpoint.text}: {cause.text}"
  | acceptFailed cause => s!"accept failed: {cause.text}"
  | transport cause => s!"transport failure: {cause.message}"
  | encode cause => s!"could not frame reply: {cause.message}"

/-- What a relay is doing. -/
inductive Phase where
  | listening
  | connected
  | closed
  deriving DecidableEq, Repr

/-- How a client was lost. -/
inductive ClientLoss where
  | peerClosed
  | readFailed (cause : Fault)
  | badFraming (cause : WireError)
  | emptyItem
  | writeFailed (cause : Fault)
  deriving DecidableEq, Repr

/-- How a connection ended. -/
inductive ConnectionEnd where
  /-- The client asked the relay to stop. -/
  | exit
  | lost (cause : ClientLoss)
  | failed (cause : RelayError)
  deriving DecidableEq, Repr

/-! ## Items -/

/-- What an item leads to: a reply, or the end of the connection, or, if the client asked the relay
to stop, both. -/
structure Outcome where
  reply : Option Bytes := none
  ended : Option ConnectionEnd := none
  deriving DecidableEq, Repr

namespace Outcome

/-- The client gets an item. -/
def answer (bytes : Bytes) : Outcome := { reply := some bytes }

/-- The connection ends without a reply. -/
def stop (e : ConnectionEnd) : Outcome := { ended := some e }

/-- The session failed. -/
def failed (e : TransportError) : Outcome := stop (.failed (.transport e))

end Outcome

variable {σ : Type} [FarEnd σ]

/-- Answers a request for data; no frame is answered by an item without bytes. -/
def handleData (c : Config) : StateM (Session σ) Outcome := do
  match ← (Session.getDataMessage c.dataWait).run with
  | .ok frame => pure (.answer ((frame.map Frame.data).getD []))
  | .error e => pure (.failed e)

/-- Passes bytes on to the module. -/
def forward (c : Config) (bytes : Bytes) : StateM (Session σ) Outcome := do
  match ← (Session.sendAndConfirm bytes false c.ackTimeout).run with
  | .ok () => pure (.answer ackToken)
  | .error e => pure (.failed e)

/-- Handles an item. -/
def handleItem (c : Config) : Item → StateM (Session σ) Outcome
  | .empty => pure (.stop (.lost .emptyItem))
  | .bytes bytes =>
    if bytes = exitToken then pure { reply := some ackToken, ended := some .exit }
    else if bytes = dataToken then handleData c
    else forward c bytes

/-! ## Connections -/

/-- An item that has been handled, and the reply that the client was sent. -/
structure Handled where
  item : Item
  reply : Option Bytes
  deriving DecidableEq, Repr

/-- The relay's side of a connection. -/
structure Connection where
  decoder : ItemDecoder := {}
  /-- How many more replies the client takes before writing to it fails; none: all of them. -/
  room : Option (Nat × Fault) := none
  /-- How the connection ended, once it has. -/
  ended : Option ConnectionEnd := none
  deriving DecidableEq, Repr

namespace Connection

/-- Sends the client a reply, unless it takes no more. -/
def sendReply (k : Connection) (reply : Bytes) : Option Bytes × Connection :=
  match encodeItem reply with
  | .error e => (none, { k with ended := some (.failed (.encode e)) })
  | .ok _ =>
    match k.room with
    | none => (some reply, k)
    | some (n + 1, cause) => (some reply, { k with room := some (n, cause) })
    | some (0, cause) => (none, { k with ended := some (.lost (.writeFailed cause)) })

/-- The connection after what an item led to. A reply that cannot be sent ends it; where it ends
anyway, that is how. -/
def settle (k : Connection) (o : Outcome) : Option Bytes × Connection :=
  match o.reply, o.ended with
  | none, ended => (none, { k with ended })
  | some reply, none => k.sendReply reply
  | some reply, some e => ((k.sendReply reply).1, { (k.sendReply reply).2 with ended := some e })

/-- Handles the items that have come as a whole, one after the other, until the connection ends. -/
def work (c : Config) (k : Connection) : StateM (Session σ) (List Handled × Connection) :=
  match _next : k.decoder.next with
  | (.error e, _) => pure ([], { k with ended := some (.lost (.badFraming e)) })
  | (.ok none, _) => pure ([], k)
  | (.ok (some item), decoder) => do
    let outcome ← handleItem c item
    match settle { k with decoder } outcome with
    | (reply, ⟨_, room, none⟩) => do
      let (rest, k') ← work c { decoder, room, ended := none }
      pure (⟨item, reply⟩ :: rest, k')
    | (reply, k') => pure ([⟨item, reply⟩], k')
termination_by k.decoder.buffered
decreasing_by exact ItemDecoder.buffered_next_lt _next

/-- More of what the client sends. Nothing is read from a connection that has ended. -/
def receive (c : Config) (k : Connection) (bytes : Bytes) :
    StateM (Session σ) (List Handled × Connection) :=
  if k.ended.isSome then pure ([], k) else work c { k with decoder := k.decoder.push bytes }

/-- More of what the client sends, in the pieces in which it is read. -/
def receiveAll (c : Config) (k : Connection) : List Bytes →
    StateM (Session σ) (List Handled × Connection)
  | [] => pure ([], k)
  | piece :: pieces => do
    let (handled, k) ← receive c k piece
    let (rest, k) ← receiveAll c k pieces
    pure (handled ++ rest, k)

end Connection

/-! ## The life of a relay -/

/-- What a client does on a connection: the pieces in which what it sends is read, how its sending
ends, and how many replies it takes. -/
structure Visit where
  pieces : List Bytes
  ending : ClientLoss := .peerClosed
  room : Option (Nat × Fault) := none
  deriving DecidableEq, Repr

/-- Serves a client: what was handled, and how the connection ended. -/
def serve (c : Config) (client : Visit) : StateM (Session σ) (List Handled × ConnectionEnd) := do
  let (handled, k) ← Connection.receiveAll c { room := client.room } client.pieces
  pure (handled, k.ended.getD (.lost client.ending))

/-- What a relay did: the phases it went through, what it handled on each connection, and how it
ended, if it has. -/
structure Run where
  phases : List Phase
  handled : List (List Handled)
  ended : Option (Except RelayError Unit)

/-- Serves clients one after the other, or fails to accept one. -/
def run (c : Config) : List (Except Fault Visit) → StateM (Session σ) Run
  | [] => pure ⟨[.listening], [], none⟩
  | .error cause :: _ => pure ⟨[.listening, .closed], [], some (.error (.acceptFailed cause))⟩
  | .ok client :: clients => do
    match ← serve c client with
    | (handled, .exit) => pure ⟨[.listening, .connected, .closed], [handled], some (.ok ())⟩
    | (handled, .failed e) => pure ⟨[.listening, .connected, .closed], [handled], some (.error e)⟩
    | (handled, .lost _) => do
      let rest ← run c clients
      pure ⟨.listening :: .connected :: rest.phases, handled :: rest.handled, rest.ended⟩

end LightLink.Relay
