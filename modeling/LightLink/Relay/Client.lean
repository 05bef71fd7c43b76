import LightLink.Device.Fault
import LightLink.Message.Codec
import LightLink.Message.Command
import LightLink.Message.Response
import LightLink.Net.Address
import LightLink.Relay.Item
import LightLink.Text.Span

/-!
# Clients of a relay

A client sends messages through a relay. A message is acknowledged once the module has confirmed it.
What modules reply is not pushed: the client asks for it, one frame at a time, until a frame comes
without the mark that more follows, nothing is left, or there are as many as it takes.

A `Channel` is the client's side of the stream: a clock, what has come, what is still to come with
its time, and the relay. Only the wait for an acknowledgement is bounded; any other wait for a relay
that never answers has no end (`Stop.forever`).

* `Channel.receive`: the next item;
* `Client.sendAndAck`: a message, its acknowledgement and the frames that answer it.
-/

namespace LightLink.Relay

/-- How a client reaches its relay and how long it waits. -/
structure ClientConfig where
  endpoint : Endpoint := .local 6000
  ackTimeout : Nat := seconds 15
  /-- The most frames of an answer. -/
  maxFragments : Nat := 64
  deriving DecidableEq, Repr

/-- How the stream to a relay was lost. -/
inductive StreamLoss where
  | closed
  | failed (cause : Fault)
  deriving DecidableEq, Repr

/-- The wording of a loss. -/
def StreamLoss.message : StreamLoss → String
  | closed => "relay closed the connection"
  | failed cause => cause.text

/-- Why a client's operation failed. -/
inductive ClientError where
  | connectFailed (endpoint : Endpoint) (cause : Fault)
  | linkLost (cause : StreamLoss)
  | ackTimeout (timeout : Nat)
  | protocol (cause : WireError)
  deriving DecidableEq, Repr

/-- The wording of an error. -/
def ClientError.message : ClientError → String
  | connectFailed endpoint cause =>
    s!"failed to connect to relay at {endpoint.text}: {cause.text}"
  | linkLost cause => s!"link to relay lost: {cause.message}"
  | ackTimeout timeout => s!"no acknowledgement from relay within {Span.text timeout}"
  | protocol cause => s!"protocol error: {cause.message}"

/-- Why an operation has no result: it failed, or it waits for something that never comes. -/
inductive Stop where
  | failed (cause : ClientError)
  | forever
  deriving DecidableEq, Repr

/-! ## Channels -/

/-- What a read of the stream yields. -/
inductive Incoming where
  | bytes (bytes : Bytes)
  | lost (cause : StreamLoss)
  deriving DecidableEq, Repr

/-- How many bytes come. -/
def Incoming.load : Incoming → Nat
  | bytes bs => bs.length
  | lost _ => 0

/-- A relay at the far end of a stream. -/
class RelayEnd (τ : Type) where
  /-- It is written to. -/
  write : τ → Bytes → Except Fault Unit × τ
  /-- What it sends now: what successive reads yield, and after which time. -/
  send : τ → List (Nat × Incoming) × τ

/-- The client's side of a stream. -/
structure Channel (τ : Type) where
  now : Nat := 0
  decoder : ItemDecoder := {}
  coming : List (Nat × Incoming) := []
  far : τ

namespace Channel

variable {τ : Type}

/-- How many bytes can come. -/
def comingLoad : List (Nat × Incoming) → Nat
  | [] => 0
  | c :: rest => c.2.load + comingLoad rest

/-- How many bytes have come or can still come of what has been sent. -/
def load (c : Channel τ) : Nat := c.decoder.buffered + comingLoad c.coming

/-- Why no item came: the wait is over, it has no end, the stream is lost, or what has come is not
in items. -/
inductive Failure where
  | timeUp
  | forever
  | lost (cause : StreamLoss)
  | badFraming (cause : WireError)
  deriving DecidableEq, Repr

/-- The next item that comes to a decoder, read from what is coming until `deadline`, if there is
one. A stream that is lost stays lost. -/
def receiveFrom (deadline : Option Nat) (now : Nat) (d : ItemDecoder) :
    List (Nat × Incoming) → Except Failure Item × Nat × ItemDecoder × List (Nat × Incoming)
  | [] =>
    match d.next with
    | (.error e, _) => (.error (.badFraming e), now, d, [])
    | (.ok (some item), d) => (.ok item, now, d, [])
    | (.ok none, d) =>
      match deadline with
      | some t => (.error .timeUp, max now t, d, [])
      | none => (.error .forever, now, d, [])
  | (t, x) :: rest =>
    match d.next with
    | (.error e, _) => (.error (.badFraming e), now, d, (t, x) :: rest)
    | (.ok (some item), d) => (.ok item, now, d, (t, x) :: rest)
    | (.ok none, d) =>
      if deadline.any (· < t) then (.error .timeUp, max now (deadline.getD now), d, (t, x) :: rest)
      else
        match x with
        | .bytes bs => receiveFrom deadline (max now t) (d.push bs) rest
        | .lost cause => (.error (.lost cause), max now t, d, (t, x) :: rest)

/-- The next item. -/
def receive (deadline : Option Nat) (c : Channel τ) : Except Failure Item × Channel τ :=
  let (item, now, decoder, coming) := receiveFrom deadline c.now c.decoder c.coming
  (item, { c with now, decoder, coming })

theorem load_receiveFrom {deadline : Option Nat} {now now' : Nat} {d d' : ItemDecoder}
    {coming coming' : List (Nat × Incoming)} {item : Item}
    (h : receiveFrom deadline now d coming = (.ok item, now', d', coming')) :
    d'.buffered + comingLoad coming' <
      d.buffered + comingLoad coming := by
  induction coming generalizing now d with
  | nil =>
    unfold receiveFrom at h
    split at h
    · cases h
    · rename_i next
      cases h
      simpa using ItemDecoder.buffered_next_lt next
    · split at h <;> cases h
  | cons c rest ih =>
    obtain ⟨t, x⟩ := c
    unfold receiveFrom at h
    split at h
    · cases h
    · rename_i next
      cases h
      have := ItemDecoder.buffered_next_lt next
      simp only [comingLoad]
      omega
    · rename_i d₁ next
      have same := ItemDecoder.next_none next
      subst same
      split at h
      · cases h
      · cases x with
        | lost cause => cases h
        | bytes bs =>
          have := ih h
          simp only [ItemDecoder.buffered_push, comingLoad, Incoming.load] at *
          omega

/-- An item that has come can not come again. -/
theorem load_receive {deadline : Option Nat} {c c' : Channel τ} {item : Item}
    (h : c.receive deadline = (.ok item, c')) : c'.load < c.load := by
  unfold receive at h
  cases r : receiveFrom deadline c.now c.decoder c.coming with
  | mk item' rest =>
    obtain ⟨now, d, coming⟩ := rest
    rw [r] at h
    cases h
    exact load_receiveFrom r

/-- Lets the relay send what it has to send. It comes behind all that the relay has sent before. -/
def exchange [RelayEnd τ] (c : Channel τ) : Channel τ :=
  let (sent, far) := RelayEnd.send c.far
  let sent := sent.map fun s => (c.now + s.1, s.2)
  { c with far, coming := c.coming ++ sent }

/-- A stream to a relay that has just been opened. -/
def connect [RelayEnd τ] (far : τ) : Channel τ := exchange { far }

/-- Sends bytes to the relay. -/
def write [RelayEnd τ] (c : Channel τ) (bytes : Bytes) : Except Fault Unit × Channel τ :=
  let (outcome, far) := RelayEnd.write c.far bytes
  (outcome, exchange { c with far })

end Channel

/-! ## Clients -/

/-- A client and its stream. -/
structure Client (τ : Type) where
  config : ClientConfig
  channel : Channel τ

/-- What a client does: it changes the client, also where it fails. -/
abbrev Request (τ α : Type) := ExceptT Stop (StateM (Client τ)) α

namespace Client

variable {τ : Type}

/-- Why an operation stops where no item came. -/
def stopOf (timeout : Nat) : Channel.Failure → Stop
  | .timeUp => .failed (.ackTimeout timeout)
  | .forever => .forever
  | .lost cause => .failed (.linkLost cause)
  | .badFraming cause => .failed (.protocol cause)

/-- The next item, waited for until `deadline`, if there is one. -/
def receiveUntil (deadline : Option Nat) : Request τ Item := fun k =>
  let (item, channel) := k.channel.receive deadline
  (item.mapError (stopOf k.config.ackTimeout), { k with channel })

/-- The next item. -/
def receive : Request τ Item := receiveUntil none

/-- Whether the next item is an acknowledgement. -/
def receiveAck : Request τ Bool := do pure ((← receive).isToken ackToken)

/-- Drops items up to an acknowledgement, or fails at `deadline`. -/
def awaitAckUntil (deadline : Nat) (k : Client τ) : Except Stop Unit × Client τ :=
  match _received : k.channel.receive (some deadline) with
  | (.error e, channel) => (.error (stopOf k.config.ackTimeout e), { k with channel })
  | (.ok item, channel) =>
    if item.isToken ackToken then (.ok (), { k with channel })
    else awaitAckUntil deadline { k with channel }
termination_by k.channel.load
decreasing_by exact Channel.load_receive _received

/-- Waits for an acknowledgement. -/
def awaitAck : Request τ Unit := fun k =>
  awaitAckUntil (k.channel.now + k.config.ackTimeout) k

variable [RelayEnd τ]

/-- Sends an item. -/
def send (bytes : Bytes) : Request τ Unit := fun k =>
  match encodeItem bytes with
  | .error e => (.error (.failed (.protocol e)), k)
  | .ok framed =>
    let (outcome, channel) := k.channel.write framed
    (outcome.mapError fun f => .failed (.linkLost (.failed f)), { k with channel })

/-- Asks for a frame that a module has sent. -/
def requestData : Request τ (Option Bytes) := do
  send dataToken
  pure (← receive).toOption

/-- The frame says that another part of the same answer follows. -/
def hasMore (fragment : Bytes) : Bool :=
  match MessageHeader.decode fragment with
  | .ok (header, _) => header.flags.contains .moreData
  | .error _ => false

/-- Collects the parts of an answer, at most so many. -/
def collect : (most : Nat) → Request τ (List Bytes)
  | 0 => pure []
  | most + 1 => do
    match ← requestData with
    | none => pure []
    | some fragment =>
      if hasMore fragment then do
        let rest ← collect most
        pure (fragment :: rest)
      else pure [fragment]

/-- Sends a message, waits for its acknowledgement and collects the answer, if one is expected. -/
def sendAndAck (m : Message) (expectResponse : Bool) : Request τ (List Bytes) := do
  match m.encode with
  | .error e => throw (.failed (.protocol e))
  | .ok bytes =>
    send bytes
    awaitAck
    if expectResponse then collect (← get).config.maxFragments else pure []

/-- Gives a command to the module at an address. -/
def command (c : Command) (address : UInt16) : Request τ (List Bytes) :=
  sendAndAck (c.toMessage address) c.expectsResponse

/-- Asks the relay to stop. -/
def sendExit : Request τ Unit := do
  send exitToken
  awaitAck

end Client

end LightLink.Relay
