import LightLink.Proofs.Relay.Turns
import LightLink.Proofs.Session.Ready

/-!
# A client, its relay and a module

What the turns of a client and its relay do when the relay uses a module that answers in turn.

* `Setup`: the parts and how they are set up; `Setup.Sound`: the module is in time and nothing it
  sends is lost;
* `Live`: the state between turns as long as all goes well, with what is left of the module's
  messages; `Dead`: the state once a command was not confirmed;
* `Live.sendAndAck_ok`, `Live.sendAndAck_not_ok`, `Dead.sendAndAck`: one command.
-/

namespace LightLink.Relay

/-! ## The parts -/

/-- A client, its relay, the network between them, and a module that the relay uses. -/
structure Setup where
  client : ClientConfig
  relay : Config
  session : SessionConfig
  network : Network
  /-- How the module answers each write. -/
  reactions : Nat → Reaction

namespace Setup

/-- The client once it has connected. -/
def start (x : Setup) (name : String) : Client (Loopback Responder) :=
  ⟨x.client, .connect
    { config := x.relay
      session := .attach name x.session { reactions := x.reactions }
      network := x.network }⟩

/-- The module is in time, there is room for all that it sends, and the client is patient. -/
structure Sound (x : Setup) : Prop where
  /-- What two answers in a row bring fits the ring. -/
  room : ∀ n, (Responder.packetsBefore x.reactions n).length + (x.reactions n).size ≤
    max x.session.capacity 1
  /-- An `ok` comes before the relay gives up, even behind the messages of the answer before. -/
  prompt : ∀ n, (x.reactions n).answer = .ok →
    Responder.trailingBefore x.reactions n + (x.reactions n).delay < x.relay.ackTimeout
  /-- The client waits for as long as the relay may take to reply. -/
  patient : x.relay.ackTimeout + x.network.latency ≤ x.client.ackTimeout

end Setup

/-! ## Between turns -/

/-- Between turns, as long as all has gone well: what has been written to the module has been
answered `ok`, and these messages are left of the last answer. -/
structure Live (x : Setup) (k : Client (Loopback Responder)) (log : List Bytes)
    (left : List Packet) : Prop extends Calm x.client x.relay x.network k where
  serving : k.channel.far.session.Serving x.reactions (max x.session.capacity 1) log left

/-- Once a command has not been confirmed: nothing more reaches the module, and nothing more comes
than that the stream is closed. -/
structure Dead (k : Client (Loopback Responder)) (log : List Bytes) : Prop where
  decoder : k.channel.decoder = {}
  coming : ∃ t, k.channel.coming = [(t, .lost .closed)]
  ended : k.channel.far.connection.ended.isSome = true
  outgoing : k.channel.far.outgoing = []
  written : k.channel.far.session.link.far.written = log

variable {x : Setup} {k : Client (Loopback Responder)} {log : List Bytes} {left : List Packet}

theorem Live.written (live : Live x k log left) :
    k.channel.far.session.link.far.written = log := live.serving.written

/-- Time has passed at the relay when something comes that the client has written. -/
theorem Live.paused (live : Live x k log left) :
    k.channel.far.paused.Serving x.reactions (max x.session.capacity 1) log left :=
  live.serving.pass _

/-- Of what is left a request for data gets the first message or none. -/
theorem Live.requestData (live : Live x k log left) : ∃ k',
    Client.requestData k = (.ok none, k') ∧ Live x k' log left ∨
      ∃ p ps, left = p :: ps ∧ Client.requestData k = (.ok (some p.bytes), k') ∧
        Live x k' log ps := by
  obtain ⟨s, ⟨taken, serving⟩ | ⟨p, ps, rfl, taken, serving⟩⟩ :=
    live.paused.getDataMessage x.relay.dataWait
  · obtain ⟨k', e, calm, rfl⟩ := live.toCalm.requestData (by decide) (handleData_ok taken)
    exact ⟨k', .inl ⟨e, calm, serving⟩⟩
  · obtain ⟨k', e, calm, rfl⟩ := live.toCalm.requestData_packet (handleData_ok taken)
    exact ⟨k', .inr ⟨p, ps, rfl, e, calm, serving⟩⟩

/-- The parts of an answer are the first messages that are left. -/
theorem Live.collect (live : Live x k log left) (most : Nat) : ∃ fragments k' rest,
    Client.collect most k = (.ok fragments, k') ∧ Live x k' log rest ∧
      left.map Packet.bytes = fragments ++ rest.map Packet.bytes := by
  induction most generalizing k left with
  | zero => exact ⟨[], k, left, rfl, live, rfl⟩
  | succ most ih =>
    rw [Client.collect, Client.request_bind]
    obtain ⟨k₁, ⟨e, live⟩ | ⟨p, ps, rfl, e, live⟩⟩ := live.requestData
    · rw [e]
      exact ⟨[], k₁, left, rfl, live, rfl⟩
    · rw [e]
      dsimp only
      by_cases more : Client.hasMore p.bytes = true
      · obtain ⟨fragments, k', rest, e', live, parts⟩ := ih live
        rw [if_pos more, Client.request_bind, e']
        exact ⟨p.bytes :: fragments, k', rest, rfl, live, congrArg (p.bytes :: ·) parts⟩
      · rw [if_neg more]
        exact ⟨[p.bytes], k₁, ps, rfl, live, rfl⟩

/-! ## Commands -/

/-- A command that the module answers `ok` succeeds, with first messages behind that answer. -/
theorem Live.sendAndAck_ok (sound : x.Sound) (live : Live x k log left) {m : Message} {e : Bytes}
    (h : m.encode = .ok e) (ok : (x.reactions log.length).answer = .ok) (expectResponse : Bool) :
    ∃ fragments k' rest, Client.sendAndAck m expectResponse k = (.ok fragments, k') ∧
      Live x k' (log ++ [e]) rest ∧
      fragments <+: (x.reactions log.length).packets.map Packet.bytes := by
  obtain ⟨s, confirmed, serving, le, le'⟩ :=
    live.paused.sendAndConfirm_ok sound.room ok (sound.prompt _ ok) e
  have patient := sound.patient
  obtain ⟨k₁, calm, rfl, sent⟩ := live.toCalm.sendAndAck h (forward_ok confirmed) (by omega)
    expectResponse
  rw [sent]
  have live : Live x k₁ (log ++ [e]) (x.reactions log.length).packets := ⟨calm, serving⟩
  cases expectResponse with
  | false => exact ⟨[], k₁, _, rfl, live, List.nil_prefix⟩
  | true =>
    obtain ⟨fragments, k', rest, collected, live, parts⟩ := live.collect x.client.maxFragments
    exact ⟨fragments, k', rest, collected, live, parts ▸ List.prefix_append ..⟩

/-- A command that the module does not answer `ok` fails, and the relay is gone. -/
theorem Live.sendAndAck_not_ok (sound : x.Sound) (live : Live x k log left) {m : Message}
    {e : Bytes} (h : m.encode = .ok e) (not_ok : (x.reactions log.length).answer ≠ .ok)
    (expectResponse : Bool) : ∃ stop k',
      Client.sendAndAck m expectResponse k = (.error stop, k') ∧ Dead k' (log ++ [e]) := by
  have size := length_le_maxItemSize h
  obtain ⟨cause, s, refused, written⟩ :=
    live.paused.sendAndConfirm_not_ok sound.room not_ok x.relay.ackTimeout e
  have handled : handleItem k.channel.far.config (.ofBytes e) k.channel.far.paused =
      (.failed cause, s) := by
    rw [live.relay, handleItem_message h]
    exact forward_error refused
  obtain ⟨session, ended, outgoing⟩ :=
    Loopback.handle_stop live.connection live.outgoing size handled
  have coming := k.coming_sent e
  rw [live.coming, List.nil_append, outgoing] at coming
  have decoder : (k.sent e).channel.decoder = {} := live.decoder
  obtain ⟨failure, now, lost⟩ := receive_lost decoder coming (k.channel.now + k.config.ackTimeout)
  rw [sendAndAck_eq h, awaitAckUntil_error lost]
  refine ⟨_, _, rfl, decoder, ⟨_, coming⟩, ended, rfl, ?_⟩
  show (k.channel.far.handle (itemBytes e)).session.link.far.written = _
  rw [session, written]

/-- After that every command fails, and nothing reaches the module. -/
theorem Dead.sendAndAck (dead : Dead k log) {m : Message} {e : Bytes} (h : m.encode = .ok e)
    (expectResponse : Bool) : ∃ stop k',
      Client.sendAndAck m expectResponse k = (.error stop, k') ∧ Dead k' log := by
  have idle : k.channel.far.handle (itemBytes e) = k.channel.far := if_pos dead.ended
  obtain ⟨t, coming⟩ := dead.coming
  have sent : (k.sent e).channel.coming = [(t, .lost .closed)] := by
    rw [Client.coming_sent, idle, dead.outgoing, List.map_nil, List.append_nil, coming]
  have decoder : (k.sent e).channel.decoder = {} := dead.decoder
  obtain ⟨failure, now, lost⟩ := receive_lost decoder sent (k.channel.now + k.config.ackTimeout)
  rw [sendAndAck_eq h, awaitAckUntil_error lost]
  refine ⟨_, _, rfl, decoder, ⟨_, sent⟩, ?_, rfl, ?_⟩
  · show (k.channel.far.handle (itemBytes e)).connection.ended.isSome = true
    rw [idle]
    exact dead.ended
  · show (k.channel.far.handle (itemBytes e)).session.link.far.written = log
    rw [idle]
    exact dead.written

end LightLink.Relay
