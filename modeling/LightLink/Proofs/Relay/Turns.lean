import LightLink.Proofs.Frame.Segments
import LightLink.Proofs.Relay.Items

/-!
# A client and its relay

A client and a relay take turns: the client writes one item and waits for one reply. However the
network cuts the stream, what a turn comes to is what the relay makes of the item.

* `Loopback.handle_answer`, `Loopback.handle_stop`: what the relay does with an item;
* `Calm`: nothing is on the way between the two;
* `Calm.receive_sent`: an item that is sent and the reply to it;
* `Calm.requestData`: a request for data; `Calm.sendAndAck`: a message and its acknowledgement.
-/

namespace LightLink.Relay

/-! ## The relay -/

section Relay

variable {σ : Type} [FarEnd σ] {c : Config} {s s' : Session σ}

theorem bind_apply {S α β : Type} (m : StateM S α) (f : α → StateM S β) (s : S) :
    (m >>= f) s = f (m s).1 (m s).2 := rfl

theorem forward_ok {bytes : Bytes}
    (h : Session.sendAndConfirm bytes false c.ackTimeout s = (.ok (), s')) :
    forward c bytes s = (.answer ackToken, s') := by
  unfold forward ExceptT.run
  rw [bind_apply, h]
  rfl

theorem forward_error {bytes : Bytes} {e : TransportError}
    (h : Session.sendAndConfirm bytes false c.ackTimeout s = (.error e, s')) :
    forward c bytes s = (.failed e, s') := by
  unfold forward ExceptT.run
  rw [bind_apply, h]
  rfl

omit [FarEnd σ] in
theorem handleData_ok {frame : Option Frame}
    (h : Session.getDataMessage c.dataWait s = (.ok frame, s')) :
    handleData c s = (.answer ((frame.map Frame.data).getD []), s') := by
  unfold handleData ExceptT.run
  rw [bind_apply, h]
  rfl

theorem length_le_maxItemSize {m : Message} {e : Bytes} (h : m.encode = .ok e) :
    e.length ≤ maxItemSize :=
  Nat.le_trans (Packet.ofMessage h).length_le (by decide)

/-- A message is not taken for a request of the client. -/
theorem handleItem_message {m : Message} {e : Bytes} (h : m.encode = .ok e) :
    handleItem (σ := σ) c (.ofBytes e) = forward c e := by
  obtain ⟨rest, start⟩ := (Packet.ofMessage h).exists_cons
  change e = _ at start
  rw [start, Item.ofBytes, if_neg (by simp), handleItem, if_neg, if_neg]
  · intro same
    exact absurd (List.cons.inj same).1 (by decide)
  · intro same
    exact absurd (List.cons.inj same).1 (by decide)

end Relay

namespace Loopback

variable {σ : Type} {l : Loopback σ} {bytes : Bytes} {s : Session σ}

/-- The session of a relay when something comes that the client has written. -/
def paused (l : Loopback σ) : Session σ :=
  { l.session with link := l.session.link.pass (l.network.pause l.carried) }

/-- A relay after what it has made of what has come. -/
def next (l : Loopback σ) (r : (List Handled × Connection) × Session σ) : Loopback σ :=
  { l with
    session := r.2
    connection := r.1.2
    carried := l.carried + 1
    handled := l.handled ++ r.1.1
    outgoing := l.outgoing ++ l.incoming (r.2.link.now - l.paused.link.now) r.1.1 r.1.2 }

variable [FarEnd σ]

/-- However an item is cut on the way, the relay handles it. -/
theorem handle_item (connection : l.connection = {}) (h : bytes.length ≤ maxItemSize) :
    l.handle (itemBytes bytes) =
      l.next (Connection.work l.config (Connection.waiting (itemBytes bytes)) l.paused) := by
  have pieces := l.network.flatten_toRelay l.carried (itemBytes bytes)
  have more : l.network.toRelay l.carried (itemBytes bytes) ≠ [] := by
    intro none
    rw [none] at pieces
    cases pieces
  have received : Connection.receiveAll l.config {} (l.network.toRelay l.carried (itemBytes bytes))
      l.paused = Connection.work l.config (Connection.waiting (itemBytes bytes)) l.paused :=
    Connection.receiveAll_item l.config h (l.network.toRelay_ne_nil l.carried (itemBytes bytes))
      more pieces l.paused
  have e : l.handle (itemBytes bytes) = if l.connection.ended.isSome then l else
      l.next (Connection.receiveAll l.config l.connection
        (l.network.toRelay l.carried (itemBytes bytes)) l.paused) := rfl
  rw [e, connection, received]
  rfl

theorem replies_singleton (item : Item) {reply : Bytes} (h : reply.length ≤ maxItemSize) :
    replies [⟨item, some reply⟩] = itemBytes reply := by
  show framed reply ++ [] = _
  rw [List.append_nil, framed, encodeItem_of_le h]
  rfl

/-- Nothing is carried where nothing is sent. -/
theorem toClient_nil (network : Network) (n : Nat) : network.toClient n [] = [] := by
  have whole := network.flatMap_toClient n []
  have some_each := network.toClient_ne_nil n []
  match network.toClient n [], whole, some_each with
  | [], _, _ => rfl
  | p :: ps, whole, some_each =>
    rw [List.flatMap_cons, List.append_eq_nil_iff] at whole
    exact absurd whole.1 (some_each p (.head _))

/-- A relay that answers an item. -/
theorem handle_answer (connection : l.connection = {}) (outgoing : l.outgoing = [])
    (h : bytes.length ≤ maxItemSize) {reply : Bytes}
    (handled : handleItem l.config (.ofBytes bytes) l.paused = (.answer reply, s))
    (h' : reply.length ≤ maxItemSize) :
    (l.handle (itemBytes bytes)).session = s ∧ (l.handle (itemBytes bytes)).connection = {} ∧
      (l.handle (itemBytes bytes)).config = l.config ∧
      (l.handle (itemBytes bytes)).network = l.network ∧
      (l.handle (itemBytes bytes)).outgoing =
        (l.network.toClient l.carried (itemBytes reply)).map
          fun p => (s.link.now - l.paused.link.now + p.1, .bytes p.2) := by
  rw [handle_item connection h, Connection.work_answer (ItemDecoder.next_whole h) handled h']
  refine ⟨rfl, rfl, rfl, rfl, ?_⟩
  show l.outgoing ++ l.incoming _ _ _ = _
  rw [outgoing, incoming, replies_singleton _ h']
  exact List.append_nil _

/-- A relay that ends a connection. -/
theorem handle_stop (connection : l.connection = {}) (outgoing : l.outgoing = [])
    (h : bytes.length ≤ maxItemSize) {e : ConnectionEnd}
    (handled : handleItem l.config (.ofBytes bytes) l.paused = (.stop e, s)) :
    (l.handle (itemBytes bytes)).session = s ∧
      (l.handle (itemBytes bytes)).connection.ended.isSome = true ∧
      (l.handle (itemBytes bytes)).outgoing =
        [(s.link.now - l.paused.link.now + l.network.latency, .lost .closed)] := by
  rw [handle_item connection h, Connection.work_stop (ItemDecoder.next_whole h) handled]
  refine ⟨rfl, rfl, ?_⟩
  show l.outgoing ++ l.incoming _ _ _ = _
  rw [outgoing, incoming, show replies [⟨Item.ofBytes bytes, none⟩] = [] from rfl, toClient_nil]
  rfl

end Loopback

/-! ## The client -/

namespace Client

variable {τ α β : Type}

theorem request_bind (x : Request τ α) (f : α → Request τ β) (k : Client τ) :
    (x >>= f) k = match x k with
      | (.ok a, k') => f a k'
      | (.error e, k') => (.error e, k') := by
  show (ExceptT.bindCont f (x k).1 : StateM (Client τ) _) (x k).2 = _
  rcases x k with ⟨a | e, k'⟩ <;> rfl

/-- The wait for an acknowledgement, one item at a time. -/
theorem awaitAckUntil_eq (deadline : Nat) (k : Client τ) : awaitAckUntil deadline k =
    match k.channel.receive (some deadline) with
    | (.error e, channel) => (.error (stopOf k.config.ackTimeout e), ⟨k.config, channel⟩)
    | (.ok item, channel) =>
      if item.isToken ackToken then (.ok (), ⟨k.config, channel⟩)
      else awaitAckUntil deadline ⟨k.config, channel⟩ := by
  rw [awaitAckUntil]
  split <;> simp only [*]

/-- A message once it has been sent. -/
theorem sendAndAck_of_send [RelayEnd τ] {m : Message} {e : Bytes} (h : m.encode = .ok e)
    (expectResponse : Bool) {k k' : Client τ} (sent : send e k = (.ok (), k')) :
    sendAndAck m expectResponse k =
      match awaitAckUntil (k'.channel.now + k'.config.ackTimeout) k' with
      | (.ok (), k'') =>
        if expectResponse then collect k''.config.maxFragments k'' else (.ok [], k'')
      | (.error stop, k'') => (.error stop, k'') := by
  unfold sendAndAck
  rw [h]
  dsimp only
  rw [request_bind, sent]
  dsimp only
  rw [request_bind, show awaitAck k' =
    awaitAckUntil (k'.channel.now + k'.config.ackTimeout) k' from rfl]
  rcases awaitAckUntil (k'.channel.now + k'.config.ackTimeout) k' with ⟨stop | _, k''⟩
  · rfl
  · cases expectResponse <;> rfl

/-- A message that cannot be sent. -/
theorem sendAndAck_of_send_error [RelayEnd τ] {m : Message} {e : Bytes} (h : m.encode = .ok e)
    (expectResponse : Bool) {k k' : Client τ} {stop : Stop} (sent : send e k = (.error stop, k')) :
    sendAndAck m expectResponse k = (.error stop, k') := by
  unfold sendAndAck
  rw [h]
  dsimp only
  rw [request_bind, sent]

variable {σ : Type} [FarEnd σ] {k : Client (Loopback σ)} {bytes : Bytes} {s : Session σ}

/-- The client after it has sent an item, before it reads. -/
def sent (k : Client (Loopback σ)) (bytes : Bytes) : Client (Loopback σ) :=
  ⟨k.config, .exchange { k.channel with far := k.channel.far.handle (itemBytes bytes) }⟩

theorem send_eq (h : bytes.length ≤ maxItemSize) : send bytes k = (.ok (), k.sent bytes) := by
  unfold send
  rw [encodeItem_of_le h]
  rfl

theorem coming_sent (k : Client (Loopback σ)) (bytes : Bytes) :
    (k.sent bytes).channel.coming = k.channel.coming ++
      (k.channel.far.handle (itemBytes bytes)).outgoing.map
        fun s => (k.channel.now + s.1, s.2) := rfl

end Client

/-! ## One turn -/

section Turn

/-- Nothing is on the way between a client and its relay. -/
structure Calm {σ : Type} (client : ClientConfig) (relay : Config) (network : Network)
    (k : Client (Loopback σ)) : Prop where
  config : k.config = client
  decoder : k.channel.decoder = {}
  coming : k.channel.coming = []
  relay : k.channel.far.config = relay
  network : k.channel.far.network = network
  connection : k.channel.far.connection = {}
  outgoing : k.channel.far.outgoing = []

variable {σ : Type} {client : ClientConfig} {relay : Config} {network : Network}
  {k : Client (Loopback σ)}

/-- A stream that is lost gives nothing more. -/
theorem receive_lost {c : Channel (Loopback σ)} {t : Nat} (decoder : c.decoder = {})
    (coming : c.coming = [(t, .lost .closed)]) (deadline : Nat) : ∃ failure now,
      c.receive (some deadline) = (.error failure, { c with now }) := by
  have none : ItemDecoder.next {} = (.ok none, {}) := rfl
  unfold Channel.receive
  rw [coming, decoder, Channel.receiveFrom, none]
  dsimp only
  split
  · exact ⟨_, _, by rw [← coming, ← decoder]⟩
  · exact ⟨_, _, by rw [← coming, ← decoder]⟩

theorem awaitAckUntil_ok {deadline : Nat} {channel : Channel (Loopback σ)}
    (h : k.channel.receive (some deadline) = (.ok (.ofBytes ackToken), channel)) :
    Client.awaitAckUntil deadline k = (.ok (), ⟨k.config, channel⟩) := by
  rw [Client.awaitAckUntil_eq, h]
  rfl

theorem awaitAckUntil_error {deadline : Nat} {failure : Channel.Failure}
    {channel : Channel (Loopback σ)}
    (h : k.channel.receive (some deadline) = (.error failure, channel)) :
    Client.awaitAckUntil deadline k =
      (.error (Client.stopOf k.config.ackTimeout failure), ⟨k.config, channel⟩) := by
  rw [Client.awaitAckUntil_eq, h]

variable [FarEnd σ]

/-- An item that the relay answers is sent, and the reply is there in time. -/
theorem Calm.receive_sent (calm : Calm client relay network k) {bytes : Bytes}
    (h : bytes.length ≤ maxItemSize) {reply : Bytes} (h' : reply.length ≤ maxItemSize)
    {s : Session σ}
    (handled : handleItem relay (.ofBytes bytes) k.channel.far.paused = (.answer reply, s))
    (deadline : Option Nat)
    (in_time : ∀ t ∈ deadline, k.channel.now +
      (s.link.now - k.channel.far.paused.link.now + network.latency) ≤ t) :
    ∃ channel, (k.sent bytes).channel.receive deadline = (.ok (.ofBytes reply), channel) ∧
      Calm client relay network ⟨k.config, channel⟩ ∧ channel.far.session = s := by
  rw [← calm.relay] at handled
  obtain ⟨session, connection, config, same, outgoing⟩ :=
    Loopback.handle_answer calm.connection calm.outgoing h handled h'
  let pieces := (k.channel.far.network.toClient k.channel.far.carried (itemBytes reply)).map
    fun p => (k.channel.now + (s.link.now - k.channel.far.paused.link.now + p.1), p.2)
  have coming : (k.sent bytes).channel.coming = pieces.map fun p => (p.1, .bytes p.2) := by
    rw [Client.coming_sent, calm.coming, List.nil_append, outgoing, List.map_map, List.map_map]
    rfl
  have whole : [] ++ pieces.flatMap Prod.snd = itemBytes reply := by
    rw [List.nil_append, List.flatMap_map]
    exact k.channel.far.network.flatMap_toClient _ _
  have some_each : ∀ p ∈ pieces, p.2 ≠ [] := by
    intro p mem
    obtain ⟨q, mem', rfl⟩ := List.mem_map.mp mem
    exact k.channel.far.network.toClient_ne_nil _ _ q mem'
  have in_time' : ∀ p ∈ pieces, ∀ t ∈ deadline, p.1 ≤ t := by
    intro p mem t is_deadline
    obtain ⟨q, mem', rfl⟩ := List.mem_map.mp mem
    have le := k.channel.far.network.toClient_le_latency _ _ q mem'
    rw [calm.network] at le
    have le' := in_time t is_deadline
    dsimp only
    omega
  obtain ⟨now, received⟩ := Channel.receiveFrom_item h' some_each in_time' whole
    (k.sent bytes).channel.now
  rw [← coming] at received
  refine ⟨{ (k.sent bytes).channel with now := now, decoder := {}, coming := [] }, ?_,
    ⟨calm.config, rfl, rfl, config.trans calm.relay, same.trans calm.network, connection, rfl⟩,
    session⟩
  unfold Channel.receive
  rw [show (k.sent bytes).channel.decoder = ⟨[]⟩ from calm.decoder, received]

/-- A request for data that the relay answers. -/
theorem Calm.requestData (calm : Calm client relay network k) {reply : Bytes}
    (h : reply.length ≤ maxItemSize) {s : Session σ}
    (handled : handleData relay k.channel.far.paused = (.answer reply, s)) : ∃ k',
      Client.requestData k = (.ok (Item.ofBytes reply).toOption, k') ∧
      Calm client relay network k' ∧ k'.channel.far.session = s := by
  have size : dataToken.length ≤ maxItemSize := by decide
  obtain ⟨channel, received, calm', session⟩ := calm.receive_sent size h handled none nofun
  refine ⟨⟨k.config, channel⟩, ?_, calm', session⟩
  have got : Client.receive (k.sent dataToken) = (.ok (.ofBytes reply), ⟨k.config, channel⟩) := by
    unfold Client.receive Client.receiveUntil
    rw [received]
    rfl
  unfold Client.requestData
  rw [Client.request_bind, Client.send_eq size]
  dsimp only
  rw [Client.request_bind, got]
  rfl

/-- A request for data that gets a frame. -/
theorem Calm.requestData_packet (calm : Calm client relay network k) {p : Packet} {s : Session σ}
    (handled : handleData relay k.channel.far.paused = (.answer p.bytes, s)) : ∃ k',
      Client.requestData k = (.ok (some p.bytes), k') ∧ Calm client relay network k' ∧
      k'.channel.far.session = s := by
  have size : p.bytes.length ≤ maxItemSize := Nat.le_trans p.length_le (by decide)
  obtain ⟨k', e, calm', session⟩ := calm.requestData size handled
  obtain ⟨rest, start⟩ := p.exists_cons
  have item : (Item.ofBytes p.bytes).toOption = some p.bytes := by
    rw [start]
    rfl
  exact ⟨k', e.trans (congrArg (fun o => (Except.ok o, k')) item), calm', session⟩

theorem sendAndAck_eq {m : Message} {e : Bytes} (h : m.encode = .ok e) (expectResponse : Bool)
    (k : Client (Loopback σ)) : Client.sendAndAck m expectResponse k =
      match Client.awaitAckUntil (k.channel.now + k.config.ackTimeout) (k.sent e) with
      | (.ok (), k') => if expectResponse then Client.collect k'.config.maxFragments k'
        else (.ok [], k')
      | (.error stop, k') => (.error stop, k') := by
  have deadline : (k.sent e).channel.now + (k.sent e).config.ackTimeout =
    k.channel.now + k.config.ackTimeout := rfl
  rw [Client.sendAndAck_of_send h expectResponse (Client.send_eq (length_le_maxItemSize h)),
    deadline]
  rcases Client.awaitAckUntil (k.channel.now + k.config.ackTimeout) (k.sent e) with ⟨stop | _, k'⟩
  · rfl
  · rfl

/-- A message that the relay passes on and acknowledges in time. -/
theorem Calm.sendAndAck (calm : Calm client relay network k) {m : Message} {e : Bytes}
    (h : m.encode = .ok e) {s : Session σ}
    (forwarded : forward relay e k.channel.far.paused = (.answer ackToken, s))
    (in_time : s.link.now - k.channel.far.paused.link.now + network.latency ≤ client.ackTimeout)
    (expectResponse : Bool) : ∃ k', Calm client relay network k' ∧ k'.channel.far.session = s ∧
      Client.sendAndAck m expectResponse k =
        if expectResponse then Client.collect client.maxFragments k' else (.ok [], k') := by
  have handled : handleItem relay (.ofBytes e) k.channel.far.paused = (.answer ackToken, s) := by
    rw [handleItem_message h]
    exact forwarded
  obtain ⟨channel, received, calm', session⟩ :=
    calm.receive_sent (length_le_maxItemSize h) (by decide) handled
      (some (k.channel.now + k.config.ackTimeout)) (fun t is_deadline => by
        obtain rfl := Option.some.inj is_deadline
        rw [calm.config]
        omega)
  refine ⟨⟨k.config, channel⟩, calm', session, ?_⟩
  rw [sendAndAck_eq h, awaitAckUntil_ok received]
  dsimp only
  rw [show (k.sent e).config = client from calm.config, calm.config]

end Turn

end LightLink.Relay
