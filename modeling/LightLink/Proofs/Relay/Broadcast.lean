import LightLink.Proofs.Message.Responses
import LightLink.Proofs.Relay.Turns
import LightLink.Proofs.Session.Polled

/-!
# Polls of every module

Every module that a poll asks replies, and the relay hands the replies on one by one. But no reply
says that another follows, and a client stops at the first frame that does not say so: it learns of
the module that replied first, and the other replies stay on the link.

* `Calm.sendAndAck_poll`: what a poll comes to, whichever modules it asks;
* `sendAndAck_poll_broadcast`: a poll of all modules reports the first one;
* `not_sendAndAck_poll_all`: so it does not report two.
-/

namespace LightLink.Relay

open StandIn

/-! ## Replies -/

/-- A module's reply does not say that another follows. -/
theorem hasMore_replyPacket (i : Identity) : Client.hasMore (replyPacket i).bytes = false := by
  have header : MessageHeader.decode (replyPacket i).bytes =
      .ok ((pollReply i).header (UInt8.ofNat (pollReply i).wireSize), MessageHeader.wireSize) :=
    MessageHeader.decode_eq_ok_iff.mpr ⟨_, rfl, rfl⟩
  unfold Client.hasMore
  rw [header]
  show Flags.response.contains .moreData = false
  decide

/-- What replies say together are the modules that sent them. -/
theorem ofFragments_replies {is : List Identity} (some_reply : is ≠ []) :
    Response.ofFragments (is.map fun i => (replyPacket i).bytes) = .ok (.modules is) := by
  have messages : Response.messagesOf (is.map fun i => (replyPacket i).bytes) =
      .ok (is.map pollReply) :=
    Response.messagesOf_map fun i _ => encode_pollReply i
  have identities : (is.map pollReply).mapM (fun m => m.body.identity?) = some is := by
    have all : (is.map pollReply).mapM (fun m => m.body.identity?) = some (is.map id) :=
      Response.mapM_map_eq_pure fun i _ => rfl
    rwa [List.map_id] at all
  unfold Response.ofFragments
  rw [messages]
  show Response.ofMessages (is.map pollReply) = _
  unfold Response.ofMessages
  rw [identities, if_neg (by simpa using some_reply)]

/-! ## A poll -/

variable {client : ClientConfig} {relay : Config} {network : Network}
  {k : Client (Loopback StandIn)}

/-- A request for data gets the first of the frames that are there. -/
theorem Calm.requestData_holds (calm : Calm client relay network k) {p : Packet} {fs : List Frame}
    (holds : k.channel.far.session.Holds (p.frame :: fs)) (data_pos : 0 < relay.dataWait) :
    ∃ k', Client.requestData k = (.ok (some p.bytes), k') ∧ Calm client relay network k' ∧
      k'.channel.far.session.Holds fs := by
  obtain ⟨s, taken, holds, -⟩ :=
    (holds.pass (k.channel.far.network.pause k.channel.far.carried)).getDataMessage rfl data_pos
  obtain ⟨k', e, calm, rfl⟩ := calm.requestData_packet (handleData_ok taken)
  exact ⟨k', e, calm, holds⟩

/-- The client gets the reply of the first module that a poll asks, and the others are left. -/
theorem Calm.sendAndAck_poll (calm : Calm client relay network k)
    (rest : AtRest k.channel.far.session) {address : UInt16} {i : Identity} {others : List Identity}
    (asked : k.channel.far.session.link.far.asked address = i :: others)
    (room : others.length + 1 < k.channel.far.session.reader.ring.capacity)
    (some_fragment : 0 < client.maxFragments) (ack_pos : 0 < relay.ackTimeout)
    (data_pos : 0 < relay.dataWait) (in_time : network.latency ≤ client.ackTimeout) :
    ∃ k', Client.sendAndAck (.poll address) true k = (.ok [(replyPacket i).bytes], k') ∧
      k'.channel.far.session.Holds (others.map fun i => (replyPacket i).frame) := by
  obtain ⟨e, encoded⟩ : ∃ e, (Message.poll address).encode = .ok e := ⟨_, rfl⟩
  have paused : AtRest k.channel.far.paused := rest.pass _
  have asked : k.channel.far.paused.link.far.asked address = i :: others := asked
  have room : (k.channel.far.paused.link.far.asked address).length <
      k.channel.far.paused.reader.ring.capacity := by
    rw [asked]
    unfold Loopback.paused
    rw [rest.pass_eq]
    exact room
  obtain ⟨s, confirmed, holds, now, -⟩ :=
    paused.sendAndConfirm (Message.decode_of_encode encoded) room ack_pos
  change s.Holds ((k.channel.far.paused.link.far.asked address).map _) at holds
  rw [asked] at holds
  obtain ⟨k₁, calm, rfl, sent⟩ :=
    calm.sendAndAck encoded (forward_ok confirmed) (by omega) true
  obtain ⟨k', got, -, holds⟩ := calm.requestData_holds holds data_pos
  refine ⟨k', ?_, holds⟩
  -- One round of `collect` is all there is, as the first reply does not announce a second.
  rw [sent, if_pos rfl, ← Nat.succ_pred_eq_of_pos some_fragment, Client.collect,
    Client.request_bind, got]
  dsimp only
  rw [hasMore_replyPacket]
  rfl

/-- A poll of all modules reports the first one that is registered, however many there are; the
replies of the others stay on the link. -/
theorem sendAndAck_poll_broadcast (calm : Calm client relay network k)
    (rest : AtRest k.channel.far.session)
    (some_module : k.channel.far.session.link.far.modules ≠ [])
    (room : k.channel.far.session.link.far.modules.length <
      k.channel.far.session.reader.ring.capacity)
    (fragments : k.channel.far.session.link.far.modules.length < client.maxFragments)
    (ack_pos : 0 < relay.ackTimeout) (data_pos : 0 < relay.dataWait)
    (in_time : network.latency ≤ client.ackTimeout) :
    let modules := k.channel.far.session.link.far.modules
    ∃ fragments k', Client.sendAndAck (.poll broadcastAddress) true k = (.ok fragments, k') ∧
      Response.ofFragments fragments = .ok (.modules (modules.take 1)) ∧
      k'.channel.far.session.reader.frames =
        (modules.drop 1).map fun i => (replyPacket i).frame := by
  intro modules
  obtain ⟨i, others, is_modules⟩ := List.exists_cons_of_ne_nil some_module
  rw [is_modules, List.length_cons] at room fragments
  obtain ⟨k', sent, holds⟩ := calm.sendAndAck_poll rest
    ((asked_broadcast _).trans is_modules) room (by omega) ack_pos data_pos in_time
  rw [show modules = i :: others from is_modules]
  exact ⟨_, k', sent, ofFragments_replies (List.cons_ne_nil i []), holds.frames⟩

/-! ### Two modules -/

/-- A client whose relay uses a stand-in for some modules. -/
def overStandIn (modules : List Identity) : Client (Loopback StandIn) :=
  ⟨{}, .connect { config := {}, session := .attach "" {} { modules } }⟩

theorem calm_overStandIn (modules : List Identity) :
    Calm {} {} .direct (overStandIn modules) :=
  ⟨rfl, rfl, rfl, rfl, rfl, rfl, rfl⟩

theorem atRest_overStandIn (modules : List Identity) :
    AtRest (overStandIn modules).channel.far.session := atRest_attach ..

theorem capacity_overStandIn (modules : List Identity) :
    (overStandIn modules).channel.far.session.reader.ring.capacity = defaultCapacity :=
  (capacity_attach "" {} modules).trans (by decide)

/-- Two modules. -/
def pair : List Identity := [sampleIdentity 1 120, sampleIdentity 2 121]

/-- Of two modules the first is reported, and the reply of the second is left. -/
theorem sendAndAck_poll_broadcast_pair :
    ∃ fragments k', Client.sendAndAck (.poll broadcastAddress) true (overStandIn pair) =
        (.ok fragments, k') ∧
      Response.ofFragments fragments = .ok (.modules [sampleIdentity 1 120]) ∧
      k'.channel.far.session.reader.frames = [(replyPacket (sampleIdentity 2 121)).frame] :=
  sendAndAck_poll_broadcast (calm_overStandIn pair) (atRest_overStandIn pair)
    (show pair ≠ [] by decide)
    (by rw [capacity_overStandIn]; show 2 < 1000; decide) (show 2 < 64 by decide)
    (show 0 < seconds 10 by decide) (show 0 < millis 250 by decide) (Nat.zero_le _)

/-- A poll of all modules does not report them all. -/
theorem not_sendAndAck_poll_all : ¬ ∀ modules : List Identity, modules ≠ [] →
    modules.length < defaultCapacity → modules.length < ({} : ClientConfig).maxFragments →
      ∃ fragments k', Client.sendAndAck (.poll broadcastAddress) true (overStandIn modules) =
          (.ok fragments, k') ∧
        Response.ofFragments fragments = .ok (.modules modules) := by
  intro all
  obtain ⟨fragments, k', sent, reported⟩ := all pair (by decide) (by decide) (by decide)
  obtain ⟨k₁, sent', -⟩ := (calm_overStandIn pair).sendAndAck_poll (atRest_overStandIn pair)
    (asked_broadcast _) (by rw [capacity_overStandIn]; show 2 < 1000; decide)
    (show 0 < 64 by decide)
    (show 0 < seconds 10 by decide) (show 0 < millis 250 by decide) (Nat.zero_le _)
  rw [sent, Prod.mk.injEq, Except.ok.injEq] at sent'
  have first : Response.ofFragments fragments = .ok (.modules [sampleIdentity 1 120]) := by
    rw [sent'.1]
    exact ofFragments_replies (List.cons_ne_nil (sampleIdentity 1 120) [])
  rw [first] at reported
  cases reported

end LightLink.Relay
