import LightLink.Proofs.Scan.Registry
import LightLink.Proofs.Session.Polled
import LightLink.Proofs.Session.Ready

/-!
# Polls of a stand-in

A stand-in keeps its modules by address and replies to a poll of an address for the one module that
is there. So a poll comes to that module, or to nothing once the time is up, and the session is at
rest again behind it.

* `Session.pollAddress_ok`: a poll is an exchange that is confirmed and a wait for data;
* `Session.Serving.pollAddress`: what a poll of a module that answers in time comes to;
* `StandIn.moduleAt?`: the module at an address, and what is asked there;
* `StandIn.Attended`: a session at rest whose stand-in has just these modules;
* `StandIn.Attended.pollAddress`: what a poll of an address comes to.
-/

namespace LightLink

/-- A poll that is confirmed comes to what comes after it. -/
theorem Session.pollAddress_ok {σ : Type} [FarEnd σ] {c : ScanConfig} {address : UInt16}
    {s s₁ s₂ : Session σ} {frame : Option Frame} {e : Bytes}
    (encoded : (Message.poll address).encode = .ok e)
    (confirmed : sendAndConfirm e false c.ackTimeout s = (.ok (), s₁))
    (taken : getDataMessage c.dataWait s₁ = (.ok frame, s₂)) :
    pollAddress c address s = (pollOutcome frame, s₂) := by
  have exchanged : pollExchange e c.ackTimeout c.dataWait s = (.ok frame, s₂) := by
    unfold pollExchange
    rw [exchange_bind, confirmed]
    exact taken
  have run (x : StateM (Session σ) (Except TransportError (Option Frame)))
      (k : Except TransportError (Option Frame) → StateM (Session σ) PollOutcome)
      (h : x s = (.ok frame, s₂)) : (x >>= k) s = k (.ok frame) s₂ := by
    show k (x s).1 (x s).2 = _
    rw [h]
  unfold pollAddress
  rw [encoded]
  exact run _ _ exchanged

/-- A module that answers `ok` in time is polled for the first message behind that answer. -/
theorem Session.Serving.pollAddress {s : Session Responder} {reactions : Nat → Reaction}
    {capacity : Nat} {log : List Bytes} {left : List Packet}
    (serving : s.Serving reactions capacity log left)
    (room : ∀ n, (Responder.packetsBefore reactions n).length + (reactions n).size ≤ capacity)
    (ok : (reactions log.length).answer = .ok) {c : ScanConfig}
    (prompt : Responder.trailingBefore reactions log.length + (reactions log.length).delay <
      c.ackTimeout) (in_time : (reactions log.length).trailing < c.dataWait) (address : UInt16) :
    ∃ s' bytes, Session.pollAddress c address s =
        (pollOutcome ((reactions log.length).packets.head?.map Packet.frame), s') ∧
      s'.Serving reactions capacity (log ++ [bytes]) (reactions log.length).packets.tail := by
  obtain ⟨bytes, encoded⟩ : ∃ bytes, (Message.poll address).encode = .ok bytes := ⟨_, rfl⟩
  obtain ⟨s₁, confirmed, serving, -, -⟩ := serving.sendAndConfirm_ok room ok prompt bytes
  have waited : Responder.trailingBefore reactions (log ++ [bytes]).length < c.dataWait := by
    rw [List.length_append]
    exact in_time
  obtain ⟨s', taken, serving⟩ := serving.getDataMessage_head? waited
  exact ⟨s', bytes, Session.pollAddress_ok encoded confirmed taken, serving⟩

namespace StandIn

/-! ## Modules by address -/

/-- The module at an address. -/
def moduleAt? (m : StandIn) (address : UInt16) : Option Identity :=
  m.modules.find? (·.address == address)

/-- The modules stand in the order of their addresses. -/
def Ordered (m : StandIn) : Prop := m.modules.Pairwise (·.address < ·.address)

theorem moduleAt?_addModule (m : StandIn) (i : Identity) (a : UInt16) :
    (m.addModule i).moduleAt? a = if a = i.address then some i else m.moduleAt? a :=
  find?_inserted Identity.address (insertByAddress i) rfl (fun _ _ => rfl) m.modules a

theorem moduleAt?_removeModule (m : StandIn) (address a : UInt16) :
    (m.removeModule address).moduleAt? a = if a = address then none else m.moduleAt? a := by
  unfold moduleAt? removeModule
  rw [List.find?_filter]
  split
  · rename_i same
    subst same
    simp
  · rename_i other
    congr 1
    funext i
    grind

theorem ordered_addModule {m : StandIn} (ordered : m.Ordered) (i : Identity) :
    (m.addModule i).Ordered :=
  pairwise_inserted Identity.address (insertByAddress i) rfl (fun _ _ => rfl) ordered

theorem ordered_removeModule {m : StandIn} (ordered : m.Ordered) (address : UInt16) :
    (m.removeModule address).Ordered := List.Pairwise.filter _ ordered

/-- Of modules in the order of their addresses at most one is at an address. -/
theorem filter_address {is : List Identity} (ordered : is.Pairwise (·.address < ·.address))
    (address : UInt16) :
    is.filter (·.address == address) = (is.find? (·.address == address)).toList := by
  induction is with
  | nil => rfl
  | cons i is ih =>
    obtain ⟨above, rest⟩ := List.pairwise_cons.mp ordered
    rw [List.filter_cons, List.find?_cons]
    cases here : i.address == address with
    | false => exact ih rest
    | true =>
      have none_above : is.filter (·.address == address) = [] := by
        refine List.filter_eq_nil_iff.mpr fun j mem same => ?_
        have lt := above j mem
        rw [beq_iff_eq.mp here, beq_iff_eq.mp same] at lt
        exact UInt16.lt_irrefl _ lt
      rw [if_pos rfl, none_above]
      rfl

/-- A poll of an address asks the module that is there. -/
theorem asked_eq {m : StandIn} (ordered : m.Ordered) {address : UInt16}
    (single : address ≠ broadcastAddress) : m.asked address = (m.moduleAt? address).toList := by
  refine Eq.trans ?_ (filter_address ordered address)
  have polled : ∀ i : Identity, isPolledAt i address = (i.address == address) := fun i =>
    decide_eq_decide.mpr ⟨fun h => (h.resolve_left single).symm, fun h => .inr h.symm⟩
  exact List.filter_congr fun i _ => polled i

/-! ## Polls -/

/-- The reply of a module says who it is. -/
theorem pollOutcome_reply (i : Identity) :
    pollOutcome (some (replyPacket i).frame) = .ok (some i) := by
  have message : (replyPacket i).frame.message = .ok (pollReply i) := by
    show Prod.fst <$> Message.decode (replyPacket i).bytes = _
    rw [show Message.decode (replyPacket i).bytes = _ from
      Message.decode_of_encode (encode_pollReply i)]
    rfl
  unfold pollOutcome
  dsimp only
  rw [message]
  rfl

/-- Nothing is on the link of a session, its ring has room for an answer and a reply, and at its far
end a stand-in has just these modules. -/
structure Attended (s : Session StandIn) (now : UInt16 → Option Identity) : Prop
    extends AtRest s where
  room : 2 ≤ s.reader.ring.capacity
  ordered : s.link.far.Ordered
  moduleAt : ∀ address, s.link.far.moduleAt? address = now address

namespace Attended

variable {s s' : Session StandIn} {now : UInt16 → Option Identity} (h : Attended s now)

include h

/-- With the same modules the session is at rest again. -/
theorem again (attends : Attends s' s.link.far.modules) (holds : s'.Holds [])
    (capacity : s'.reader.ring.capacity = s.reader.ring.capacity) : Attended s' now where
  toAtRest := attends.atRest holds
  room := capacity ▸ h.room
  ordered := by
    unfold Ordered
    rw [attends.attentive.modules]
    exact h.ordered
  moduleAt address := by
    unfold moduleAt?
    rw [attends.attentive.modules]
    exact h.moduleAt address

theorem pass (time : Nat) : Attended { s with link := s.link.pass time } now := by
  have rest := h.toAtRest.pass time
  rw [h.pass_eq] at rest ⊢
  exact h.again rest.attends rest.toHolds rfl

/-- A poll of an address comes to the module that is there, and the session is at rest behind it. -/
theorem pollAddress {c : ScanConfig} (ack_pos : 0 < c.ackTimeout) (data_pos : 0 < c.dataWait)
    {address : UInt16} (single : address ≠ broadcastAddress) :
    ∃ s', Session.pollAddress c address s = (.ok (now address), s') ∧ Attended s' now := by
  obtain ⟨e, encoded⟩ : ∃ e, (Message.poll address).encode = .ok e := ⟨_, rfl⟩
  have asked : s.link.far.asked address = (now address).toList := by
    rw [asked_eq h.ordered single, h.moduleAt]
  have room : (s.link.far.asked address).length < s.reader.ring.capacity := by
    have le := h.room
    rw [asked]
    cases now address <;> simp <;> omega
  obtain ⟨s₁, confirmed, holds, -, attends, capacity⟩ :=
    h.toAtRest.sendAndConfirm (Message.decode_of_encode encoded) room ack_pos
  change s₁.Holds ((s.link.far.asked address).map _) at holds
  rw [asked] at holds
  cases there : now address with
  | none =>
    rw [there] at holds
    obtain ⟨s₂, taken, holds, waited⟩ := holds.getDataMessage_nil attends.running c.dataWait
    exact ⟨s₂, Session.pollAddress_ok encoded confirmed taken,
      h.again (attends.waited waited) holds (waited.capacity.trans capacity)⟩
  | some i =>
    rw [there] at holds
    obtain ⟨s₂, taken, holds, -, waited⟩ := holds.getDataMessage rfl data_pos
    refine ⟨s₂, ?_, h.again (attends.waited waited) holds (waited.capacity.trans capacity)⟩
    rw [Session.pollAddress_ok encoded confirmed taken, pollOutcome_reply]

end Attended

end StandIn

end LightLink
