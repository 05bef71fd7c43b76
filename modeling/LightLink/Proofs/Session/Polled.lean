import LightLink.Proofs.Message.RoundTrip
import LightLink.Proofs.Session.Flow
import LightLink.Session.StandIn

/-!
# A stand-in that is polled

A stand-in answers a poll with `ok` and sends one reply for each module that is asked right behind
it, so the replies are all there once the poll has been written.

* `Session.Holds`: a session that has these frames, and to which nothing more comes;
* `StandIn.asked`, `StandIn.replyPacket`: the modules that a poll asks, and what they reply;
* `StandIn.AtRest`: a session with nothing on its link, and a stand-in that answers `ok`;
* `StandIn.AtRest.sendAndConfirm`: after a poll the session holds one reply for each module.
-/

namespace LightLink

/-! ## Frames that are there -/

namespace Session

variable {σ α : Type}

/-- Between two states of a session it did no more than take frames and let time pass. -/
structure Waited (s s' : Session σ) : Prop where
  far : s'.link.far = s.link.far
  running : s'.reader.running = s.reader.running
  assembler : s'.reader.assembler = s.reader.assembler
  capacity : s'.reader.ring.capacity = s.reader.ring.capacity

theorem waited_drain (s : Session σ) (as : List Arrival) : s.Waited (s.drain as) := by
  induction as generalizing s with
  | nil => exact ⟨rfl, rfl, rfl, rfl⟩
  | cons a as ih =>
    have waited := ih { s with
      link := { s.link with reader := s.link.reader.take.2 }
      lastReceived := some a.time }
    exact ⟨waited.far, waited.running, waited.assembler, waited.capacity⟩

/-- These frames are in the ring of a session, and nothing comes behind them. -/
structure Holds (s : Session σ) (fs : List Frame) : Prop where
  frames : s.reader.frames = fs
  coming : s.link.coming = []

namespace Holds

variable {s : Session σ} {f : Frame} {fs : List Frame}

theorem upToDate (holds : s.Holds fs) : s.link.UpToDate := by
  unfold Link.UpToDate
  rw [holds.coming]
  rfl

theorem pass_eq (holds : s.Holds fs) (time : Nat) :
    s.link.pass time = { s.link with now := s.link.now + time } := by
  refine Link.UpToDate.settle_eq ?_
  unfold Link.UpToDate
  rw [holds.coming]
  rfl

/-- Time passes. -/
theorem pass (holds : s.Holds fs) (time : Nat) :
    Holds { s with link := s.link.pass time } fs := by
  rw [holds.pass_eq]
  exact ⟨holds.frames, holds.coming⟩

/-- A wait that the first frame decides is over at once. -/
theorem awaitUntil (holds : s.Holds (f :: fs)) {verdict : Frame → Option α} {v : α}
    (decided : verdict f = some v) {deadline : Nat} (within : s.link.now < deadline)
    (poll : Nat) : ∃ s', Session.awaitUntil deadline poll verdict s = (.ok (some v), s') ∧
      s'.Holds fs ∧ s'.link.now = s.link.now ∧ s'.config = s.config ∧ s.Waited s' := by
  obtain ⟨a, as, ring, rfl, rest⟩ := List.map_eq_cons_iff.mp holds.frames
  have first : s.reader.ring.toList = [] ++ a :: as := ring
  refine ⟨s.drain [a], awaitUntil_ring poll holds.upToDate within first nofun decided, ⟨?_, ?_⟩,
    now_drain .., config_drain .., waited_drain ..⟩
  · have left : (s.drain [a]).reader.ring.toList = as :=
      (flow_drain (show s.reader.ring.toList = [a] ++ as from ring)).2
    rw [Reader.frames, left, rest]
  · rw [coming_drain, holds.coming]

/-- A request for data takes the first frame. -/
theorem getDataMessage (holds : s.Holds (f :: fs)) (binary : f.isBinary = true) {wait : Nat}
    (wait_pos : 0 < wait) : ∃ s', Session.getDataMessage wait s = (.ok (some f), s') ∧
      s'.Holds fs ∧ s'.link.now = s.link.now ∧ s.Waited s' := by
  rw [getDataMessage_eq]
  obtain ⟨s', e, holds, now, -, waited⟩ :=
    holds.awaitUntil (show f.data? = some f from if_pos binary)
      (show s.link.now < s.link.now + wait by omega) s.config.dataPoll
  exact ⟨s', e, holds, now, waited⟩

/-- Where no frame is there and none comes, a wait comes to nothing. -/
theorem awaitUntil_nil (holds : s.Holds []) (running : s.reader.running = true)
    (deadline poll : Nat) (verdict : Frame → Option α) :
    ∃ s', Session.awaitUntil deadline poll verdict s = (.ok none, s') ∧ s'.Holds [] ∧
      s.Waited s' := by
  have completes : ∀ t, (s.reader.assembler.readAll (Link.due t s.link.coming)).2 = [] := by
    intro t
    rw [holds.coming]
    rfl
  have pending : s.link.pending = [] := by
    rw [Link.pending, holds.coming, show s.link.reader.frames = [] from holds.frames]
    rfl
  have fit : s.link.Fit :=
    ⟨running, by rw [holds.coming]; exact List.forall_mem_nil _,
      by rw [pending]; exact Nat.zero_le _⟩
  have settled : s.link.Settled := by
    intro t
    rw [Link.availableBy, Link.availableBy]
    exact congrArg (_ ++ ·) ((completes _).trans (completes t).symm)
  obtain ⟨taken, gives, decides⟩ := awaitUntil_gives fit settled deadline poll verdict
  obtain ⟨rfl, pending'⟩ : taken = [] ∧ (Session.awaitUntil deadline poll verdict s).2.link.pending
      = [] := List.append_eq_nil_iff.mp (gives.link.pending.symm.trans pending)
  cases awaited : Session.awaitUntil deadline poll verdict s with
  | mk result s' =>
  rw [awaited] at gives decides pending'
  have coming : s'.link.coming = [] := by
    refine List.eq_nil_iff_forall_not_mem.mpr fun c mem => ?_
    have mem' := gives.link.coming c mem
    rw [holds.coming] at mem'
    cases mem'
  have rest := gives.link.rest
  rw [Link.rest, Link.rest, coming, holds.coming] at rest
  rcases result with lost | _ | v
  · exact decides.elim
  · exact ⟨s', rfl, ⟨(List.append_eq_nil_iff.mp pending').1, coming⟩, gives.link.far,
      gives.link.fit.running.trans running.symm, rest, gives.link.capacity⟩
  · obtain ⟨front, f, e, -⟩ := decides
    simp at e

/-- Without a frame a request for data comes to nothing. -/
theorem getDataMessage_nil (holds : s.Holds []) (running : s.reader.running = true) (wait : Nat) :
    ∃ s', Session.getDataMessage wait s = (.ok none, s') ∧ s'.Holds [] ∧ s.Waited s' :=
  holds.awaitUntil_nil running _ s.config.dataPoll Frame.data?

end Holds

end Session

/-- A pause brings no frame. -/
theorem Reader.frames_pause (r : Reader) (time : Nat) : (r.read time .pause).frames = r.frames := by
  unfold read
  split <;> rfl

/-! ## Replies -/

namespace StandIn

/-- The modules that a poll of an address asks. -/
def asked (m : StandIn) (address : UInt16) : List Identity :=
  m.modules.filter (isPolledAt · address)

theorem asked_broadcast (m : StandIn) : m.asked broadcastAddress = m.modules :=
  List.filter_eq_self.mpr fun i _ => by simp [isPolledAt]

theorem encode_pollReply (i : Identity) : (pollReply i).encode =
    .ok (Wire.encode ((pollReply i).header (UInt8.ofNat (pollReply i).wireSize)) ++
      Wire.encode i) :=
  Message.encode_eq_ok_iff.mpr ⟨by show 8 + 15 ≤ 255; decide, rfl⟩

/-- What a module replies to a poll. -/
def replyPacket (i : Identity) : Packet := .ofMessage (encode_pollReply i)

theorem pollReplies_eq (m : StandIn) {bytes : Bytes} {address : UInt16} {flags : Flags} {n : Nat}
    (poll : Message.decode bytes = .ok (⟨address, flags, .pollRequest⟩, n)) :
    m.pollReplies bytes = (m.asked address).flatMap fun i => (replyPacket i).bytes := by
  unfold pollReplies
  rw [poll]
  simp only [encode_pollReply]
  rfl

/-- The line `ok` as a stand-in sends it. -/
def okLine : Segment :=
  .line (Utf8.ofString Token.ok ++ [carriageReturn]) (by decide) (by decide)

theorem unread_reply {m : StandIn} (answer : m.answer = .ok) (unread : m.unread = [])
    (queued : m.queued = []) {bytes : Bytes} {address : UInt16} {flags : Flags} {n : Nat}
    (poll : Message.decode bytes = .ok (⟨address, flags, .pollRequest⟩, n)) :
    (m.reply bytes).unread = (okLine :: (m.asked address).map fun i =>
      .message (replyPacket i)).flatMap Segment.bytes := by
  have line : lineBytes Token.ok = okLine.bytes := by decide
  have replies : ∀ m' : StandIn, m'.modules = m.modules → m'.pollReplies bytes =
      ((m.asked address).map fun i => Segment.message (replyPacket i)).flatMap Segment.bytes := by
    intro m' same
    rw [pollReplies_eq m' poll, List.flatMap_map, asked, same]
    rfl
  unfold reply
  rw [answer]
  simp only [sendLine, sendBytes, unread, queued, line]
  rw [replies _ rfl, List.flatMap_cons]
  simp

/-- A stand-in is plugged in, reads, answers `ok` and has nothing queued; these are its modules. -/
structure Attentive (m : StandIn) (modules : List Identity) : Prop where
  answer : m.answer = .ok
  queued : m.queued = []
  plugged : m.unplugged = false
  awake : m.hung = false
  modules : m.modules = modules

theorem Attentive.reply {m : StandIn} {modules : List Identity} (h : m.Attentive modules)
    (bytes : Bytes) : (m.reply bytes).Attentive modules := by
  unfold StandIn.reply
  rw [h.answer]
  exact ⟨h.answer, by show m.queued.tail = []; rw [h.queued]; rfl, h.plugged, h.awake, h.modules⟩

/-- What a stand-in has to send once a poll has been written to it. -/
theorem write_poll {m : StandIn} {modules : List Identity} (attentive : m.Attentive modules)
    (unread : m.unread = []) {bytes : Bytes} {address : UInt16} {flags : Flags} {n : Nat}
    (poll : Message.decode bytes = .ok (⟨address, flags, .pollRequest⟩, n)) (now : Nat) :
    ∃ m', FarEnd.write m now bytes = (.ok (), m') ∧
      m'.unread = (okLine :: (m.asked address).map fun i =>
        .message (replyPacket i)).flatMap Segment.bytes ∧ m'.Attentive modules := by
  let logged := { m with log := bytes :: m.log }
  have attentive' : logged.Attentive modules :=
    ⟨attentive.answer, attentive.queued, attentive.plugged, attentive.awake, attentive.modules⟩
  refine ⟨logged.reply bytes, if_neg (by simp [attentive.plugged]), ?_, attentive'.reply bytes⟩
  exact unread_reply (m := logged) attentive.answer unread attentive.queued poll

/-- Nothing is on the link of a session, and at its far end a stand-in answers `ok` and has nothing
else to send. -/
structure AtRest (s : Session StandIn) : Prop extends s.Holds [] where
  running : s.reader.running = true
  idle : s.reader.assembler = .idle
  answer : s.link.far.answer = .ok
  unread : s.link.far.unread = []
  queued : s.link.far.queued = []
  plugged : s.link.far.unplugged = false
  awake : s.link.far.hung = false

/-- The reader of a session stands between two frames, and at its far end a stand-in with these
modules has nothing to send. -/
structure Attends (s : Session StandIn) (modules : List Identity) : Prop where
  running : s.reader.running = true
  idle : s.reader.assembler = .idle
  unread : s.link.far.unread = []
  attentive : s.link.far.Attentive modules

namespace Attends

variable {s s' : Session StandIn} {modules : List Identity} (attends : Attends s modules)

include attends

theorem atRest (holds : s.Holds []) : AtRest s :=
  ⟨holds, attends.running, attends.idle, attends.attentive.answer, attends.unread,
    attends.attentive.queued, attends.attentive.plugged, attends.attentive.awake⟩

theorem waited (h : s.Waited s') : Attends s' modules :=
  ⟨h.running.trans attends.running, h.assembler.trans attends.idle, by rw [h.far, attends.unread],
    by rw [h.far]; exact attends.attentive⟩

end Attends

namespace AtRest

variable {s : Session StandIn}

theorem attends (rest : AtRest s) : Attends s s.link.far.modules :=
  ⟨rest.running, rest.idle, rest.unread, rest.answer, rest.queued, rest.plugged, rest.awake, rfl⟩

theorem pass (rest : AtRest s) (time : Nat) : AtRest { s with link := s.link.pass time } := by
  have holds := rest.toHolds.pass time
  rw [rest.pass_eq] at holds ⊢
  exact ⟨holds, rest.running, rest.idle, rest.answer, rest.unread, rest.queued, rest.plugged,
    rest.awake⟩

/-- All that a stand-in sends at a time is there at that time. -/
theorem exchange_eq {l : Link StandIn} (coming : l.coming = []) (plugged : l.far.unplugged = false)
    (awake : l.far.hung = false) : l.exchange =
      { l with
        reader := (l.reader.read l.now (.chunk l.far.unread)).read l.now .pause
        far := { l.far with unread := [] } } := by
  obtain ⟨now, reader, _, far⟩ := l
  dsimp only at coming plugged awake ⊢
  subst coming
  have sent : FarEnd.send far =
      ([(0, .chunk far.unread), (0, .pause)], { far with unread := [] }) := by
    show (if far.unplugged || far.hung then _ else _) = _
    rw [plugged, awake]
    rfl
  unfold Link.exchange
  rw [sent]
  simp [Link.settle, Link.takeIn, Link.byTime]

variable {bytes : Bytes} {address : UInt16} {flags : Flags} {n : Nat}

/-- Once a poll has been written, the `ok` and the replies are there. -/
theorem write (rest : AtRest s)
    (poll : Message.decode bytes = .ok (⟨address, flags, .pollRequest⟩, n))
    (room : (s.link.far.asked address).length < s.reader.ring.capacity) :
    ∃ s', Session.write bytes s = (.ok (), s') ∧ s'.Holds (⟨[0x6F, 0x6B], false⟩ ::
        (s.link.far.asked address).map fun i => (replyPacket i).frame) ∧
      s'.link.now = s.link.now ∧ Attends s' s.link.far.modules ∧
      s'.reader.ring.capacity = s.reader.ring.capacity := by
  obtain ⟨far, written, unread, attentive⟩ :=
    write_poll rest.attends.attentive rest.unread poll s.link.now
  have e : s.link.write bytes = (.ok (), Link.exchange { s.link with far }) := by
    unfold Link.write
    rw [rest.upToDate.settle_eq]
    dsimp only
    rw [written]
  rw [exchange_eq (l := { s.link with far }) rest.coming attentive.plugged attentive.awake] at e
  have frames : (s.reader.assembler.read (.chunk far.unread)).2 =
      ⟨[0x6F, 0x6B], false⟩ :: (s.link.far.asked address).map fun i => (replyPacket i).frame := by
    rw [Assembler.read, rest.idle, unread, Segment.feed_flatMap, List.flatMap_cons,
      List.flatMap_map]
    exact congrArg (_ :: ·) List.map_eq_flatMap.symm
  have read := Reader.frames_read (x := .chunk far.unread) rest.running
    (by rw [rest.frames, frames]; simpa using Nat.succ_le_of_lt room) s.link.now
  rw [rest.frames, List.nil_append, frames] at read
  have running := Reader.running_read (x := .chunk far.unread) rest.running (by simp) s.link.now
  have assembler := Reader.assembler_read (x := .pause) running s.link.now
  have capacity : ((s.reader.read s.link.now (.chunk far.unread)).read s.link.now
      .pause).ring.capacity = s.reader.ring.capacity := by
    rw [Reader.capacity_read, Reader.capacity_read]
  refine ⟨{ s with link := (s.link.write bytes).2 }, ?_, ?_⟩
  · unfold Session.write
    rw [e]
  · rw [e]
    exact ⟨⟨(Reader.frames_pause _ s.link.now).trans read, rest.coming⟩, rfl,
      ⟨Reader.running_read (x := .pause) running (by simp) s.link.now, assembler, rfl,
        attentive.answer, attentive.queued, attentive.plugged, attentive.awake,
        attentive.modules⟩, capacity⟩

/-- After a poll the session holds one reply for each module that was asked. -/
theorem sendAndConfirm (rest : AtRest s)
    (poll : Message.decode bytes = .ok (⟨address, flags, .pollRequest⟩, n))
    (room : (s.link.far.asked address).length < s.reader.ring.capacity) {timeout : Nat}
    (timeout_pos : 0 < timeout) :
    ∃ s', Session.sendAndConfirm bytes false timeout s = (.ok (), s') ∧
      s'.Holds ((s.link.far.asked address).map fun i => (replyPacket i).frame) ∧
      s'.link.now = s.link.now ∧ Attends s' s.link.far.modules ∧
      s'.reader.ring.capacity = s.reader.ring.capacity := by
  obtain ⟨s₁, written, holds, now, attends, capacity⟩ := rest.write poll room
  have accepted : Frame.verdict? ⟨[0x6F, 0x6B], false⟩ = some .accepted := by decide
  obtain ⟨s₂, e, holds, now', -, waited⟩ := holds.awaitUntil accepted
    (show s₁.link.now < s₁.link.now + timeout by omega) s₁.config.ackPoll
  refine ⟨s₂, ?_, holds, now'.trans now, attends.waited waited, waited.capacity.trans capacity⟩
  rw [Session.sendAndConfirm_of_write
    (show Session.write (Session.outgoing bytes false) s = _ from written), e]
  rfl

end AtRest

/-- A session that has just been set up with a stand-in that has nothing to send. -/
theorem atRest_attach (name : String) (config : SessionConfig) (modules : List Identity) :
    AtRest (.attach name config ({ modules } : StandIn)) := by
  unfold Session.attach Link.connect
  rw [AtRest.exchange_eq rfl rfl rfl]
  exact ⟨⟨rfl, rfl⟩, rfl, rfl, rfl, rfl, rfl, rfl, rfl⟩

theorem capacity_attach (name : String) (config : SessionConfig) (modules : List Identity) :
    (Session.attach name config ({ modules } : StandIn)).reader.ring.capacity =
      max config.capacity 1 := by
  unfold Session.attach Link.connect Session.reader
  rw [AtRest.exchange_eq rfl rfl rfl]
  rfl

end StandIn

end LightLink
