import LightLink.Proofs.Session.Polled
import LightLink.Settings.Basic

/-!
# Frames that are there when a wait begins

A wait looks at the time that is left before it looks at its ring. So a frame that is there decides
a wait at once, however short the wait and whether the reader still runs or not; only a wait of no
time never gets to look, and what is there stays there.

* `Link.take_of_settle`: what has come by now is taken without waiting;
* `Session.awaitUntil_atHand`: the first frame that decides is the answer, and those before it are
  dropped;
* `Session.getDataMessage_zero`: a wait of no time;
* `Session.getDataMessage_atHand`: waits for a binary frame where there is one.
-/

namespace LightLink

variable {σ α : Type}

/-- What has come by now is taken without waiting. -/
theorem Link.take_of_settle {l : Link σ} {a : Arrival} {as : List Arrival}
    (there : l.settle.reader.ring.toList = a :: as) (wait : Nat) :
    l.take wait = (some a, { l.settle with reader := l.settle.reader.take.2 }) := by
  have filled : l.settle.reader.ring.isEmpty = false := by simp [Ring.isEmpty, there]
  have at_once : l.await wait = l.settle := by
    unfold await
    rw [if_neg (by simp [filled])]
  unfold take
  rw [at_once]
  simp [Reader.take, Ring.take, there]

namespace Session

/-- The session after all that is due has been taken in. -/
def settle (s : Session σ) : Session σ := { s with link := s.link.settle }

variable {s : Session σ} {as rest : List Arrival} {a : Arrival}

theorem getMessage_of_settle (there : s.settle.reader.ring.toList = a :: as) (wait : Nat) :
    getMessage wait s = (.ok (some a.frame), s.settle.drain [a]) := by
  unfold getMessage
  rw [Link.take_of_settle there]
  rfl

theorem upToDate_settle (s : Session σ) : s.settle.link.UpToDate :=
  Link.upToDate_takeIn s.link.now s.link.reader s.link.coming

/-- A wait takes in what is due before its first look. -/
theorem awaitUntil_settle {deadline : Nat} (poll : Nat) (verdict : Frame → Option α)
    (within : s.link.now < deadline) (there : s.settle.reader.ring.toList = a :: as) :
    awaitUntil deadline poll verdict s = awaitUntil deadline poll verdict s.settle := by
  have within' : s.settle.link.now < deadline := within
  rw [awaitUntil_eq, awaitUntil_eq deadline poll verdict s.settle,
    if_neg (Nat.not_le_of_lt within), if_neg (Nat.not_le_of_lt within'), getMessage_of_settle there,
    getMessage_of_ring s.upToDate_settle there]

/-- The first frame that decides, of all that have come by now, is the answer to a wait, and those
before it are dropped. -/
theorem awaitUntil_atHand {deadline : Nat} (poll : Nat) {verdict : Frame → Option α} {v : α}
    (within : s.link.now < deadline) (ring : s.settle.reader.ring.toList = as ++ a :: rest)
    (undecided : ∀ b ∈ as, verdict b.frame = none) (decided : verdict a.frame = some v) :
    awaitUntil deadline poll verdict s = (.ok (some v), s.settle.drain (as ++ [a])) := by
  obtain ⟨b, bs, there⟩ : ∃ b bs, as ++ a :: rest = b :: bs := by cases as <;> exact ⟨_, _, rfl⟩
  rw [awaitUntil_settle poll verdict within (ring.trans there)]
  exact awaitUntil_ring poll s.upToDate_settle within ring undecided decided

/-- Taking frames out of the ring changes nothing but the ring and when the last one arrived. -/
theorem drain_concat (s : Session σ) (as : List Arrival) (a : Arrival) :
    s.drain (as ++ [a]) =
      { s with
        link := { s.link with
          reader := { s.reader with ring := (s.drain (as ++ [a])).reader.ring } }
        lastReceived := some a.time } := by
  induction as generalizing s with
  | nil => rfl
  | cons b as ih => exact ih _

/-! ## Binary frames -/

/-- A wait of no time finds nothing and takes nothing. -/
theorem getDataMessage_zero (s : Session σ) : getDataMessage 0 s = (.ok none, s) := by
  have late : s.link.now + 0 ≤ s.link.now := Nat.le_refl _
  rw [getDataMessage_eq, awaitUntil_eq, if_pos late]

theorem getDataMessage_of_pos {wait : Nat} (pos : 0 < wait)
    (ring : s.settle.reader.ring.toList = as ++ a :: rest)
    (text : ∀ b ∈ as, b.frame.isBinary = false) (binary : a.frame.isBinary = true) :
    getDataMessage wait s = (.ok (some a.frame), s.settle.drain (as ++ [a])) := by
  rw [getDataMessage_eq]
  refine awaitUntil_atHand _ (Nat.lt_add_of_pos_right pos) ring (fun b mem => ?_) ?_
  · rw [Frame.data?, text b mem]
    rfl
  · rw [Frame.data?, binary]
    rfl

theorem dataWait_eq_zero_iff (settings : Settings) :
    settings.sessionConfig.dataWait = 0 ↔ settings.relay.dataWaitMs = 0 := by
  show settings.relay.dataWaitMs.toNat * nanosPerMilli = 0 ↔ _
  rw [Nat.mul_eq_zero, or_iff_left (by decide), ← UInt64.toNat_inj]
  rfl

theorem dataWait_relayConfig {settings : Settings} {c : Relay.Config}
    (h : settings.relayConfig = .ok c) : c.dataWait = settings.sessionConfig.dataWait := by
  unfold Settings.relayConfig at h
  split at h
  · cases h
  · cases h
    rfl

/-- If a binary frame has come, a wait for one takes no time: it gives the first of them, the lines
before it are dropped, and nothing else changes. But a wait of no time gives none and leaves all as
it was, and the wait of a session or a relay is one just if its settings say 0. -/
theorem getDataMessage_atHand (s : Session σ) (wait : Nat) {lines rest : List Arrival} {a : Arrival}
    (ring : s.settle.reader.ring.toList = lines ++ a :: rest)
    (text : ∀ b ∈ lines, b.frame.isBinary = false) (binary : a.frame.isBinary = true) :
    (if wait = 0 then getDataMessage wait s = (.ok none, s)
      else ∃ s', getDataMessage wait s = (.ok (some a.frame), s') ∧ s'.reader.ring.toList = rest ∧
        s' = { s with
          link := { s.link.settle with
            reader := { s.link.settle.reader with ring := s'.reader.ring } }
          lastReceived := some a.time }) ∧
    ∀ settings : Settings,
      ((getDataMessage settings.sessionConfig.dataWait s).1 = .ok none ↔
        settings.relay.dataWaitMs = 0) ∧
      ∀ c, settings.relayConfig = .ok c → c.dataWait = settings.sessionConfig.dataWait := by
  refine ⟨?_, fun settings => ⟨?_, fun c => dataWait_relayConfig⟩⟩
  · split
    · rename_i none_left
      rw [none_left, getDataMessage_zero]
    · rename_i some_left
      have ring' : s.settle.reader.ring.toList = (lines ++ [a]) ++ rest := by
        rw [ring, List.append_assoc, List.singleton_append]
      exact ⟨_, getDataMessage_of_pos (Nat.pos_of_ne_zero some_left) ring text binary,
        (flow_drain ring').2, s.settle.drain_concat lines a⟩
  · rw [← dataWait_eq_zero_iff]
    constructor
    · intro nothing
      refine Nat.eq_zero_of_not_pos fun pos => ?_
      rw [getDataMessage_of_pos pos ring text binary] at nothing
      cases nothing
    · intro zero
      rw [zero, getDataMessage_zero]

/-- A module has sent a line and a message behind it. -/
def chatty : Session StandIn :=
  (attach "" {} ({} : StandIn)).act fun m =>
    (m.sendLine "noise").sendBytes [0xFC, 0, 2, 8, 2, 0, 1, 0]

/-- The message, as it is there when a wait begins. -/
def chattyMessage : Arrival := ⟨⟨[0xFC, 0, 2, 8, 2, 0, 1, 0], true⟩, 0⟩

theorem ring_chatty : chatty.settle.reader.ring.toList =
    [⟨⟨[0x6E, 0x6F, 0x69, 0x73, 0x65], false⟩, 0⟩] ++ chattyMessage :: [] := by
  unfold chatty act attach Link.act Link.connect
  rw [StandIn.AtRest.exchange_eq rfl rfl rfl, StandIn.AtRest.exchange_eq rfl rfl rfl]
  rfl

/-- The least wait there is finds the message behind the line, and no wait at all does not. -/
theorem getDataMessage_atHand_chatty :
    (∃ s', getDataMessage 1 chatty = (.ok (some chattyMessage.frame), s') ∧
      s'.reader.ring.toList = []) ∧ getDataMessage 0 chatty = (.ok none, chatty) := by
  obtain ⟨s', found, left, -⟩ := (getDataMessage_atHand chatty 1 ring_chatty (by decide) rfl).1
  exact ⟨⟨s', found, left⟩, (getDataMessage_atHand chatty 0 ring_chatty (by decide) rfl).1⟩

/-- A message that is there is not found with settings by which nothing is waited for. -/
theorem not_getDataMessage_atHand : ¬ ∀ (s : Session StandIn) (settings : Settings)
    (lines rest : List Arrival) (a : Arrival), s.settle.reader.ring.toList = lines ++ a :: rest →
      (∀ b ∈ lines, b.frame.isBinary = false) → a.frame.isBinary = true →
      (getDataMessage settings.sessionConfig.dataWait s).1 = .ok (some a.frame) := by
  intro all
  have found := all chatty { relay := { dataWaitMs := 0 } } _ _ _ ring_chatty (by decide) rfl
  rw [(dataWait_eq_zero_iff _).mpr rfl, getDataMessage_zero] at found
  cases found

end Session

end LightLink
