import LightLink.Proofs.Relay.Pairing
import LightLink.Proofs.Scan.Polls

/-!
# A session that a relay shares

A relay and a scanner share a session. Whoever uses it holds it meanwhile: the scanner for a poll
and for the wait for what comes after it, the relay for a command that it passes on and again for
each request for data. So a poll can come between a command and the request for what it brought.

* `Use`: what somebody does while holding the session; `performAll`: such uses in any order;
* `Mailbox`: one place for what a module has sent, which every write clears;
* `performAll_serveAll`: what each use gets, and `performAll_own`: where a module sends at most one
  message behind an answer, a client gets only what its own commands have brought;
* `not_performAll_kept`: a poll can drop what a command of the client has brought.
-/

namespace LightLink.Relay

/-- What somebody does while holding the session: the relay passes on a command or answers a
request for data, or the scanner polls an address. -/
inductive Use where
  | forward (bytes : Bytes)
  | data
  | poll (address : UInt16)
  deriving DecidableEq, Repr

/-- It writes to the module. -/
def Use.writes : Use → Bool
  | data => false
  | _ => true

/-- What the client of the relay or the scanner gets. -/
inductive Share where
  | client (outcome : Outcome)
  | scanner (outcome : PollOutcome)

section Uses

variable {σ : Type} [FarEnd σ]

/-- Uses the session. -/
def Use.perform (relay : Config) (scan : ScanConfig) : Use → StateM (Session σ) Share
  | forward bytes => .client <$> Relay.forward relay bytes
  | data => .client <$> handleData relay
  | poll address => .scanner <$> Session.pollAddress scan address

/-- Uses the session one time after the other, each time after a pause. -/
def performAll (relay : Config) (scan : ScanConfig) :
    List (Nat × Use) → StateM (Session σ) (List Share)
  | [] => pure []
  | (time, use) :: uses => do
    Session.pause time
    let share ← use.perform relay scan
    let shares ← performAll relay scan uses
    pure (share :: shares)

end Uses

/-- How often a module has been written to, and which messages are left of its last answer. -/
structure Mailbox where
  written : Nat := 0
  left : List Packet := []

namespace Mailbox

/-- What a use gets and what it leaves: a write clears what was left of the answer before. -/
def serve (reactions : Nat → Reaction) (b : Mailbox) : Use → Share × Mailbox
  | .forward _ =>
    (.client (.answer ackToken), ⟨b.written + 1, (reactions b.written).packets⟩)
  | .data =>
    (.client (.answer ((b.left.head?.map Packet.bytes).getD [])), ⟨b.written, b.left.tail⟩)
  | .poll _ =>
    (.scanner (pollOutcome ((reactions b.written).packets.head?.map Packet.frame)),
      ⟨b.written + 1, (reactions b.written).packets.tail⟩)

/-- What uses get, one after the other. -/
def serveAll (reactions : Nat → Reaction) (b : Mailbox) : List Use → List Share
  | [] => []
  | use :: uses => (b.serve reactions use).1 :: serveAll reactions (b.serve reactions use).2 uses

end Mailbox

/-- A relay and a scanner that share a session with a module. -/
structure Shared where
  relay : Config
  scan : ScanConfig
  session : SessionConfig
  /-- How the module answers each write. -/
  reactions : Nat → Reaction

/-- The module answers `ok` in time and sends what follows before anybody who asks for it gives up,
and there is room for all that it sends. -/
structure Shared.Sound (x : Shared) : Prop where
  ok : ∀ n, (x.reactions n).answer = .ok
  room : ∀ n, (Responder.packetsBefore x.reactions n).length + (x.reactions n).size ≤
    max x.session.capacity 1
  prompt : ∀ n, Responder.trailingBefore x.reactions n + (x.reactions n).delay <
    min x.relay.ackTimeout x.scan.ackTimeout
  in_time : ∀ n, Responder.trailingBefore x.reactions n < min x.relay.dataWait x.scan.dataWait

/-! ## One use -/

section Step

variable {x : Shared} {s : Session Responder} {log : List Bytes} {left : List Packet}

/-- A session does for a use what the mailbox does. -/
theorem perform_serving (sound : x.Sound) {b : Mailbox}
    (serving : s.Serving x.reactions (max x.session.capacity 1) log b.left)
    (written : log.length = b.written) (use : Use) : ∃ s' log',
      use.perform x.relay x.scan s = ((b.serve x.reactions use).1, s') ∧
      s'.Serving x.reactions (max x.session.capacity 1) log' (b.serve x.reactions use).2.left ∧
      log'.length = (b.serve x.reactions use).2.written := by
  have prompt := sound.prompt log.length
  have in_time := sound.in_time log.length
  cases use with
  | forward bytes =>
    obtain ⟨s', confirmed, serving, -, -⟩ :=
      serving.sendAndConfirm_ok sound.room (sound.ok _) (show _ < x.relay.ackTimeout by omega) bytes
    refine ⟨s', log ++ [bytes], ?_, ?_, ?_⟩
    · show (Share.client (forward x.relay bytes s).1, (forward x.relay bytes s).2) = _
      rw [forward_ok confirmed]
      rfl
    · rw [written] at serving
      exact serving
    · rw [List.length_append, written]
      rfl
  | data =>
    obtain ⟨s', taken, serving⟩ :=
      serving.getDataMessage_head? (show _ < x.relay.dataWait by omega)
    refine ⟨s', log, ?_, serving, written⟩
    show (Share.client (handleData x.relay s).1, (handleData x.relay s).2) = _
    rw [handleData_ok taken, Option.map_map]
    rfl
  | poll address =>
    have waited := sound.in_time (log.length + 1)
    obtain ⟨s', bytes, polled, serving⟩ := serving.pollAddress sound.room (sound.ok _)
      (show _ < x.scan.ackTimeout by omega)
      (show (x.reactions log.length).trailing < x.scan.dataWait from
        Nat.lt_of_lt_of_le waited (Nat.min_le_right ..)) address
    rw [written] at polled serving
    refine ⟨s', log ++ [bytes], ?_, serving, ?_⟩
    · show (Share.scanner (Session.pollAddress x.scan address s).1,
        (Session.pollAddress x.scan address s).2) = _
      rw [polled]
      rfl
    · rw [List.length_append, written]
      rfl

end Step

/-! ## Any number of uses -/

/-- Where a module sends at most one message behind an answer, a request for data gets nothing that
a poll has brought. -/
theorem Mailbox.serveAll_own {reactions : Nat → Reaction}
    (single : ∀ n, (reactions n).packets.length ≤ 1) {b : Mailbox} {before : List Use}
    (count : before.length = b.written)
    (own : ∀ p ∈ b.left, ∃ n bytes, before[n]? = some (.forward bytes) ∧
      p ∈ (reactions n).packets) (uses : List Use) {i : Nat} {bs : Bytes}
    (asked : uses[i]? = some .data)
    (got : (b.serveAll reactions uses)[i]? = some (.client (.answer bs))) :
    bs = [] ∨ ∃ n bytes, (before ++ uses.filter Use.writes)[n]? = some (.forward bytes) ∧
      ∃ p ∈ (reactions n).packets, bs = p.bytes := by
  induction uses generalizing b before i with
  | nil => cases asked
  | cons use uses ih =>
    cases i with
    | zero =>
      obtain rfl := Option.some.inj asked
      obtain ⟨written, _ | ⟨p, left⟩⟩ := b
      · cases got
        exact .inl rfl
      · cases got
        obtain ⟨n, bytes, is_forward, mem⟩ := own p (.head _)
        obtain ⟨lt, -⟩ := List.getElem?_eq_some_iff.mp is_forward
        exact .inr ⟨n, bytes, by rw [List.getElem?_append_left lt, is_forward], p, mem, rfl⟩
    | succ i =>
      cases use with
      | forward bytes =>
        have split : before ++ (Use.forward bytes :: uses).filter Use.writes =
            before ++ [.forward bytes] ++ uses.filter Use.writes := by
          rw [List.append_assoc]
          rfl
        rw [split]
        refine ih (b := ⟨b.written + 1, (reactions b.written).packets⟩)
          (by rw [List.length_append, count]; rfl) (fun p mem => ?_) asked got
        exact ⟨b.written, bytes, by rw [← count, List.getElem?_concat_length], mem⟩
      | data =>
        exact ih (b := ⟨b.written, b.left.tail⟩) count
          (fun p mem => own p (List.mem_of_mem_tail mem)) asked got
      | poll address =>
        have split : before ++ (Use.poll address :: uses).filter Use.writes =
            before ++ [.poll address] ++ uses.filter Use.writes := by
          rw [List.append_assoc]
          rfl
        -- The poll takes the one message that it brought, so a client finds none of it.
        have none_left : (reactions b.written).packets.tail = [] := by
          have length := single b.written
          rw [← List.length_eq_zero_iff, List.length_tail]
          omega
        rw [split]
        refine ih (b := ⟨b.written + 1, (reactions b.written).packets.tail⟩)
          (by rw [List.length_append, count]; rfl) (fun p mem => ?_) asked got
        change p ∈ (reactions b.written).packets.tail at mem
        rw [none_left] at mem
        cases mem

/-- A session does for any uses what the mailbox does. -/
theorem performAll_serving {x : Shared} (sound : x.Sound) {s : Session Responder}
    {log : List Bytes} {b : Mailbox}
    (serving : s.Serving x.reactions (max x.session.capacity 1) log b.left)
    (written : log.length = b.written) (uses : List (Nat × Use)) :
    (performAll x.relay x.scan uses s).1 = b.serveAll x.reactions (uses.map Prod.snd) := by
  induction uses generalizing s log b with
  | nil => rfl
  | cons u uses ih =>
    obtain ⟨time, use⟩ := u
    obtain ⟨s', log', performed, serving, written⟩ :=
      perform_serving sound (serving.pass time) written use
    have e : (performAll x.relay x.scan ((time, use) :: uses) s).1 =
        (use.perform x.relay x.scan { s with link := s.link.pass time }).1 ::
          (performAll x.relay x.scan uses
            (use.perform x.relay x.scan { s with link := s.link.pass time }).2).1 := rfl
    rw [e, performed]
    exact congrArg (_ :: ·) (ih serving written)

/-- However a relay and a scanner take turns, each command is acknowledged, each poll gets the first
message behind the answer to itself, and each request for data gets the first that is left of the
answer to whatever was written last, be it a command of the client or a poll. -/
theorem performAll_serveAll (x : Shared) (sound : x.Sound) (name : String)
    (uses : List (Nat × Use)) :
    (performAll x.relay x.scan uses
        (.attach name x.session ({ reactions := x.reactions } : Responder))).1 =
      ({} : Mailbox).serveAll x.reactions (uses.map Prod.snd) :=
  performAll_serving sound (Session.serving_attach name x.session x.reactions) rfl uses

/-- However a relay and a scanner take turns, where a module sends at most one message behind an
answer all that the client gets are messages behind the answers to its own commands. -/
theorem performAll_own (x : Shared) (sound : x.Sound)
    (single : ∀ n, (x.reactions n).packets.length ≤ 1) (name : String) (uses : List (Nat × Use))
    {i : Nat} {bs : Bytes} (asked : (uses.map Prod.snd)[i]? = some .data)
    (got : (performAll x.relay x.scan uses
      (.attach name x.session ({ reactions := x.reactions } : Responder))).1[i]? =
        some (.client (.answer bs))) :
    bs = [] ∨ ∃ n bytes,
      ((uses.map Prod.snd).filter Use.writes)[n]? = some (.forward bytes) ∧
        ∃ p ∈ (x.reactions n).packets, bs = p.bytes := by
  have run := performAll_serving sound
    (b := {}) (Session.serving_attach name x.session x.reactions) rfl uses
  rw [run] at got
  have none : ([] : List Use).length = (0 : Nat) := rfl
  exact Mailbox.serveAll_own (b := {}) single none (fun p mem => by cases mem) _ asked got

/-! ### A poll between a command and its reply -/

/-- A module that answers everything `ok`, with one message behind it. -/
def talkative (p : Packet) : Shared where
  relay := {}
  scan := {}
  session := {}
  reactions _ := okWith p

theorem talkative_sound (p : Packet) : (talkative p).Sound := by
  have within : (okWith p).delay + (okWith p).trailing = 55 := (okWith p).delay_add_trailing
  have before : ∀ n, Responder.trailingBefore (talkative p).reactions n ≤ 55 := by
    intro n
    cases n with
    | zero => exact Nat.zero_le _
    | succ n =>
      show (okWith p).trailing ≤ 55
      omega
  refine ⟨fun _ => rfl, fun n => ?_, fun n => Nat.lt_min.mpr ?_, fun n => Nat.lt_min.mpr ?_⟩
  · cases n with
    | zero => show 0 + 2 ≤ 1000; decide
    | succ n => show 1 + 2 ≤ 1000; decide
  · have le := before n
    have prompt : Responder.trailingBefore (talkative p).reactions n + (okWith p).delay <
        seconds 10 := by
      have lt : 110 < seconds 10 := by decide
      omega
    exact ⟨prompt, prompt⟩
  · have in_time : Responder.trailingBefore (talkative p).reactions n < millis 250 :=
      Nat.lt_of_le_of_lt (before n) (by decide)
    exact ⟨in_time, in_time⟩

/-- A reply to a poll. -/
def polled : Packet := .ofMessage (show (Message.poll 1).encode = .ok _ from rfl)

/-- The command's message is dropped: the poll gets its own, and nothing is left for the client. -/
theorem performAll_serveAll_talkative : (talkative polled).Sound ∧
    (performAll {} {} [(0, .forward [0x78]), (5, .poll 120), (0, .data)]
      (.attach "" {} ({ reactions := (talkative polled).reactions } : Responder))).1 =
      [.client (.answer ackToken), .scanner (pollOutcome (some polled.frame)),
        .client (.answer [])] :=
  ⟨talkative_sound polled, performAll_serveAll (talkative polled) (talkative_sound polled) "" _⟩

/-- A request for data does not always get what the command before it has brought. -/
theorem not_performAll_kept : ¬ ∀ x : Shared, x.Sound → ∀ (name : String) (bytes : Bytes)
    (addresses : List UInt16),
    (performAll x.relay x.scan
      ((0, .forward bytes) :: addresses.map (fun a => (0, .poll a)) ++ [(0, .data)])
      (.attach name x.session ({ reactions := x.reactions } : Responder))).1.getLast? =
      some (.client (.answer (((x.reactions 0).packets.head?.map Packet.bytes).getD []))) := by
  intro kept
  have kept := kept (talkative polled) (talkative_sound polled) "" [0x78] [120]
  have run := performAll_serving (talkative_sound polled) (b := {})
    (Session.serving_attach "" {} (talkative polled).reactions) rfl
    [(0, .forward [0x78]), (0, .poll 120), (0, .data)]
  have last := (congrArg List.getLast? run).symm.trans kept
  cases last

end LightLink.Relay
