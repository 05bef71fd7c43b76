import LightLink.Proofs.Relay.LifeCycle
import LightLink.Proofs.Session.Polled

/-!
# Answers to requests for data

An answer to a request for data carries no mark of its own. Without bytes it says that the session
has found nothing, and with bytes it is a message, which begins with a start code: it can be taken
neither for the one nor for an acknowledgement, and it always fits into an item.

* `DataAnswer`: what a client gets for what a session has found, and `handleItem_data_iff`: it gets
  nothing else;
* `settle_ne_encode`: no item leads to an answer that does not fit;
* `afterHandled`: the session once some items have been handled;
* `Served.reply_iff`, `Life.reply_iff`: a reply is what the session gives when its item is reached;
* `run_dataAnswers`: all of this, of a relay.
-/

namespace LightLink.Relay

variable {σ : Type} [FarEnd σ] {c : Config} {s s' : Session σ}

/-! ## One request -/

/-- What a client gets for a request for data where this has been found. -/
structure DataAnswer (found : Option Frame) (answer : Bytes) : Prop where
  bytes : answer = (found.map Frame.data).getD []
  empty : answer = [] ↔ found = none
  start : answer ≠ [] → answer.head? = some startCode
  size : answer ≠ [] → 8 ≤ answer.length ∧ answer.length ≤ 255
  ne_ack : answer ≠ ackToken
  /-- It goes on the channel, and the client takes it out again, whatever follows. -/
  framed : ∃ framed, encodeItem answer = .ok framed ∧
    ∀ rest, ItemDecoder.next ⟨framed ++ rest⟩ = (.ok (some (.ofBytes answer)), ⟨rest⟩)

theorem framed_of_length_le {bs : Bytes} (h : bs.length ≤ maxItemSize) :
    ∃ framed, encodeItem bs = .ok framed ∧
      ∀ rest, ItemDecoder.next ⟨framed ++ rest⟩ = (.ok (some (.ofBytes bs)), ⟨rest⟩) :=
  ⟨itemBytes bs, encodeItem_of_le h, ItemDecoder.next_append h⟩

theorem dataAnswer_none : DataAnswer none [] where
  bytes := rfl
  empty := ⟨fun _ => rfl, fun _ => rfl⟩
  start := absurd rfl
  size := absurd rfl
  ne_ack := nofun
  framed := framed_of_length_le (Nat.zero_le _)

theorem dataAnswer_frame (p : Packet) : DataAnswer (some p.frame) p.bytes := by
  have start := p.head?_and_getElem?_three.1
  have some_bytes : p.bytes ≠ [] := fun none => by rw [none] at start; cases start
  have ne_ack : p.bytes ≠ ackToken := fun ack => by
    rw [ack] at start
    exact absurd start (by decide)
  exact ⟨rfl, ⟨fun none => absurd none some_bytes, nofun⟩, fun _ => start,
    fun _ => ⟨p.wireSize_le_length, p.length_le⟩, ne_ack,
    framed_of_length_le (Nat.le_trans p.length_le (by decide))⟩

/-- The session answers a request for data: it finds a message, or finds in time that there is
none, and the client gets this. -/
def AnswersData (c : Config) (s : Session σ) (answer : Bytes) : Prop :=
  ∃ found s', Session.getDataMessage c.dataWait s = (.ok found, s') ∧ DataAnswer found answer

omit [FarEnd σ] in
theorem dataAnswer_of_getDataMessage (sound : s.Sound) {wait : Nat} {found : Option Frame}
    (asked : Session.getDataMessage wait s = (.ok found, s')) :
    DataAnswer found ((found.map Frame.data).getD []) := by
  cases found with
  | none => exact dataAnswer_none
  | some f =>
    obtain ⟨p, rfl⟩ := sound.packet_of_getDataMessage asked
    exact dataAnswer_frame p

/-- What a session gives for a request for data is what it has found. -/
theorem asked_data_iff (sound : s.Sound) {answer : Bytes} :
    (∃ s', Asked c s dataToken (.ok answer) s') ↔ AnswersData c s answer := by
  constructor
  · rintro ⟨s', asked⟩
    generalize is_answer : Except.ok answer = r at asked
    cases asked with
    | @data found _ asked =>
      cases found with
      | error e => cases is_answer
      | ok found =>
        cases is_answer
        exact ⟨found, s', asked, dataAnswer_of_getDataMessage sound asked⟩
    | pass _ ne_data => exact absurd rfl ne_data
  · rintro ⟨found, s', asked, answers⟩
    rw [answers.bytes]
    exact ⟨s', .data asked⟩

/-- A request for data is answered exactly where the session answers it. -/
theorem handleItem_data_iff (sound : s.Sound) {answer : Bytes} :
    (handleItem c (.bytes dataToken) s).1 = .answer answer ↔ AnswersData c s answer := by
  obtain ⟨r, s', asked, handled⟩ := asked_handleItem c s (show dataToken ≠ exitToken by decide)
  rw [← asked_data_iff sound, handled]
  constructor
  · intro is_answer
    cases r with
    | error e => cases is_answer
    | ok reply =>
      cases is_answer
      exact ⟨s', asked⟩
  · rintro ⟨t, asked'⟩
    obtain ⟨rfl, rfl⟩ := asked.unique asked'
    rfl

/-- No item ends a connection because its answer does not fit into an item. -/
theorem settle_ne_encode (sound : s.Sound) (item : Item) (d : ItemDecoder)
    (room : Option (Nat × Fault)) (e : WireError) :
    (Connection.settle ⟨d, room, none⟩ (handleItem c item s).1).2.ended ≠
      some (.failed (.encode e)) := by
  intro ended
  cases item with
  | empty => cases ended
  | bytes bytes =>
    by_cases is_exit : bytes = exitToken
    · rw [handleItem, if_pos is_exit] at ended
      cases ended
    · obtain ⟨r, s', asked, handled⟩ := asked_handleItem c s is_exit
      rw [handled] at ended
      cases r with
      | error cause => cases ended
      | ok reply =>
        have short := asked.length_le sound rfl
        change (Connection.sendReply ⟨d, room, none⟩ reply).2.ended = _ at ended
        rcases room_cases room with takes | ⟨cause, rfl⟩
        · rw [Connection.sendReply_of_room short takes] at ended
          cases ended
        · rw [Connection.sendReply_of_no_room short rfl] at ended
          cases ended

/-! ## One item after the other -/

/-- The session once these items have been handled, one after the other. -/
def afterHandled (c : Config) (s : Session σ) (handled : List Handled) : Session σ :=
  handled.foldl (fun s h => (handleItem c h.item s).2) s

theorem afterHandled_append (c : Config) (s : Session σ) (front back : List Handled) :
    afterHandled c s (front ++ back) = afterHandled c (afterHandled c s front) back :=
  List.foldl_append

theorem Asked.afterHandled_cons {bytes : Bytes} {r : Except TransportError Bytes}
    (h : Asked c s bytes r s') (reply : Option Bytes) (handled : List Handled) :
    afterHandled c s (⟨.bytes bytes, reply⟩ :: handled) = afterHandled c s' handled := by
  obtain ⟨r', t, asked, is_handled⟩ := asked_handleItem c s h.ne_exitToken
  obtain ⟨-, rfl⟩ := h.unique asked
  rw [afterHandled, List.foldl_cons, is_handled]
  rfl

/-- A client takes so many replies and one more. -/
def Visit.Takes (client : Visit) (n : Nat) : Prop := ∀ r ∈ client.room, n < r.1

theorem lt_roomAfter_iff {room : Option (Nat × Fault)} {n : Nat} :
    (∀ r ∈ roomAfter room 1, n < r.1) ↔ ∀ r ∈ room, n + 1 < r.1 := by
  cases room with
  | none => exact ⟨nofun, nofun⟩
  | some r => simp [roomAfter, Nat.lt_sub_iff_add_lt]

namespace Served

variable {room : Option (Nat × Fault)} {items : List Item} {handled : List Handled}
  {ended : Option ConnectionEnd}

/-- The session in the end is the one that the items that were handled leave. -/
theorem afterHandled_eq (h : Served c room s items handled ended s') :
    afterHandled c s handled = s' := by
  induction h with
  | rest | empty | exit | exitUnheard => rfl
  | answered asked _ _ ih => rwa [asked.afterHandled_cons]
  | cutOff asked | failed asked => exact asked.afterHandled_cons _ []

/-- A reply is what the session gives when its item is reached, if the client still takes one. -/
theorem reply_iff (h : Served c room s items handled ended s') {j : Nat} {bytes : Bytes}
    {reply : Option Bytes} (is_handled : handled[j]? = some ⟨.bytes bytes, reply⟩)
    (ne_exit : bytes ≠ exitToken) (answer : Bytes) :
    reply = some answer ↔ (∀ r ∈ room, j < r.1) ∧
      ∃ t, Asked c (afterHandled c s (handled.take j)) bytes (.ok answer) t := by
  -- By what the connection comes to: an item of its own stands at `j = 0`, others further on.
  induction h generalizing j with
  | rest => cases is_handled
  | empty | exit | exitUnheard =>
    cases j with
    | zero => cases is_handled <;> exact absurd rfl ne_exit
    | succ j => cases is_handled
  | answered asked takes _ ih =>
    cases j with
    | zero =>
      cases is_handled
      refine ⟨fun is_answer => ?_, fun ⟨_, t, asked'⟩ => ?_⟩
      · cases is_answer
        exact ⟨takes, _, asked⟩
      · obtain ⟨same, -⟩ := asked.unique asked'
        exact congrArg some (Except.ok.inj same)
    | succ j =>
      rw [ih is_handled, lt_roomAfter_iff, List.take_succ_cons, asked.afterHandled_cons]
  | cutOff asked =>
    cases j with
    | zero =>
      cases is_handled
      exact ⟨nofun, fun ⟨takes, _⟩ => absurd (takes _ rfl) (Nat.lt_irrefl 0)⟩
    | succ j => cases is_handled
  | failed asked =>
    cases j with
    | zero =>
      cases is_handled
      exact ⟨nofun, fun ⟨_, t, asked'⟩ => nomatch (asked.unique asked').1⟩
    | succ j => cases is_handled

end Served

/-- A reply is what the session gives when its item is reached, behind all items of the clients
before and those of its own client before it. -/
theorem Life.reply_iff {clients : List (Except Fault Visit)} {r : Run}
    (h : Life c clients s r s') {i j : Nat} {handled : List Handled} {bytes : Bytes}
    {reply : Option Bytes} (is_connection : r.handled[i]? = some handled)
    (is_handled : handled[j]? = some ⟨.bytes bytes, reply⟩) (ne_exit : bytes ≠ exitToken) :
    ∃ client, clients[i]? = some (.ok client) ∧ ∀ answer, reply = some answer ↔ client.Takes j ∧
      ∃ t, Asked c (afterHandled c s ((r.handled.take i).flatten ++ handled.take j)) bytes
        (.ok answer) t := by
  induction h generalizing i with
  | listens | refuses => cases is_connection
  | stops served | fails served =>
    cases i with
    | zero =>
      cases is_connection
      exact ⟨_, rfl, served.reply_iff is_handled ne_exit⟩
    | succ i => cases is_connection
  | @loses _ _ _ first _ _ _ _ _ served _ _ ih =>
    cases i with
    | zero =>
      cases is_connection
      exact ⟨_, rfl, served.reply_iff is_handled ne_exit⟩
    | succ i =>
      obtain ⟨client, is_client, iff⟩ := ih is_connection
      refine ⟨client, is_client, fun answer => ?_⟩
      rw [iff, List.take_succ_cons, List.flatten_cons, List.append_assoc,
        afterHandled_append c _ first, served.afterHandled_eq]

/-! ## A relay -/

theorem sound_handleItem (sound : s.Sound) (item : Item) : (handleItem c item s).2.Sound := by
  cases item with
  | empty => exact sound
  | bytes bytes =>
    by_cases is_exit : bytes = exitToken
    · rw [handleItem, if_pos is_exit]
      exact sound
    · obtain ⟨r, s', asked, handled⟩ := asked_handleItem c s is_exit
      rw [handled]
      exact asked.sound sound

theorem sound_afterHandled (sound : s.Sound) (handled : List Handled) :
    (afterHandled c s handled).Sound := by
  induction handled generalizing s with
  | nil => exact sound
  | cons h handled ih => exact ih (sound_handleItem sound h.item)

/-- An answer to a request for data can be taken for nothing else, and always fits. Whatever the
module sends and whatever was done with the session before, by the relay or by others that share it,
a request is answered exactly where the session answers it, with no bytes exactly if it has found
nothing, and otherwise with a message of 8 to 255 bytes that begins with a start code; and no item
leads to an answer that does not fit. On each connection of a relay, a client that takes the reply
to a request gets the answer of the session as the items before have left it; and a relay never ends
because an answer does not fit. -/
theorem run_dataAnswers (c : Config) (clients : List (Except Fault Visit)) (name : String)
    (config : SessionConfig) (far : σ) (events : List (Session.Event σ)) :
    let s := (Session.attach name config far).after events
    let r := (run c clients s).1
    (∀ answer, (handleItem c (.bytes dataToken) s).1 = .answer answer ↔ AnswersData c s answer) ∧
    (∀ (item : Item) (d : ItemDecoder) (room : Option (Nat × Fault)) (e : WireError),
      (Connection.settle ⟨d, room, none⟩ (handleItem c item s).1).2.ended ≠
        some (.failed (.encode e))) ∧
    (∀ (i : Nat) (handled : List Handled), r.handled[i]? = some handled →
      ∀ (j : Nat) (reply : Option Bytes), handled[j]? = some ⟨.bytes dataToken, reply⟩ →
        ∃ client, clients[i]? = some (.ok client) ∧ ∀ answer, reply = some answer ↔
          client.Takes j ∧
          AnswersData c (afterHandled c s ((r.handled.take i).flatten ++ handled.take j)) answer) ∧
    ∀ e, r.ended ≠ some (.error (.encode e)) := by
  intro s r
  have sound : s.Sound := Session.sound_after name config far events
  have life : Life c clients s r (run c clients s).2 := exists_life c clients sound
  refine ⟨fun answer => handleItem_data_iff sound, settle_ne_encode sound,
    fun i handled is_connection j reply is_handled => ?_, fun e ended => ?_⟩
  · obtain ⟨client, is_client, iff⟩ := life.reply_iff is_connection is_handled (by decide)
    refine ⟨client, is_client, fun answer => ?_⟩
    rw [iff, asked_data_iff (sound_afterHandled sound _)]
  · rcases life.cause ended with ⟨cause, is_cause, -⟩ | ⟨cause, -, -, -, is_cause, -⟩
    · cases is_cause
    · cases is_cause

/-- A client polls a module and then requests data twice: it gets the module's reply first, and then
an item without bytes. -/
theorem run_dataAnswers_poll :
    let identity := sampleIdentity 1 120
    let s := Session.attach "" {} ({ modules := [identity] } : StandIn)
    let poll : Bytes := [0xFC, 0, 2, 8, 2, 2, 120, 0]
    let reply := (StandIn.replyPacket identity).bytes
    let client : Visit := { pieces := [itemBytes poll, itemBytes dataToken, itemBytes dataToken] }
    let polled : Handled := ⟨.bytes poll, some ackToken⟩
    let fetched : Handled := ⟨.bytes dataToken, some reply⟩
    (run {} [.ok client] s).1.handled = [[polled, fetched, ⟨.bytes dataToken, some []⟩]] ∧
      AnswersData {} (afterHandled {} s [polled]) reply ∧
      AnswersData {} (afterHandled {} s [polled, fetched]) [] := by
  intro identity s poll reply client polled fetched
  have sound : s.Sound := Session.sound_after "" {} ({ modules := [identity] } : StandIn) []
  have rest : StandIn.AtRest s := StandIn.atRest_attach ..
  have is_poll : Message.decode poll = .ok (⟨120, .response, .pollRequest⟩, 8) := rfl
  have room : (s.link.far.asked 120).length < s.reader.ring.capacity := by
    rw [StandIn.capacity_attach]
    decide
  obtain ⟨s₁, confirmed, holds, -, attends, -⟩ :=
    rest.sendAndConfirm is_poll room (show 0 < seconds 10 by decide)
  obtain ⟨s₂, found, holds, -, waited⟩ :=
    Session.Holds.getDataMessage holds rfl (show 0 < millis 250 by decide)
  obtain ⟨s₃, none_left, -, -⟩ :=
    holds.getDataMessage_nil (waited.running.trans attends.running) (millis 250)
  have sent : Asked {} s poll (.ok ackToken) s₁ :=
    .pass (r := .ok ()) (by decide) (by decide) confirmed
  have first : Asked {} s₁ dataToken (.ok reply) s₂ :=
    .data (r := .ok (some (StandIn.replyPacket identity).frame)) found
  have second : Asked {} s₂ dataToken (.ok []) s₃ := .data (r := .ok none) none_left
  have items : client.items = [.bytes poll, .bytes dataToken, .bytes dataToken] :=
    Visit.items_eq [poll, dataToken, dataToken] (by decide) rfl
  obtain ⟨handled, ended, s', e, served⟩ := exists_serve {} client sound
  obtain ⟨cause, is_lost⟩ := client.exists_loss
  rw [items] at served
  obtain ⟨rfl, rfl, rfl⟩ := served.unique
    (.answered sent nofun (.answered first nofun (.answered second nofun .rest)))
  rw [Option.getD_none, is_lost] at e
  have all : (run {} [.ok client] s).1.handled =
      [[polled, fetched, ⟨.bytes dataToken, some []⟩]] := by
    rw [run_of_lost e]
    rfl
  obtain ⟨-, -, replies, -⟩ :=
    run_dataAnswers {} [.ok client] "" {} ({ modules := [identity] } : StandIn) []
  have connection := congrArg (·[0]?) all
  obtain ⟨_, -, iff⟩ := replies 0 _ connection 1 (some reply) rfl
  obtain ⟨_, -, iff'⟩ := replies 0 _ connection 2 (some []) rfl
  exact ⟨all, ((iff reply).mp rfl).2, ((iff' []).mp rfl).2⟩

end LightLink.Relay
