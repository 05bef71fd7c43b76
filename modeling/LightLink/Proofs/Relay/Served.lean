import LightLink.Proofs.Relay.Stream
import LightLink.Proofs.Relay.Turns
import LightLink.Proofs.Session.Sound
import LightLink.Proofs.Session.Written

/-!
# What a relay makes of a stream

A relay handles the items of a client's stream one after the other, and each of them is answered
before the next is looked at. What a connection comes to depends on the items and on what the
session says to them, and not on how the stream is cut.

* `Asked`: what a session is asked for an item and what it gives;
* `Served`: what a connection comes to on which these items come;
* `Served.append`, `Served.unique`: items one after the other, and that there is nothing else that a
  connection can come to;
* `Served.written`: what the module is written;
* `serve_served`: all of this, of a client.
-/

namespace LightLink.Relay

variable {σ : Type} [FarEnd σ] {c : Config} {s s' s'' : Session σ}

/-! ## One item -/

/-- What a session is asked for the bytes of an item, and what it gives: a reply or an error. -/
inductive Asked (c : Config) (s : Session σ) :
    Bytes → Except TransportError Bytes → Session σ → Prop where
  /-- A request for data gets the bytes of a frame, or no bytes. -/
  | data {r : Except TransportError (Option Frame)} {s' : Session σ} :
    Session.getDataMessage c.dataWait s = (r, s') →
    Asked c s dataToken (r.map fun frame => (frame.map Frame.data).getD []) s'
  /-- Anything else is sent as it is, and is acknowledged once the module has confirmed it. -/
  | pass {bytes : Bytes} {r : Except TransportError Unit} {s' : Session σ} :
    bytes ≠ exitToken → bytes ≠ dataToken →
    Session.sendAndConfirm bytes false c.ackTimeout s = (r, s') →
    Asked c s bytes (r.map fun () => ackToken) s'

/-- What is sent to the module for an item. -/
def Item.forwarded : Item → List Bytes
  | .empty => []
  | .bytes bs => if bs = exitToken ∨ bs = dataToken then [] else [bs]

namespace Asked

variable {bytes : Bytes} {r r' : Except TransportError Bytes}

theorem ne_exitToken (h : Asked c s bytes r s') : bytes ≠ exitToken := by
  cases h with
  | data => decide
  | pass ne_exit => exact ne_exit

/-- A session gives one answer. -/
theorem unique (h : Asked c s bytes r s') (h' : Asked c s bytes r' s'') : r = r' ∧ s' = s'' := by
  cases h with
  | data asked =>
    cases h' with
    | data asked' =>
      obtain ⟨rfl, rfl⟩ := Prod.mk.inj (asked.symm.trans asked')
      exact ⟨rfl, rfl⟩
    | pass _ ne_data => exact absurd rfl ne_data
  | pass _ ne_data asked =>
    cases h' with
    | data => exact absurd rfl ne_data
    | pass _ _ asked' =>
      obtain ⟨rfl, rfl⟩ := Prod.mk.inj (asked.symm.trans asked')
      exact ⟨rfl, rfl⟩

theorem sound (h : Asked c s bytes r s') (sound : s.Sound) : s'.Sound := by
  cases h with
  | data asked =>
    have kept : (s.getDataMessage c.dataWait).2.Sound :=
      Reader.kept_sound.event sound (.getDataMessage c.dataWait)
    rwa [asked] at kept
  | pass _ _ asked =>
    have kept : (s.sendAndConfirm bytes false c.ackTimeout).2.Sound :=
      Reader.kept_sound.sendAndConfirm sound ..
    rwa [asked] at kept

/-- A reply is not too long for an item. -/
theorem length_le {reply : Bytes} (h : Asked c s bytes r s') (sound : s.Sound)
    (is_reply : r = .ok reply) : reply.length ≤ maxItemSize := by
  cases h with
  | @data r _ asked =>
    match r, is_reply, asked with
    | .ok none, rfl, _ => exact Nat.zero_le _
    | .ok (some f), rfl, asked =>
      obtain ⟨p, rfl⟩ := sound.packet_of_getDataMessage asked
      exact Nat.le_trans p.length_le (by decide)
  | @pass _ r =>
    match r, is_reply with
    | .ok (), rfl => decide

/-- The module is written what is forwarded, unless just that fails. -/
theorem written (h : Asked c s bytes r s') (log : WriteLog σ) :
    ∃ unwritten, log.of s' ++ unwritten = log.of s ++ (Item.bytes bytes).forwarded ∧
      unwritten.length = (Session.unwritten r).toNat := by
  cases h with
  | @data r _ asked =>
    refine ⟨[], ?_, ?_⟩
    · have same := log.of_getDataMessage c.dataWait s
      rw [asked] at same
      exact congrArg (· ++ []) same
    · rw [Session.unwritten_map]
      cases r with
      | ok => rfl
      | error e =>
        rw [Session.getDataMessage_eq] at asked
        obtain ⟨name, rfl⟩ := Session.error_of_awaitUntil asked
        rfl
  | @pass _ r _ ne_exit ne_data asked =>
    have forwarded : (Item.bytes bytes).forwarded = [bytes] :=
      if_neg (not_or.mpr ⟨ne_exit, ne_data⟩)
    rw [log.of_sendAndConfirm asked, Session.unwritten_map, forwarded]
    cases Session.unwritten r with
    | true => exact ⟨[bytes], by simp, rfl⟩
    | false => exact ⟨[], by simp [Session.outgoing], rfl⟩

end Asked

/-- The relay answers an item as the session does, and ends the connection if the session fails. -/
theorem asked_handleItem (c : Config) (s : Session σ) {bytes : Bytes} (h : bytes ≠ exitToken) :
    ∃ r s', Asked c s bytes r s' ∧ handleItem c (.bytes bytes) s =
      (match r with | .ok reply => .answer reply | .error e => .failed e, s') := by
  by_cases is_data : bytes = dataToken
  · subst is_data
    rw [handleItem, if_neg h, if_pos rfl]
    cases asked : Session.getDataMessage c.dataWait s with
    | mk r s' =>
      refine ⟨_, _, .data asked, ?_⟩
      unfold handleData ExceptT.run
      rw [bind_apply, asked]
      cases r <;> rfl
  · rw [handleItem, if_neg h, if_neg is_data]
    cases asked : Session.sendAndConfirm bytes false c.ackTimeout s with
    | mk r s' =>
      refine ⟨_, _, .pass h is_data asked, ?_⟩
      cases r with
      | ok => exact forward_ok asked
      | error => exact forward_error asked

/-! ## One item after the other -/

/-- How many more replies a client takes once it has taken some. -/
def roomAfter (room : Option (Nat × Fault)) (replies : Nat) : Option (Nat × Fault) :=
  room.map fun r => (r.1 - replies, r.2)

/-- What a connection comes to, if these items come on it and the client takes so many replies: what
is handled, how the connection ends unless it goes on, and the session then. -/
inductive Served (c : Config) : Option (Nat × Fault) → Session σ → List Item → List Handled →
    Option ConnectionEnd → Session σ → Prop where
  /-- All items have been handled. -/
  | rest {room s} : Served c room s [] [] none s
  | empty {room s items} :
    Served c room s (.empty :: items) [⟨.empty, none⟩] (some (.lost .emptyItem)) s
  /-- A request to stop is acknowledged. -/
  | exit {room s items} : (∀ r ∈ room, 0 < r.1) →
    Served c room s (.bytes exitToken :: items) [⟨.bytes exitToken, some ackToken⟩] (some .exit) s
  /-- The relay stops also if the client does not take the acknowledgement. -/
  | exitUnheard {cause s items} :
    Served c (some (0, cause)) s (.bytes exitToken :: items) [⟨.bytes exitToken, none⟩]
      (some .exit) s
  /-- Anything else that the session answers gets that answer, and then the next item is handled. -/
  | answered {room s s' s'' bytes reply items handled ended} :
    Asked c s bytes (.ok reply) s' → (∀ r ∈ room, 0 < r.1) →
    Served c (roomAfter room 1) s' items handled ended s'' →
    Served c room s (.bytes bytes :: items) (⟨.bytes bytes, some reply⟩ :: handled) ended s''
  /-- The client does not take the answer. -/
  | cutOff {cause s s' bytes reply items} : Asked c s bytes (.ok reply) s' →
    Served c (some (0, cause)) s (.bytes bytes :: items) [⟨.bytes bytes, none⟩]
      (some (.lost (.writeFailed cause))) s'
  /-- The session fails, and the client gets no answer. -/
  | failed {room s s' bytes e items} : Asked c s bytes (.error e) s' →
    Served c room s (.bytes bytes :: items) [⟨.bytes bytes, none⟩]
      (some (.failed (.transport e))) s'

/-- A connection ended as its last item could not be written to the module. -/
def ConnectionEnd.unwritten : ConnectionEnd → Bool
  | failed (.transport e) => e.isWriteFailed
  | _ => false

/-- A client takes another reply or it does not. -/
theorem room_cases (room : Option (Nat × Fault)) :
    (∀ r ∈ room, 0 < r.1) ∨ ∃ cause, room = some (0, cause) := by
  match room with
  | none => exact .inl nofun
  | some (0, cause) => exact .inr ⟨cause, rfl⟩
  | some (n + 1, cause) =>
    refine .inl fun r is_room => ?_
    obtain rfl := Option.some.inj is_room
    exact Nat.succ_pos n

theorem roomAfter_roomAfter (room : Option (Nat × Fault)) (m n : Nat) :
    roomAfter (roomAfter room m) n = roomAfter room (m + n) := by
  cases room with
  | none => rfl
  | some r => exact congrArg (fun k => some (k, r.2)) (Nat.sub_sub ..)

namespace Served

variable {room : Option (Nat × Fault)} {items more : List Item} {handled handled' : List Handled}
  {ended ended' : Option ConnectionEnd}

theorem sound (h : Served c room s items handled ended s') (sound : s.Sound) : s'.Sound := by
  induction h with
  | rest | empty | exit | exitUnheard => exact sound
  | answered asked _ _ ih => exact ih (asked.sound sound)
  | cutOff asked | failed asked => exact asked.sound sound

/-- A connection that goes on does so where it was. -/
theorem append (h : Served c room s items handled none s')
    (h' : Served c (roomAfter room handled.length) s' more handled' ended s'') :
    Served c room s (items ++ more) (handled ++ handled') ended s'' := by
  generalize goes_on : none = o at h
  induction h with
  | @rest room s =>
    have same : roomAfter room 0 = room := by cases room <;> rfl
    rwa [List.length_nil, same] at h'
  | @answered room _ _ _ _ _ _ handled _ asked takes _ ih =>
    refine .answered asked takes (ih ?_ goes_on)
    rwa [roomAfter_roomAfter, Nat.add_comm]
  | empty | exit | exitUnheard | cutOff | failed => cases goes_on

/-- What comes behind the item that ends a connection is not handled. -/
theorem ignore {how : ConnectionEnd} (h : Served c room s items handled (some how) s')
    (more : List Item) : Served c room s (items ++ more) handled (some how) s' := by
  generalize ends : some how = o at h
  induction h with
  | rest => cases ends
  | empty => exact .empty
  | exit takes => exact .exit takes
  | exitUnheard => exact .exitUnheard
  | answered asked takes _ ih => exact .answered asked takes (ih ends)
  | cutOff asked => exact .cutOff asked
  | failed asked => exact .failed asked

/-- The items that are handled are the first ones, and all of them unless the connection ends. -/
theorem items_eq (h : Served c room s items handled ended s') :
    ∃ rest, items = handled.map Handled.item ++ rest ∧ (ended = none → rest = []) := by
  induction h with
  | rest => exact ⟨[], rfl, fun _ => rfl⟩
  | answered _ _ _ ih =>
    obtain ⟨rest, split, all⟩ := ih
    exact ⟨rest, congrArg _ split, all⟩
  | empty | exit | exitUnheard | cutOff | failed => exact ⟨_, rfl, nofun⟩

/-- A connection comes to one thing. -/
theorem unique (h : Served c room s items handled ended s')
    (h' : Served c room s items handled' ended' s'') :
    handled = handled' ∧ ended = ended' ∧ s' = s'' := by
  -- Whether the client takes a reply, which item it is and what the session gives tell the cases
  -- apart; an item `exit` is not asked for.
  have takes_none {cause : Fault} (takes : ∀ r ∈ some (0, cause), 0 < r.1) : False :=
    Nat.lt_irrefl 0 (takes _ rfl)
  induction h generalizing handled' ended' s'' with
  | rest => cases h'; exact ⟨rfl, rfl, rfl⟩
  | empty => cases h'; exact ⟨rfl, rfl, rfl⟩
  | exit takes =>
    cases h' with
    | exit => exact ⟨rfl, rfl, rfl⟩
    | exitUnheard => exact (takes_none takes).elim
    | answered asked | cutOff asked | failed asked => exact absurd rfl asked.ne_exitToken
  | exitUnheard =>
    cases h' with
    | exit takes => exact (takes_none takes).elim
    | exitUnheard => exact ⟨rfl, rfl, rfl⟩
    | answered asked | cutOff asked | failed asked => exact absurd rfl asked.ne_exitToken
  | answered asked takes _ ih =>
    cases h' with
    | exit | exitUnheard => exact absurd rfl asked.ne_exitToken
    | answered asked' _ served =>
      obtain ⟨reply, rfl⟩ := asked.unique asked'
      obtain rfl := Except.ok.inj reply
      obtain ⟨rfl, rfl, rfl⟩ := ih served
      exact ⟨rfl, rfl, rfl⟩
    | cutOff => exact (takes_none takes).elim
    | failed asked' => cases (asked.unique asked').1
  | cutOff asked =>
    cases h' with
    | exit | exitUnheard => exact absurd rfl asked.ne_exitToken
    | answered _ takes => exact (takes_none takes).elim
    | cutOff asked' => exact ⟨rfl, rfl, (asked.unique asked').2⟩
    | failed asked' => cases (asked.unique asked').1
  | failed asked =>
    cases h' with
    | exit | exitUnheard => exact absurd rfl asked.ne_exitToken
    | answered asked' | cutOff asked' => cases (asked.unique asked').1
    | failed asked' =>
      obtain ⟨error, rfl⟩ := asked.unique asked'
      obtain rfl := Except.error.inj error
      exact ⟨rfl, rfl, rfl⟩

/-- The module is written exactly what is forwarded, in order, unless the last of it fails. -/
theorem written (h : Served c room s items handled ended s') (log : WriteLog σ) :
    ∃ unwritten, log.of s' ++ unwritten = log.of s ++ handled.flatMap (·.item.forwarded) ∧
      unwritten.length = (ended.any ConnectionEnd.unwritten).toNat := by
  induction h with
  | rest | empty | exit | exitUnheard => exact ⟨[], rfl, rfl⟩
  | answered asked _ _ ih =>
    obtain ⟨none, written, length⟩ := asked.written log
    obtain rfl := List.eq_nil_of_length_eq_zero length
    obtain ⟨unwritten, same, length⟩ := ih
    refine ⟨unwritten, ?_, length⟩
    rw [List.append_nil] at written
    rw [same, written, List.flatMap_cons, List.append_assoc]
  | cutOff asked | failed asked =>
    obtain ⟨unwritten, same, length⟩ := asked.written log
    exact ⟨unwritten, by simpa using same, length⟩

end Served

/-! ## The stream of a connection -/

namespace ItemDecoder

/-- How a connection is lost whose decoder has come to a length that no item has. -/
def framingLoss? (d : ItemDecoder) : Option ConnectionEnd :=
  match d.next.1 with
  | .error e => some (.lost (.badFraming e))
  | .ok _ => none

variable {d : ItemDecoder}

/-- Behind such a length nothing can be told apart, whatever comes. -/
theorem takeAll_push_of_loss {how : ConnectionEnd} (h : d.framingLoss? = some how) (bs : Bytes) :
    (d.push bs).takeAll.1 = [] ∧ (d.push bs).takeAll.2.framingLoss? = some how := by
  cases next : d.next.1 with
  | ok => rw [framingLoss?, next] at h; cases h
  | error e =>
    have pushed := next_push_error next bs
    rw [takeAll_of_no_item (by rw [pushed]; nofun)]
    refine ⟨rfl, ?_⟩
    rw [framingLoss?, next] at h
    rw [framingLoss?, pushed]
    exact h

/-- What is left once all items have been taken out waits for more, or has come to such a length. -/
theorem next_takeAll (d : ItemDecoder) (h : d.takeAll.2.framingLoss? = none) :
    d.takeAll.2.next.1 = .ok none := by
  have none_left := d.takeAll_keeps.2.2
  unfold framingLoss? at h
  generalize d.takeAll.2.next.1 = next at h none_left
  match next, h, none_left with
  | .ok none, _, _ => rfl
  | .ok (some item), _, none_left => exact absurd rfl (none_left item)

end ItemDecoder

namespace Connection

theorem sendReply_of_room {k : Connection} {reply : Bytes} (h : reply.length ≤ maxItemSize)
    (takes : ∀ r ∈ k.room, 0 < r.1) :
    k.sendReply reply = (some reply, { k with room := roomAfter k.room 1 }) := by
  obtain ⟨decoder, room, ended⟩ := k
  unfold sendReply
  rw [encodeItem_of_le h]
  match room, takes with
  | none, _ => rfl
  | some (0, cause), takes => exact absurd (takes _ rfl) (Nat.lt_irrefl 0)
  | some (n + 1, cause), _ => rfl

theorem sendReply_of_no_room {k : Connection} {reply : Bytes} (h : reply.length ≤ maxItemSize)
    {cause : Fault} (full : k.room = some (0, cause)) :
    k.sendReply reply = (none, { k with ended := some (.lost (.writeFailed cause)) }) := by
  unfold sendReply
  rw [encodeItem_of_le h, full]

/-- Where no item has come as a whole, a connection goes on or is lost. -/
theorem work_of_no_item (c : Config) {d : ItemDecoder} (room : Option (Nat × Fault))
    (h : ∀ item, d.next.1 ≠ .ok (some item)) :
    work (σ := σ) c ⟨d, room, none⟩ = pure ([], ⟨d, room, d.framingLoss?⟩) := by
  have same : d.next.2 = d := ItemDecoder.next_of_no_item h
  rw [work, ItemDecoder.framingLoss?]
  split
  · rename_i e decoder next
    rw [show d.next = (.error e, decoder) from next]
  · rename_i decoder next
    rw [show d.next = (.ok none, decoder) from next]
  · rename_i item decoder next
    exact absurd (congrArg Prod.fst next) (h item)

/-- What a connection makes of the items that have come. -/
structure Works (c : Config) (d : ItemDecoder) (room : Option (Nat × Fault)) (s : Session σ)
    (handled : List Handled) (ended : Option ConnectionEnd) (k : Connection) (s' : Session σ) :
    Prop where
  worked : work c ⟨d, room, none⟩ s = ((handled, k), s')
  served : Served c room s d.takeAll.1 handled ended s'
  ends : k.ended = ended.or d.takeAll.2.framingLoss?
  goes_on : k.ended = none → k = ⟨d.takeAll.2, roomAfter room handled.length, none⟩

section Works

variable {d d' : ItemDecoder} {room room' : Option (Nat × Fault)}

/-- An item that ends a connection. -/
theorem Works.of_end {item : Item} {outcome : Outcome} {reply : Option Bytes} {how : ConnectionEnd}
    (next : d.next = (.ok (some item), d')) (handled : handleItem c item s = (outcome, s'))
    (settled : settle ⟨d', room, none⟩ outcome = (reply, ⟨d', room', some how⟩))
    (served : Served c room s (item :: d'.takeAll.1) [⟨item, reply⟩] (some how) s') :
    Works c d room s [⟨item, reply⟩] (some how) ⟨d', room', some how⟩ s' where
  worked := work_ends next handled settled nofun
  served := by rwa [ItemDecoder.takeAll_of_next next]
  ends := rfl
  goes_on := nofun

/-- An item that is answered, and what the connection makes of those behind it. -/
theorem Works.of_answer {bytes reply : Bytes} {rest : List Handled} {ended : Option ConnectionEnd}
    {k : Connection} (next : d.next = (.ok (some (.bytes bytes)), d'))
    (handled : handleItem c (.bytes bytes) s = (.answer reply, s'))
    (asked : Asked c s bytes (.ok reply) s') (short : reply.length ≤ maxItemSize)
    (takes : ∀ r ∈ room, 0 < r.1) (h : Works c d' (roomAfter room 1) s' rest ended k s'') :
    Works c d room s (⟨.bytes bytes, some reply⟩ :: rest) ended k s'' where
  worked := by
    rw [work_goes_on next handled (sendReply_of_room short takes) rfl]
    dsimp only
    rw [h.worked]
  served := by
    rw [ItemDecoder.takeAll_of_next next]
    exact .answered asked takes h.served
  ends := by rw [ItemDecoder.takeAll_of_next next, h.ends]
  goes_on still := by
    rw [ItemDecoder.takeAll_of_next next, h.goes_on still, roomAfter_roomAfter, List.length_cons,
      Nat.add_comm]

theorem Works.of_no_item (c : Config) (room : Option (Nat × Fault)) (s : Session σ)
    (h : ∀ item, d.next.1 ≠ .ok (some item)) :
    Works c d room s [] none ⟨d, room, d.framingLoss?⟩ s where
  worked := by rw [work_of_no_item c room h]; rfl
  served := by rw [ItemDecoder.takeAll_of_no_item h]; exact .rest
  ends := by rw [ItemDecoder.takeAll_of_no_item h]; rfl
  goes_on still := by
    rw [ItemDecoder.takeAll_of_no_item h, show d.framingLoss? = none from still]
    cases room <;> rfl

/-- Whatever has come, a connection makes that of it. -/
theorem exists_works (c : Config) (d : ItemDecoder) (room : Option (Nat × Fault)) {s : Session σ}
    (sound : s.Sound) : ∃ handled ended k s', Works c d room s handled ended k s' := by
  induction d using ItemDecoder.takeAll.induct generalizing room s with
  | case1 d item d' next ih =>
    cases item with
    | empty => exact ⟨_, _, _, _, .of_end next rfl rfl .empty⟩
    | bytes bytes =>
      by_cases is_exit : bytes = exitToken
      · subst is_exit
        have handled : handleItem c (.bytes exitToken) s =
          ({ reply := some ackToken, ended := some .exit }, s) := rfl
        rcases room_cases room with takes | ⟨cause, rfl⟩
        · have settled := sendReply_of_room (k := ⟨d', room, none⟩)
            (show ackToken.length ≤ maxItemSize by decide) takes
          exact ⟨_, _, _, _, .of_end next handled
            (by unfold settle; dsimp only; rw [settled]) (.exit takes)⟩
        · exact ⟨_, _, _, _, .of_end next handled rfl .exitUnheard⟩
      · obtain ⟨r, s', asked, handled⟩ := asked_handleItem c s is_exit
        cases r with
        | error e => exact ⟨_, _, _, _, .of_end next handled rfl (.failed asked)⟩
        | ok reply =>
          have short := asked.length_le sound rfl
          rcases room_cases room with takes | ⟨cause, rfl⟩
          · obtain ⟨rest, ended, k, s'', works⟩ := ih (roomAfter room 1) (asked.sound sound)
            exact ⟨_, _, _, _, works.of_answer next handled asked short takes⟩
          · exact ⟨_, _, _, _,
              .of_end next handled (sendReply_of_no_room short rfl) (.cutOff asked)⟩
  | case2 d none_left =>
    exact ⟨_, _, _, _, .of_no_item c room s fun item h => none_left item _ (Prod.ext h rfl)⟩

end Works

section Receive

variable {k k' k'' : Connection} {handled handled' : List Handled}

theorem receiveAll_cons {piece : Bytes} {pieces : List Bytes}
    (first : receive c k piece s = ((handled, k'), s'))
    (rest : receiveAll c k' pieces s' = ((handled', k''), s'')) :
    receiveAll c k (piece :: pieces) s = ((handled ++ handled', k''), s'') := by
  simp only [receiveAll, bind, StateT.bind, first, rest]
  rfl

/-- Pieces that come one after the other are handled one after the other. -/
theorem receiveAll_append {front back : List Bytes}
    (first : receiveAll c k front s = ((handled, k'), s'))
    (rest : receiveAll c k' back s' = ((handled', k''), s'')) :
    receiveAll c k (front ++ back) s = ((handled ++ handled', k''), s'') := by
  induction front generalizing k handled s with
  | nil =>
    cases first
    exact rest
  | cons piece front ih =>
    cases start : receive c k piece s with
    | mk r s₁ =>
    rw [receiveAll_cons start rfl] at first
    cases first
    rw [List.append_assoc]
    exact receiveAll_cons start (ih rfl)

/-- A connection that has ended reads nothing more. -/
theorem receiveAll_of_ended (ended : k.ended ≠ none) (pieces : List Bytes) :
    receiveAll c k pieces s = (([], k), s) := by
  have received (piece : Bytes) : receive c k piece s = (([], k), s) := by
    rw [receive, if_pos (Option.isSome_iff_ne_none.mpr ended)]
    rfl
  induction pieces with
  | nil => rfl
  | cons piece pieces ih => exact receiveAll_cons (received piece) ih

end Receive

/-- Whatever comes and however it is cut, a connection comes to what it comes to for the items that
are in it. -/
theorem exists_receiveAll (c : Config) {d : ItemDecoder} (waits : d.next.1 = .ok none)
    (room : Option (Nat × Fault)) (pieces : List Bytes) {s : Session σ} (sound : s.Sound) :
    ∃ handled ended k s', receiveAll c ⟨d, room, none⟩ pieces s = ((handled, k), s') ∧
      Served c room s (d.push pieces.flatten).takeAll.1 handled ended s' ∧
      k.ended = ended.or (d.push pieces.flatten).takeAll.2.framingLoss? := by
  induction pieces generalizing d room s with
  | nil =>
    have none_left : ∀ item, d.next.1 ≠ .ok (some item) := by rw [waits]; nofun
    have same : d.push [].flatten = d := congrArg ItemDecoder.mk (List.append_nil _)
    rw [same, ItemDecoder.takeAll_of_no_item none_left]
    refine ⟨[], none, _, s, rfl, .rest, ?_⟩
    simp only [ItemDecoder.framingLoss?, waits]
    rfl
  | cons piece pieces ih =>
    obtain ⟨handled, ended, k, s₁, works⟩ := exists_works c (d.push piece) room sound
    have received : receive c ⟨d, room, none⟩ piece s = ((handled, k), s₁) := works.worked
    have flat : d.push (piece :: pieces).flatten = (d.push piece).push pieces.flatten :=
      congrArg ItemDecoder.mk (List.append_assoc ..).symm
    rw [flat, ItemDecoder.takeAll_push]
    cases goes_on : k.ended with
    | none =>
      -- Nothing has ended the connection, so what is left of the stream waits for the next piece.
      obtain rfl := works.goes_on goes_on
      obtain ⟨rfl, no_loss⟩ : ended = none ∧ (d.push piece).takeAll.2.framingLoss? = none :=
        Option.or_eq_none_iff.mp (works.ends.symm.trans goes_on)
      obtain ⟨handled', ended, k', s', rest, served, ends⟩ :=
        ih (ItemDecoder.next_takeAll _ no_loss) (roomAfter room handled.length)
          (works.served.sound sound)
      exact ⟨_, ended, k', s', receiveAll_cons received rest, works.served.append served, ends⟩
    | some how =>
      have still := receiveAll_of_ended (c := c) (s := s₁) (k := k) (by rw [goes_on]; nofun) pieces
      refine ⟨_, ended, k, s₁, receiveAll_cons received still, ?_⟩
      rw [List.append_nil]
      -- The pieces behind are not read: either an item came before them that ended the connection,
      -- or they are behind a length that no item has and hold no items.
      cases ended with
      | some how => exact ⟨works.served.ignore _, works.ends⟩
      | none =>
        have loss : (d.push piece).takeAll.2.framingLoss? = some how := by
          rw [← goes_on, works.ends, Option.none_or]
        obtain ⟨none_more, same⟩ := ItemDecoder.takeAll_push_of_loss loss pieces.flatten
        rw [none_more, same, List.append_nil]
        exact ⟨works.served, goes_on⟩

end Connection

/-! ## Clients -/

/-- All that a client sends. -/
def Visit.stream (client : Visit) : Bytes := client.pieces.flatten

/-- The items that a client sends as a whole. -/
def Visit.items (client : Visit) : List Item := (ItemDecoder.takeAll ⟨client.stream⟩).1

/-- What a client sends behind its last item. -/
def Visit.rest (client : Visit) : ItemDecoder := (ItemDecoder.takeAll ⟨client.stream⟩).2

/-- How a connection ends that no item has ended. -/
def Visit.loss (client : Visit) : ConnectionEnd :=
  client.rest.framingLoss?.getD (.lost client.ending)

theorem Visit.exists_loss (client : Visit) : ∃ cause, client.loss = .lost cause := by
  unfold loss ItemDecoder.framingLoss?
  cases client.rest.next.1 with
  | error e => exact ⟨_, rfl⟩
  | ok => exact ⟨_, rfl⟩

/-- A client that sends nothing but whole items sends those. -/
theorem Visit.items_eq {client : Visit} (items : List Bytes)
    (small : ∀ bs ∈ items, bs.length ≤ maxItemSize)
    (stream : client.stream = items.flatMap itemBytes) : client.items = items.map .ofBytes := by
  have none_left : (ItemDecoder.takeAll {}).1 = [] :=
    congrArg Prod.fst (ItemDecoder.takeAll_of_no_item (d := {}) nofun)
  have all := congrArg Prod.fst (ItemDecoder.takeAll_flatMap small [])
  rw [List.append_nil] at all
  rw [Visit.items, stream, all]
  exact (congrArg _ none_left).trans (List.append_nil _)

/-- A client is served the items that it sends. -/
theorem exists_serve (c : Config) (client : Visit) {s : Session σ} (sound : s.Sound) :
    ∃ handled ended s', serve c client s = ((handled, ended.getD client.loss), s') ∧
      Served c client.room s client.items handled ended s' := by
  obtain ⟨handled, ended, k, s', received, served, ends⟩ :=
    Connection.exists_receiveAll c (d := {}) rfl client.room client.pieces sound
  have how : k.ended.getD (.lost client.ending) = ended.getD client.loss := by
    rw [ends]
    cases ended <;> rfl
  have e : serve c client s = ((handled, k.ended.getD (.lost client.ending)), s') := by
    simp only [serve, bind, StateT.bind, received]
    rfl
  exact ⟨handled, ended, s', e.trans (by rw [how]), served⟩

/-- What is handled once some pieces have come stays handled, whatever comes behind them. -/
theorem handled_take_prefix (c : Config) (client : Visit) (s : Session σ) (n : Nat) :
    (serve c { client with pieces := client.pieces.take n } s).1.1 <+: (serve c client s).1.1 := by
  have handled (pieces : List Bytes) : (serve c { client with pieces } s).1.1 =
    (Connection.receiveAll c { room := client.room } pieces s).1.1 := rfl
  cases first : Connection.receiveAll c { room := client.room } (client.pieces.take n) s with
  | mk r s₁ =>
  cases rest : Connection.receiveAll c r.2 (client.pieces.drop n) s₁ with
  | mk r' s₂ =>
  have all := Connection.receiveAll_append first rest
  rw [List.take_append_drop] at all
  rw [handled, handled client.pieces, first, all]
  exact List.prefix_append ..

/-- A connection is a function of the items of its stream. Whatever a client sends and whatever was
done with the session before, the items of the stream are handled one after the other as `Served`
says and in no other way, and where none of them ends the connection, it is lost as the stream ends
or has a length that no item has. The module is written exactly what is forwarded, byte for byte and
in order, but for a last item of which just the write fails. However the stream is cut, all of this
is the same, and what has been handled when some pieces have come stays, whatever comes behind. -/
theorem serve_served (c : Config) (client : Visit) (name : String) (config : SessionConfig)
    (far : σ) (events : List (Session.Event σ)) (log : WriteLog σ) :
    let s := (Session.attach name config far).after events
    let ((handled, how), s') := serve c client s
    (client.stream =
        client.items.flatMap (fun item => itemBytes item.toBytes) ++ client.rest.buffer ∧
      (∀ item ∈ client.items, .ofBytes item.toBytes = item ∧ item.toBytes.length ≤ maxItemSize) ∧
      ∀ item, client.rest.next.1 ≠ .ok (some item)) ∧
    (∃ ended, how = ended.getD client.loss ∧ ∀ handled' ended' t,
      Served c client.room s client.items handled' ended' t ↔
        handled' = handled ∧ ended' = ended ∧ t = s') ∧
    handled.map Handled.item <+: client.items ∧
    (∃ unwritten, log.of s' ++ unwritten = log.of s ++ handled.flatMap (·.item.forwarded) ∧
      unwritten.length = how.unwritten.toNat) ∧
    (∀ pieces, pieces.flatten = client.stream →
      serve c { client with pieces } s = serve c client s) ∧
    ∀ n, (serve c { client with pieces := client.pieces.take n } s).1.1 <+: handled := by
  intro s
  have sound : s.Sound := Session.sound_after name config far events
  obtain ⟨handled, ended, s', e, served⟩ := exists_serve c client sound
  obtain ⟨small, stream, none_left⟩ := ItemDecoder.takeAll_keeps ⟨client.stream⟩
  have cut (pieces : List Bytes) (same : pieces.flatten = client.stream) :
      serve c { client with pieces } s = serve c client s := by
    obtain ⟨handled', ended', t, e', served'⟩ := exists_serve c { client with pieces } sound
    have same_stream : Visit.stream { client with pieces } = client.stream := same
    unfold Visit.items at served' served
    rw [same_stream] at served'
    obtain ⟨rfl, rfl, rfl⟩ := served'.unique served
    rw [e', e, Visit.loss, Visit.loss, Visit.rest, Visit.rest, same_stream]
  have early (n : Nat) :
      (serve c { client with pieces := client.pieces.take n } s).1.1 <+: handled := by
    have front := handled_take_prefix c client s n
    rwa [e] at front
  rw [e]
  refine ⟨⟨stream.symm, small, none_left⟩,
    ⟨ended, rfl, fun handled' ended' t => ⟨fun served' => ?_, ?_⟩⟩, ?_, ?_, by rwa [← e], early⟩
  · exact served'.unique served
  · rintro ⟨rfl, rfl, rfl⟩
    exact served
  · obtain ⟨rest, split, -⟩ := served.items_eq
    exact ⟨rest, split.symm⟩
  · obtain ⟨cause, loss⟩ := client.exists_loss
    obtain ⟨unwritten, same, length⟩ := served.written log
    refine ⟨unwritten, same, length.trans ?_⟩
    rw [loss]
    cases ended <;> rfl

/-- A request to stop and one byte more, cut within the request or not at all: the request is
acknowledged, and the module is written nothing. -/
theorem serve_served_exit :
    let s := Session.attach "" {} ({} : StandIn)
    let client : Visit := { pieces := [[0, 0, 0, 4, 0x65], [0x78, 0x69, 0x74, 0, 0, 0, 1, 0x77]] }
    [client.stream].flatten = client.stream ∧
      (serve {} client s).1 = ([⟨.bytes exitToken, some ackToken⟩], .exit) ∧
      StandIn.writeLog.of (serve {} client s).2 = [] ∧
      serve {} { client with pieces := [client.stream] } s = serve {} client s := by
  intro s client
  have items : client.items = [.bytes exitToken, .bytes [0x77]] :=
    Visit.items_eq [exitToken, [0x77]] (by decide) rfl
  have whole : [client.stream].flatten = client.stream := List.flatten_singleton
  obtain ⟨handled, ended, s', e, served⟩ :=
    exists_serve {} client (Session.sound_after "" {} ({} : StandIn) [])
  rw [items] at served
  obtain ⟨rfl, rfl, rfl⟩ := served.unique (.exit nofun)
  have run := serve_served {} client "" {} ({} : StandIn) [] StandIn.writeLog
  dsimp only at run
  rw [e] at run
  obtain ⟨-, -, -, ⟨unwritten, written, none⟩, cut, -⟩ := run
  obtain rfl := List.eq_nil_of_length_eq_zero none
  have e : serve {} client s = _ := e
  rw [e]
  refine ⟨whole, rfl, ?_, cut [client.stream] whole⟩
  rw [List.append_nil] at written
  exact written

end LightLink.Relay
