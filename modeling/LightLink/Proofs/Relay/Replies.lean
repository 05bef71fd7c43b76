import Mathlib.Data.List.Basic
import LightLink.Proofs.Relay.Stream
import LightLink.Proofs.Relay.Turns
import LightLink.Relay.Rehearsal

/-!
# Replies that come late

Nothing on the relay channel says which item a reply belongs to. A relay answers the items in their
order, and a client reads the replies in theirs. But a call that no longer waits for a reply leaves
it on the stream, and the next call finds it there.

* `Answerer`: a relay that answers one item after the other, each in its own time;
* `Owes`: the replies that a client has still to read;
* `Traffic`: what is sent and read between two states of a client, and what this does to the replies
  that are due; `Traffic.trans`: it adds up;
* `Leads.bind`: operations one after the other; `Owes.sendAndAck`: a message, its acknowledgement
  and the frames that answer it;
* `Owes.perform`, `Owes.performEach`: one call, and from it any calls;
* `Client.sendAndAck_lag`: the replies that a call takes, those to what was sent some places before;
* `not_sendAndAck_attributed`: so they need not be the replies to what it has sent.
-/

namespace LightLink.Relay

/-! ## A relay that answers -/

/-- How a relay answers: the reply to an item, which may depend on all items before it, and the
pieces in which it comes, each after some time. -/
structure Answering where
  reply : List Bytes → Bytes → Bytes
  pieces : List Bytes → Bytes → List (Nat × Bytes)
  length_reply_le : ∀ before item, (reply before item).length ≤ maxItemSize
  flatMap_pieces : ∀ before item,
    (pieces before item).flatMap Prod.snd = itemBytes (reply before item)

namespace Answering

/-- The replies to items, in their order, where some came before them. -/
def replies (a : Answering) (before : List Bytes) : List Bytes → List Bytes
  | [] => []
  | item :: items => a.reply before item :: a.replies (before ++ [item]) items

variable {a : Answering} {before : List Bytes}

@[simp] theorem length_replies {items : List Bytes} :
    (a.replies before items).length = items.length := by
  induction items generalizing before with
  | nil => rfl
  | cons item items ih => exact congrArg Nat.succ ih

theorem replies_append {items items' : List Bytes} : a.replies before (items ++ items') =
    a.replies before items ++ a.replies (before ++ items) items' := by
  induction items generalizing before with
  | nil => rw [List.append_nil]; rfl
  | cons item items ih =>
    rw [List.cons_append, replies, ih, List.append_assoc]
    rfl

end Answering

/-- A relay that answers each item that it receives. -/
structure Answerer where
  answering : Answering
  decoder : ItemDecoder := {}
  /-- What has been received, first item first. -/
  received : List Bytes := []
  outgoing : List (Nat × Incoming) := []

namespace Answerer

/-- The replies to all that has been received, whether they have come or not. -/
def replies (r : Answerer) : List Bytes := r.answering.replies [] r.received

/-- Answers an item. -/
def answer (r : Answerer) (item : Bytes) : Answerer :=
  { r with
    received := r.received ++ [item]
    outgoing := r.outgoing ++
      (r.answering.pieces r.received item).map fun p => (p.1, .bytes p.2) }

instance : RelayEnd Answerer where
  write r bytes :=
    let (items, decoder) := (r.decoder.push bytes).takeAll
    (.ok (), items.foldl (fun r item => r.answer item.toBytes) { r with decoder })
  send r := (r.outgoing, { r with outgoing := [] })

theorem write_item {r : Answerer} (decoder : r.decoder = {}) {bs : Bytes}
    (small : bs.length ≤ maxItemSize) :
    RelayEnd.write r (itemBytes bs) = (.ok (), r.answer bs) := by
  have next : (r.decoder.push (itemBytes bs)).next = (.ok (some (.ofBytes bs)), {}) := by
    rw [decoder]
    exact ItemDecoder.next_whole small
  have none : ItemDecoder.takeAll {} = ([], {}) := ItemDecoder.takeAll_of_no_item nofun
  have taken : (r.decoder.push (itemBytes bs)).takeAll = ([.ofBytes bs], {}) := by
    rw [ItemDecoder.takeAll_of_next next, none]
  show (Except.ok (), _) = _
  rw [taken]
  obtain ⟨answering, _, received, outgoing⟩ := r
  obtain rfl := decoder
  rw [List.foldl_cons, Item.toBytes_ofBytes]
  rfl

end Answerer

/-! ## What is due -/

/-- What a client reads of a stream that comes in these pieces. -/
def arriving (pieces : List (Nat × Bytes)) : List (Nat × Incoming) :=
  pieces.map fun p => (p.1, .bytes p.2)

/-- The client has still to read these replies, which are the last ones. -/
structure Owes (k : Client Answerer) (due : List Bytes) : Prop where
  stream : ∃ pieces, k.channel.coming = arriving pieces ∧
    k.channel.decoder.Holds (pieces.flatMap Prod.snd) due
  last : due <:+ k.channel.far.replies
  decoder : k.channel.far.decoder = {}
  outgoing : k.channel.far.outgoing = []

/-- From `k`, where some replies are due, to `k'`: these items are sent and these replies are read.
What was due and what is answered is read in this order, as far as it is no longer due. -/
structure Traffic (k : Client Answerer) (due sent read : List Bytes) (k' : Client Answerer)
    (due' : List Bytes) : Prop where
  config : k'.config = k.config
  answering : k'.channel.far.answering = k.channel.far.answering
  received : k'.channel.far.received = k.channel.far.received ++ sent
  owes : Owes k' due'
  balance : due ++ k.channel.far.answering.replies k.channel.far.received sent = read ++ due'

variable {k k' k'' : Client Answerer} {due due' due'' sent sent' read read' : List Bytes}

namespace Traffic

theorem refl (h : Owes k due) : Traffic k due [] [] k due :=
  ⟨rfl, rfl, (List.append_nil _).symm, h, List.append_nil _⟩

theorem trans (h : Traffic k due sent read k' due') (h' : Traffic k' due' sent' read' k'' due'') :
    Traffic k due (sent ++ sent') (read ++ read') k'' due'' where
  config := h'.config.trans h.config
  answering := h'.answering.trans h.answering
  received := by rw [h'.received, h.received, List.append_assoc]
  owes := h'.owes
  balance := by
    have balance' := h'.balance
    rw [h.answering, h.received] at balance'
    rw [Answering.replies_append, ← List.append_assoc, h.balance, List.append_assoc, balance',
      List.append_assoc]

theorem length_eq (h : Traffic k due sent read k' due') :
    due.length + sent.length = read.length + due'.length := by
  have balance := congrArg List.length h.balance
  rwa [List.length_append, List.length_append, Answering.length_replies] at balance

/-- Where nothing was due and as much is read as is sent, nothing is due. -/
theorem due_eq_nil (h : Traffic k [] sent read k' due') (le : sent.length ≤ read.length) :
    due' = [] := by
  have := h.length_eq
  rw [List.length_nil] at this
  exact List.eq_nil_of_length_eq_zero (by omega)

end Traffic

/-! ## One item -/

theorem ItemDecoder.Holds.append {d : ItemDecoder} {more bs : Bytes} {items : List Bytes}
    (h : d.Holds more items) (small : bs.length ≤ maxItemSize) :
    d.Holds (more ++ itemBytes bs) (items ++ [bs]) := by
  refine ⟨fun bs' mem => ?_, ?_⟩
  · rcases List.mem_append.mp mem with mem | mem
    · exact h.1 bs' mem
    · rwa [List.mem_singleton.mp mem]
  · rw [← List.append_assoc, h.2, List.flatMap_append, List.flatMap_singleton]

namespace Channel

/-- Whether an item comes or not, the others come later. -/
theorem receiveFrom_due {pieces : List (Nat × Bytes)} {d : ItemDecoder}
    (h : d.Holds (pieces.flatMap Prod.snd) due) (deadline : Option Nat) (now : Nat) :
    (∃ failure now' d' pieces', d'.Holds (pieces'.flatMap Prod.snd) due ∧
      receiveFrom deadline now d (arriving pieces) =
        (.error failure, now', d', arriving pieces')) ∨
    ∃ bs rest now' d' pieces', due = bs :: rest ∧ d'.Holds (pieces'.flatMap Prod.snd) rest ∧
      receiveFrom deadline now d (arriving pieces) =
        (.ok (.ofBytes bs), now', d', arriving pieces') := by
  induction pieces generalizing d now with
  | nil =>
    rcases h.next with ⟨e, -⟩ | ⟨bs, rest, d', rfl, e, h'⟩
    · cases deadline with
      | none => exact .inl ⟨_, _, d, [], h, by rw [arriving, List.map_nil, receiveFrom, e]⟩
      | some t => exact .inl ⟨_, _, d, [], h, by rw [arriving, List.map_nil, receiveFrom, e]⟩
    · exact .inr ⟨bs, rest, now, d', [], rfl, h', by rw [arriving, List.map_nil, receiveFrom, e]⟩
  | cons p ps ih =>
    have cons : arriving (p :: ps) = (p.1, .bytes p.2) :: arriving ps := rfl
    rcases h.next with ⟨e, -⟩ | ⟨bs, rest, d', rfl, e, h'⟩
    · by_cases late : deadline.any (· < p.1)
      · refine .inl ⟨.timeUp, max now (deadline.getD now), d, p :: ps, h, ?_⟩
        rw [cons, receiveFrom, e]
        dsimp only
        rw [if_pos late]
      · have h' : (d.push p.2).Holds (ps.flatMap Prod.snd) due := by
          refine ⟨h.1, ?_⟩
          rw [← h.2, ItemDecoder.push, List.flatMap_cons, List.append_assoc]
        rw [cons, receiveFrom_bytes e late]
        exact ih h' (max now p.1)
    · exact .inr ⟨bs, rest, now, d', p :: ps, rfl, h', by rw [cons, receiveFrom, e]⟩

end Channel

namespace Owes

/-- The next reply that is due comes next, if one comes. -/
theorem receive (h : Owes k due) (deadline : Option Nat) :
    (∃ failure channel, k.channel.receive deadline = (.error failure, channel) ∧
      Traffic k due [] [] ⟨k.config, channel⟩ due) ∨
    ∃ bs rest channel, due = bs :: rest ∧
      k.channel.receive deadline = (.ok (.ofBytes bs), channel) ∧
      Traffic k due [] [bs] ⟨k.config, channel⟩ rest := by
  obtain ⟨pieces, coming, stream⟩ := h.stream
  unfold Channel.receive
  rw [coming]
  rcases Channel.receiveFrom_due stream deadline k.channel.now with
    ⟨failure, now', d', pieces', stream', e⟩ | ⟨bs, rest, now', d', pieces', rfl, stream', e⟩
  · rw [e]
    exact .inl ⟨failure, _, rfl, rfl, rfl, (List.append_nil _).symm,
      ⟨⟨pieces', rfl, stream'⟩, h.last, h.decoder, h.outgoing⟩, List.append_nil _⟩
  · rw [e]
    exact .inr ⟨bs, rest, _, rfl, rfl, rfl, rfl, (List.append_nil _).symm,
      ⟨⟨pieces', rfl, stream'⟩, (List.suffix_cons bs rest).trans h.last, h.decoder, h.outgoing⟩,
      List.append_nil _⟩

/-- The reply to an item that is sent is due behind all others. -/
theorem write (h : Owes k due) {bs : Bytes} (small : bs.length ≤ maxItemSize) :
    ∃ channel, Client.send bs k = (.ok (), ⟨k.config, channel⟩) ∧
      Traffic k due [bs] [] ⟨k.config, channel⟩
        (due ++ [k.channel.far.answering.reply k.channel.far.received bs]) := by
  obtain ⟨pieces, coming, stream⟩ := h.stream
  have sent : Client.send bs k =
      (.ok (), ⟨k.config, .exchange { k.channel with far := k.channel.far.answer bs }⟩) := by
    unfold Client.send Channel.write
    rw [encodeItem_of_le small]
    dsimp only
    rw [Answerer.write_item h.decoder small]
    rfl
  refine ⟨_, sent, rfl, rfl, rfl, ⟨⟨pieces ++
    (k.channel.far.answering.pieces k.channel.far.received bs).map
      (fun p => (k.channel.now + p.1, p.2)), ?_, ?_⟩, ?_, h.decoder, rfl⟩, rfl⟩
  · show k.channel.coming ++ (k.channel.far.outgoing ++ _).map _ = _
    rw [coming, h.outgoing, List.nil_append, arriving, arriving, List.map_append, List.map_map,
      List.map_map]
    rfl
  · rw [List.flatMap_append, List.flatMap_map, k.channel.far.answering.flatMap_pieces]
    exact stream.append (k.channel.far.answering.length_reply_le _ _)
  · show due ++ _ <:+ k.channel.far.answering.replies [] (k.channel.far.received ++ [bs])
    rw [Answering.replies_append]
    obtain ⟨front, e⟩ := h.last
    exact ⟨front, by rw [← List.append_assoc, e]; rfl⟩

end Owes

/-! ## Operations -/

/-- What an operation comes to where some replies are due. If it has a result, `P` holds of the
result and of what has been sent and read. -/
def Leads {α : Type} (k : Client Answerer) (due : List Bytes)
    (outcome : Except Stop α × Client Answerer) (P : α → List Bytes → List Bytes → Prop) : Prop :=
  ∃ sent read due', Traffic k due sent read outcome.2 due' ∧
    ∀ a, outcome.1 = .ok a → P a sent read

namespace Leads

variable {α β : Type} {P P' : α → List Bytes → List Bytes → Prop}
  {Q : β → List Bytes → List Bytes → Prop} {outcome : Except Stop α × Client Answerer}

theorem mono (h : Leads k due outcome P) (imp : ∀ a sent read, P a sent read → P' a sent read) :
    Leads k due outcome P' := by
  obtain ⟨sent, read, due', traffic, holds⟩ := h
  exact ⟨sent, read, due', traffic, fun a e => imp a sent read (holds a e)⟩

theorem of_error (h : Owes k due) (stop : Stop) : Leads k due (.error stop, k) P :=
  ⟨[], [], due, .refl h, nofun⟩

theorem pure (h : Owes k due) {a : α} (holds : P a [] []) : Leads k due (.ok a, k) P :=
  ⟨[], [], due, .refl h, fun a' e => by cases e; exact holds⟩

/-- One operation after the other. -/
theorem bind {x : Request Answerer α} {f : α → Request Answerer β} (h : Leads k due (x k) P)
    (next : ∀ a sent read k' due', P a sent read → Traffic k due sent read k' due' →
      Leads k' due' (f a k') fun b sent' read' => Q b (sent ++ sent') (read ++ read')) :
    Leads k due ((x >>= f) k) Q := by
  obtain ⟨sent, read, due', traffic, holds⟩ := h
  rw [Client.request_bind]
  rcases e : x k with ⟨stop | a, k'⟩
  · rw [e] at traffic
    exact ⟨sent, read, due', traffic, nofun⟩
  · rw [e] at traffic holds
    obtain ⟨sent', read', due'', traffic', holds'⟩ :=
      next a sent read k' due' (holds a rfl) traffic
    exact ⟨sent ++ sent', read ++ read', due'', traffic.trans traffic', holds'⟩

end Leads

theorem Item.eq_of_toOption_ofBytes {bs fragment : Bytes}
    (h : (Item.ofBytes bs).toOption = some fragment) : bs = fragment := by
  cases bs with
  | nil => cases h
  | cons b bs => exact Option.some.inj h

theorem Item.isToken_ofBytes_iff {bs : Bytes} :
    (Item.ofBytes bs).isToken ackToken ↔ bs = ackToken := by
  rw [isToken, beq_iff_eq]
  cases bs with
  | nil => exact ⟨nofun, nofun⟩
  | cons b bs => exact ⟨Item.bytes.inj, congrArg Item.bytes⟩

namespace Owes

theorem send (h : Owes k due) (bs : Bytes) :
    Leads k due (Client.send bs k) fun _ sent read => sent = [bs] ∧ read = [] := by
  by_cases small : bs.length ≤ maxItemSize
  · obtain ⟨channel, e, traffic⟩ := h.write small
    rw [e]
    exact ⟨[bs], [], _, traffic, fun _ _ => ⟨rfl, rfl⟩⟩
  · have e : encodeItem bs = .error (.oversizedPayload bs.length maxItemSize) :=
      if_pos (Nat.lt_of_not_le small)
    unfold Client.send
    rw [e]
    exact .of_error h _

theorem receiveUntil (h : Owes k due) (deadline : Option Nat) :
    Leads k due (Client.receiveUntil deadline k) fun item sent read =>
      sent = [] ∧ ∃ bs, read = [bs] ∧ item = .ofBytes bs := by
  unfold Client.receiveUntil
  rcases h.receive deadline with
    ⟨failure, channel, e, traffic⟩ | ⟨bs, rest, channel, rfl, e, traffic⟩
  · rw [e]
    exact ⟨[], [], due, traffic, nofun⟩
  · rw [e]
    exact ⟨[], [bs], rest, traffic, fun item e => ⟨rfl, bs, rfl, (Except.ok.inj e).symm⟩⟩

/-- A wait for an acknowledgement ends with the first one that is due. -/
theorem awaitAckUntil (h : Owes k due) (deadline : Nat) :
    Leads k due (Client.awaitAckUntil deadline k) fun _ sent read =>
      sent = [] ∧ ∃ skipped, read = skipped ++ [ackToken] ∧ ackToken ∉ skipped := by
  -- With each item that is skipped one reply less is due.
  induction due generalizing k with
  | nil =>
    rw [Client.awaitAckUntil_eq]
    rcases h.receive (some deadline) with
      ⟨failure, channel, e, traffic⟩ | ⟨bs, rest, channel, none, -⟩
    · rw [e]
      exact ⟨[], [], [], traffic, nofun⟩
    · cases none
  | cons reply due ih =>
    rw [Client.awaitAckUntil_eq]
    rcases h.receive (some deadline) with
      ⟨failure, channel, e, traffic⟩ | ⟨bs, rest, channel, first, e, traffic⟩
    · rw [e]
      exact ⟨[], [], reply :: due, traffic, nofun⟩
    · obtain ⟨rfl, rfl⟩ := List.cons.inj first
      rw [e]
      dsimp only
      by_cases is_ack : reply = ackToken
      · rw [if_pos (Item.isToken_ofBytes_iff.mpr is_ack)]
        exact ⟨[], [reply], due, traffic, fun _ _ =>
          ⟨rfl, [], by rw [is_ack]; rfl, List.not_mem_nil⟩⟩
      · rw [if_neg fun same => is_ack (Item.isToken_ofBytes_iff.mp same)]
        obtain ⟨sent, read, due', traffic', holds⟩ := ih traffic.owes
        refine ⟨[] ++ sent, [reply] ++ read, due', traffic.trans traffic', fun a e => ?_⟩
        obtain ⟨rfl, skipped, rfl, none⟩ := holds a e
        refine ⟨rfl, reply :: skipped, rfl, fun mem => ?_⟩
        rcases List.mem_cons.mp mem with same | mem
        · exact is_ack same.symm
        · exact none mem

theorem requestData (h : Owes k due) :
    Leads k due (Client.requestData k) fun o sent read =>
      sent = [dataToken] ∧ ∃ bs, read = [bs] ∧ o = (Item.ofBytes bs).toOption := by
  refine (h.send dataToken).bind fun _ sent read k' due' ⟨is_sent, is_read⟩ traffic => ?_
  subst is_sent is_read
  refine (traffic.owes.receiveUntil none).bind fun item sent read k' due' received traffic => ?_
  obtain ⟨rfl, bs, rfl, rfl⟩ := received
  exact .pure traffic.owes ⟨rfl, bs, rfl, rfl⟩

/-- What is collected is read, one item for each request. -/
theorem collect (h : Owes k due) (most : Nat) :
    Leads k due (Client.collect most k) fun fragments sent read =>
      sent = List.replicate read.length dataToken ∧ fragments <+: read := by
  induction most generalizing k due with
  | zero => exact .pure h ⟨rfl, List.nil_prefix⟩
  | succ most ih =>
    refine h.requestData.bind fun o sent read k' due' received traffic => ?_
    obtain ⟨rfl, bs, rfl, rfl⟩ := received
    cases e : (Item.ofBytes bs).toOption with
    | none => exact .pure traffic.owes ⟨rfl, List.nil_prefix⟩
    | some fragment =>
      obtain rfl := Item.eq_of_toOption_ofBytes e
      dsimp only
      by_cases more : Client.hasMore bs
      · rw [if_pos more]
        refine (ih traffic.owes).bind fun rest sent read k' due' collected traffic => ?_
        obtain ⟨rfl, front⟩ := collected
        refine .pure traffic.owes ⟨?_, ?_⟩
        · simp [List.replicate_succ]
        · simpa using front
      · rw [if_neg more]
        exact .pure traffic.owes ⟨rfl, List.prefix_rfl⟩

/-- A message is acknowledged by the first acknowledgement that is due behind it or before. What is
due then is still due in the end, as each request for data leads to a reply behind it. -/
theorem sendAndAck (h : Owes k due) (m : Message) (expectResponse : Bool) :
    Leads k due (Client.sendAndAck m expectResponse k) fun fragments sent read =>
      ∃ e skipped late got, m.encode = .ok e ∧
        due ++ [k.channel.far.answering.reply k.channel.far.received e] =
          skipped ++ ackToken :: late ∧ ackToken ∉ skipped ∧
        sent = e :: List.replicate got.length dataToken ∧
        read = skipped ++ ackToken :: got ∧ fragments <+: got := by
  unfold Client.sendAndAck
  cases encoded : m.encode with
  | error e => exact .of_error h _
  | ok e =>
    refine (h.send e).bind fun _ sent read k₁ due₁ is_sent traffic₁ => ?_
    obtain ⟨rfl, rfl⟩ := is_sent
    -- What is skipped lies within what was due, as nothing but the message has been sent yet.
    have due₁_eq : due ++ [_] = due₁ := traffic₁.balance
    refine (traffic₁.owes.awaitAckUntil _).bind fun _ sent read k₂ late acked traffic₂ => ?_
    obtain ⟨rfl, skipped, rfl, none⟩ := acked
    have late_eq : due₁ = skipped ++ ackToken :: late := by
      have balance := traffic₂.balance
      rw [Answering.replies, List.append_nil, List.append_assoc] at balance
      exact balance
    have front := due₁_eq.trans late_eq
    cases expectResponse with
    | false =>
      refine .pure traffic₂.owes ⟨e, skipped, late, [], rfl, front, none, rfl, ?_, List.nil_prefix⟩
      rw [List.nil_append, List.append_nil]
    | true =>
      refine (traffic₂.owes.collect _).mono fun fragments sent got collected => ?_
      obtain ⟨rfl, prefix_got⟩ := collected
      exact ⟨e, skipped, late, got, rfl, front, none, rfl, by simp, prefix_got⟩

theorem sendExit (h : Owes k due) :
    Leads k due (Client.sendExit k) fun _ sent read => sent.length ≤ read.length := by
  refine (h.send exitToken).bind fun _ sent read k₁ due₁ is_sent traffic => ?_
  obtain ⟨rfl, rfl⟩ := is_sent
  refine (traffic.owes.awaitAckUntil _).mono fun _ sent read acked => ?_
  obtain ⟨rfl, skipped, rfl, -⟩ := acked
  simp

end Owes

/-! ## Calls -/

/-- What can be done with a client. -/
inductive Call where
  | send (bytes : Bytes)
  | receive
  | receiveAck
  | requestData
  | sendAndAck (message : Message) (expectResponse : Bool)
  | sendExit
  /-- Time passes. -/
  | wait (time : Nat)

namespace Call

/-- Whatever it sends is answered before it has a result. -/
def isExchange : Call → Bool
  | send _ | receive | receiveAck => false
  | requestData | sendAndAck _ _ | sendExit | wait _ => true

variable {τ : Type} [RelayEnd τ]

/-- Makes a call; its result does not matter. -/
def perform : Call → Request τ Unit
  | send bytes => Client.send bytes
  | receive => do let _ ← Client.receive
  | receiveAck => do let _ ← Client.receiveAck
  | requestData => do let _ ← Client.requestData
  | sendAndAck m expectResponse => do let _ ← Client.sendAndAck m expectResponse
  | sendExit => Client.sendExit
  | wait time => fun k => (.ok (), { k with channel.now := k.channel.now + time })

/-- A client after calls, whatever becomes of them. -/
def performEach : List Call → Client τ → Client τ
  | [], k => k
  | c :: calls, k => performEach calls (c.perform k).2

/-- All calls are exchanges, and each has a result. -/
def AllComplete : List Call → Client τ → Prop
  | [], _ => True
  | c :: calls, k => c.isExchange ∧ (c.perform k).1 = .ok () ∧ AllComplete calls (c.perform k).2

end Call

namespace Owes

theorem receiveAck (h : Owes k due) :
    Leads k due (Client.receiveAck k) fun _ _ _ => True :=
  (h.receiveUntil none).bind fun _ _ _ _ _ _ traffic => .pure traffic.owes trivial

theorem pass (h : Owes k due) (time : Nat) :
    Owes { k with channel.now := k.channel.now + time } due :=
  ⟨h.stream, h.last, h.decoder, h.outgoing⟩

/-- An exchange with a result reads a reply for each item that it sends. -/
theorem perform (h : Owes k due) (c : Call) :
    Leads k due (c.perform k) fun _ sent read => c.isExchange → sent.length ≤ read.length := by
  cases c with
  | send bytes => exact (h.send bytes).mono fun _ _ _ _ => nofun
  | receive =>
    exact (h.receiveUntil none).bind fun _ _ _ _ _ _ traffic => .pure traffic.owes nofun
  | receiveAck => exact h.receiveAck.bind fun _ _ _ _ _ _ traffic => .pure traffic.owes nofun
  | requestData =>
    refine h.requestData.bind fun _ sent read _ _ received traffic => .pure traffic.owes fun _ => ?_
    obtain ⟨rfl, bs, rfl, -⟩ := received
    exact Nat.le_refl 1
  | sendAndAck m expectResponse =>
    refine (h.sendAndAck m expectResponse).bind fun _ sent read _ _ acked traffic =>
      .pure traffic.owes fun _ => ?_
    obtain ⟨e, skipped, late, got, -, -, -, rfl, rfl, -⟩ := acked
    simp
  | sendExit => exact h.sendExit.mono fun _ _ _ le _ => le
  | wait time => exact ⟨[], [], due, ⟨rfl, rfl, (List.append_nil _).symm, h.pass time,
      List.append_nil _⟩, fun _ _ _ => Nat.le_refl 0⟩

/-- After any calls the replies that are due are the last ones, and after complete exchanges only
there are none. -/
theorem performEach (h : Owes k due) (calls : List Call) : ∃ sent read due',
    Traffic k due sent read (Call.performEach calls k) due' ∧
      (Call.AllComplete calls k → due = [] → due' = []) := by
  induction calls generalizing k due with
  | nil => exact ⟨[], [], due, .refl h, fun _ none => none⟩
  | cons c calls ih =>
    obtain ⟨sent, read, due', traffic, le⟩ := h.perform c
    obtain ⟨sent', read', due'', traffic', complete⟩ := ih traffic.owes
    refine ⟨_, _, due'', traffic.trans traffic', fun all none => ?_⟩
    obtain ⟨exchange, ok, rest⟩ := all
    subst none
    exact complete rest (traffic.due_eq_nil (le () ok exchange))

end Owes

/-! ## What a call gets -/

/-- A call that sends this message behind items that were received `before`, and requests for data
behind it, so that these items have been received in the end: its acknowledgement and its frames are
the replies to what stands `lag` places before the message and the requests. -/
structure Attributed (a : Answering) (before : List Bytes) (message : Bytes)
    (fragments received : List Bytes) (lag : Nat) : Prop where
  sent : ∃ n, received = before ++ message :: List.replicate n dataToken
  acknowledgement : (a.replies [] received)[before.length - lag]? = some ackToken
  fragment : ∀ i f, fragments[i]? = some f →
    received[before.length + 1 + i]? = some dataToken ∧
      (a.replies [] received)[before.length + 1 + i - lag]? = some f

/-- How many stand behind the first of its kind, where one more comes. -/
theorem length_eq_of_first {x y : Bytes} {skipped late : List Bytes}
    (h : due ++ [y] = skipped ++ x :: late) (first : x ∉ skipped) :
    late.length = due.length - due.idxOf x := by
  have length := congrArg List.length h
  have index := congrArg (List.idxOf x) h
  rw [List.idxOf_append, List.idxOf_append, if_neg first, List.idxOf_cons_self] at index
  simp only [List.length_append, List.length_cons, List.length_nil] at length
  by_cases mem : x ∈ due
  · rw [if_pos mem] at index
    omega
  · rw [if_neg mem] at index
    rw [List.idxOf_eq_length mem]
    omega

theorem Attributed.of_replies {a : Answering} {message : Bytes} {lag : Nat}
    {before fragments received front got rest : List Bytes}
    (sent : received = before ++ message :: List.replicate got.length dataToken)
    (replies : a.replies [] received = front ++ ackToken :: (got ++ rest))
    (length : front.length + lag = before.length) (first : fragments <+: got) :
    Attributed a before message fragments received lag where
  sent := ⟨got.length, sent⟩
  acknowledgement := by
    rw [replies, ← length, Nat.add_sub_cancel, List.getElem?_append_right (Nat.le_refl _),
      Nat.sub_self]
    rfl
  fragment i f is_fragment := by
    obtain ⟨more, rfl⟩ := first
    obtain ⟨lt, -⟩ := List.getElem?_eq_some_iff.mp is_fragment
    have lt' : i < (fragments ++ more).length := by
      rw [List.length_append]
      exact Nat.lt_add_right _ lt
    have index : before.length + 1 + i = before.length + (i + 1) := by omega
    have index' : before.length + 1 + i - lag = front.length + (i + 1) := by omega
    constructor
    · rw [index, sent, List.getElem?_append_right (Nat.le_add_right ..), Nat.add_sub_cancel_left,
        List.getElem?_cons_succ, List.getElem?_replicate, if_pos lt']
    · rw [index', replies, List.getElem?_append_right (Nat.le_add_right ..),
        Nat.add_sub_cancel_left, List.getElem?_cons_succ, List.append_assoc,
        List.getElem?_append_left lt, is_fragment]

/-- A call whose message is acknowledged early gets all replies as early, and leaves as many as it
has found in front of its own acknowledgement. -/
theorem Owes.attributed (h : Owes k due) {m : Message} {expectResponse : Bool}
    {fragments : List Bytes} (result : Client.sendAndAck m expectResponse k = (.ok fragments, k')) :
    ∃ e due', m.encode = .ok e ∧ Owes k' due' ∧ due'.length = due.length - due.idxOf ackToken ∧
      Attributed k.channel.far.answering k.channel.far.received e fragments
        k'.channel.far.received (due.length - due.idxOf ackToken) := by
  obtain ⟨sent, read, due', traffic, holds⟩ := h.sendAndAck m expectResponse
  rw [result] at traffic holds
  obtain ⟨e, skipped, late, got, encoded, early, none, rfl, rfl, first⟩ := holds fragments rfl
  have lag := length_eq_of_first early none
  have length := traffic.length_eq
  have length' := congrArg List.length early
  simp only [List.length_append, List.length_cons, List.length_nil, List.length_replicate]
    at length length'
  obtain ⟨front, before⟩ := h.last
  have length'' := congrArg List.length before
  rw [List.length_append, Answerer.replies, Answering.length_replies] at length''
  have replies : k.channel.far.answering.replies [] k'.channel.far.received =
      front ++ skipped ++ ackToken :: (got ++ due') := by
    rw [traffic.received, Answering.replies_append, List.nil_append, ← Answerer.replies, ← before,
      List.append_assoc, traffic.balance, List.append_assoc, List.append_assoc, List.cons_append]
  refine ⟨e, due', encoded, traffic.owes, by omega, .of_replies traffic.received replies ?_ first⟩
  rw [List.length_append]
  omega

/-! ## All calls -/

/-- A client that has just connected to a relay that answers like this. -/
def Client.connected (config : ClientConfig) (a : Answering) : Client Answerer :=
  ⟨config, .connect { answering := a }⟩

theorem owes_connected (config : ClientConfig) (a : Answering) : Owes (.connected config a) [] :=
  ⟨⟨[], rfl, nofun, rfl⟩, List.nil_suffix, rfl, rfl⟩

/-- Whatever calls a client has made before and whenever the relay answers, some of the last replies
are due, and none are if all calls have been exchanges with a result. A message is acknowledged by
the reply to it exactly if no acknowledgement is due. Otherwise the first one that is due
acknowledges it, the frames that answer it are the replies to what was sent as many places before
the requests for them, and as many replies are due when the call returns. -/
theorem Client.sendAndAck_lag (config : ClientConfig) (a : Answering) (calls : List Call) :
    let k := Call.performEach calls (connected config a)
    ∃ due, Owes k due ∧ k.channel.far.answering = a ∧
      (Call.AllComplete calls (connected config a) → due = []) ∧
      ∀ m expectResponse fragments k', sendAndAck m expectResponse k = (.ok fragments, k') →
        ∃ e lag due', m.encode = .ok e ∧
          Attributed a k.channel.far.received e fragments k'.channel.far.received lag ∧
          Owes k' due' ∧ due'.length = lag ∧ lag = due.length - due.idxOf ackToken ∧
          (lag = 0 ↔ ackToken ∉ due) := by
  intro k
  obtain ⟨sent, read, due, traffic, complete⟩ := (owes_connected config a).performEach calls
  have same : k.channel.far.answering = a := traffic.answering
  refine ⟨due, traffic.owes, same, fun all => complete all rfl,
    fun m expectResponse fragments k' result => ?_⟩
  obtain ⟨e, due', encoded, owes, length, attributed⟩ := traffic.owes.attributed result
  rw [traffic.answering] at attributed
  refine ⟨e, _, due', encoded, attributed, owes, length, rfl, ?_⟩
  rw [Nat.sub_eq_zero_iff_le, ← Nat.not_lt, List.idxOf_lt_length_iff]

/-! ## A late acknowledgement -/

/-- A relay that has nothing for requests for data and acknowledges all else, each time when 100 ms
have passed. -/
def tardy : Answering where
  reply _ item := if item = dataToken then [] else ackToken
  pieces _ item := [(millis 100, itemBytes (if item = dataToken then [] else ackToken))]
  length_reply_le _ item := by split <;> decide
  flatMap_pieces _ item := List.append_nil _

/-- A client that waits for 60 ms. -/
def hasty : ClientConfig := { ackTimeout := millis 60 }

-- Its first call is over before the relay answers.
example : (Client.sendAndAck (.poll 0x78) true (.connected hasty tardy)).1 =
    .error (.failed (.ackTimeout (millis 60))) := by decide +kernel

/-- The bytes of a poll of a module. -/
def pollBytes : Bytes := [0xFC, 0, 2, 8, 2, 2, 0x78, 0]

/-- The acknowledgement of a call and the frames that answer it need not be the replies to what it
has sent: where a call no longer waits for its acknowledgement, the next one takes it, and takes its
own for a frame. -/
theorem not_sendAndAck_attributed : ¬ ∀ config a calls m expectResponse fragments k',
    let k := Call.performEach calls (Client.connected config a)
    Client.sendAndAck m expectResponse k = (.ok fragments, k') →
      ∃ e, m.encode = .ok e ∧
        Attributed a k.channel.far.received e fragments k'.channel.far.received 0 := by
  intro all
  generalize is_k : Call.performEach [.sendAndAck (.poll 0x78) true] (.connected hasty tardy) = k
  have before : k.channel.far.received = [pollBytes] := by
    rw [← is_k]
    decide +kernel
  have fragments : (Client.sendAndAck (.poll 0x78) true k).1 = .ok [ackToken] := by
    rw [← is_k]
    decide +kernel
  have received : (Client.sendAndAck (.poll 0x78) true k).2.channel.far.received =
      [pollBytes, pollBytes, dataToken] := by
    rw [← is_k]
    decide +kernel
  have result : Client.sendAndAck (.poll 0x78) true k =
      (.ok [ackToken], (Client.sendAndAck (.poll 0x78) true k).2) := Prod.ext fragments rfl
  obtain ⟨e, -, attributed⟩ := all hasty tardy [.sendAndAck (.poll 0x78) true] (.poll 0x78) true
    [ackToken] _ (by rw [is_k]; exact result)
  have reply := (attributed.fragment 0 ackToken rfl).2
  rw [is_k, before, received] at reply
  have nothing : (tardy.replies [] [pollBytes, pollBytes, dataToken])[2]? = some [] := by decide +kernel
  cases nothing.symm.trans reply

/-- A relay whose reply to the first item comes when it has received the second. -/
def lagging : Rehearsal where
  script := [.items [], .items [ackToken, ackToken], .items [[]], .items [[]]]

-- Two polls through it go the same way.
example :
    let first := Client.sendAndAck (.poll 0x78) true ⟨hasty, .connect lagging⟩
    let second := Client.sendAndAck (.poll 0x78) true first.2
    first.1 = .error (.failed (.ackTimeout (millis 60))) ∧ second.1 = .ok [ackToken] ∧
      second.2.channel.far.received = [pollBytes, pollBytes, dataToken] := by
  refine ⟨?_, ?_, ?_⟩ <;> decide +kernel

end LightLink.Relay
