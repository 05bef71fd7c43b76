import LightLink.Proofs.Relay.Incoming

/-!
# What a client collects

A call of a client is told by the items that the relay sends: those in front of the acknowledgement
are dropped, and those behind it are collected, one for each request, until one ends the answer or
there are as many as the client takes.

* `Client.awaitAckUntil_brings`, `Client.awaitAckUntil_ends`: the wait for an acknowledgement;
* `Client.handed`: what the client writes;
* `Client.asks`: how many requests an answer takes;
* `Client.collect_answered`, `Client.collect_loses`: the requests for an answer;
* `Client.sendAndAck_fragments`: a message, its acknowledgement and its answer.
-/

namespace LightLink.Relay

namespace Client

/-! ## Items -/

section Steps

variable {τ : Type} {k : Client τ} {bs : Bytes} {skipped : List Bytes} {deadline : Nat}

/-- An item that is no acknowledgement is dropped. -/
theorem awaitAckUntil_drops {c' : Channel τ} (other : bs ≠ ackToken)
    (received : k.channel.receive (some deadline) = (.ok (.ofBytes bs), c')) :
    awaitAckUntil deadline k = awaitAckUntil deadline ⟨k.config, c'⟩ := by
  have dropped : (Item.ofBytes bs).isToken ackToken = false := by
    rw [← Bool.not_eq_true, Item.isToken_ofBytes_iff]
    exact other
  rw [awaitAckUntil_eq, received]
  dsimp only
  rw [dropped]
  rfl

/-- All items in front of an acknowledgement are dropped. -/
theorem awaitAckUntil_brings (no_ack : ackToken ∉ skipped)
    (h : k.channel.Brings (some deadline) (skipped ++ [ackToken])) :
    ∃ c', awaitAckUntil deadline k = (.ok (), ⟨k.config, c'⟩) ∧
      k.channel.Behind none (skipped ++ [ackToken]) c' := by
  induction skipped generalizing k with
  | nil =>
    obtain ⟨c', received, -, behind⟩ := Channel.receive_brings h
    refine ⟨c', ?_, behind⟩
    rw [awaitAckUntil_eq, received]
    rfl
  | cons bs skipped ih =>
    obtain ⟨other, no_ack⟩ := List.ne_and_not_mem_of_not_mem_cons no_ack
    obtain ⟨c₁, received, due, behind⟩ := Channel.receive_brings h
    obtain ⟨c', waited, behind'⟩ := ih (k := ⟨k.config, c₁⟩) no_ack (due.brings h)
    exact ⟨c', (awaitAckUntil_drops other.symm received).trans waited, behind.trans behind'⟩

/-- No acknowledgement comes until the deadline. -/
theorem awaitAckUntil_ends {loss : Option StreamLoss} (no_ack : ackToken ∉ skipped)
    (h : k.channel.Ends (some deadline) skipped loss) : (awaitAckUntil deadline k).1 =
      .error (stopOf k.config.ackTimeout (Channel.failure (some deadline) loss)) := by
  induction skipped generalizing k with
  | nil =>
    obtain ⟨c', received⟩ := Channel.receive_ends h
    rw [awaitAckUntil_eq, received]
  | cons bs skipped ih =>
    obtain ⟨other, no_ack⟩ := List.ne_and_not_mem_of_not_mem_cons no_ack
    obtain ⟨c₁, received, due, -⟩ := Channel.receive_brings h.brings
    rw [awaitAckUntil_drops other.symm received]
    exact ih (k := ⟨k.config, c₁⟩) no_ack (due.ends h)

end Steps

section Requests

variable {τ : Type} [RelayEnd τ] {k : Client τ} {bs : Bytes}

theorem send_ok (small : bs.length ≤ maxItemSize) {d : Channel τ}
    (e : k.channel.sendItem bs = .ok d) : send bs k = (.ok (), ⟨k.config, d⟩) := by
  unfold send
  rw [encodeItem_of_le small]
  dsimp only
  rw [Channel.sendItem_eq_ok_iff.mp e]
  rfl

theorem send_error (small : bs.length ≤ maxItemSize) {f : Fault}
    (e : k.channel.sendItem bs = .error f) :
    (send bs k).1 = .error (.failed (.linkLost (.failed f))) := by
  unfold send
  rw [encodeItem_of_le small]
  dsimp only
  rw [Channel.sendItem_eq_error_iff.mp e]
  rfl

/-- A request for data that is answered. -/
theorem requestData_answered (h : k.channel.Answered none [dataToken] [bs]) :
    ∃ d d', k.channel.sendAll [dataToken] = .ok d ∧ d.Behind none [bs] d' ∧
      requestData k = (.ok (Item.ofBytes bs).toOption, ⟨k.config, d'⟩) := by
  obtain ⟨d, sent, brings⟩ := h
  obtain ⟨d', received, behind, -⟩ := Channel.receive_brings brings
  refine ⟨d, d', sent, behind, ?_⟩
  rw [Channel.sendAll_singleton] at sent
  have got : receive ⟨k.config, d⟩ = (.ok (.ofBytes bs), ⟨k.config, d'⟩) := by
    unfold receive receiveUntil
    rw [received]
    rfl
  unfold requestData
  rw [request_bind, send_ok (by decide) sent]
  dsimp only
  rw [request_bind, got]
  rfl

/-- A request for data on a stream that is lost. -/
theorem requestData_loses {cause : StreamLoss} (h : k.channel.Loses none [dataToken] [] cause) :
    (requestData k).1 = .error (.failed (.linkLost cause)) := by
  unfold requestData
  rw [request_bind]
  rcases h with ⟨f, failed, rfl⟩ | ⟨d, sent, ends⟩
  · rw [Channel.sendAll_singleton] at failed
    have stopped := send_error (by decide) failed
    rcases e : send dataToken k with ⟨stop | done, k'⟩
    · rw [e] at stopped
      cases stopped
      rfl
    · rw [e] at stopped
      cases stopped
  · obtain ⟨d', received⟩ := Channel.receive_ends ends
    have got : receive ⟨k.config, d⟩ = (.error (.failed (.linkLost cause)), ⟨k.config, d'⟩) := by
      unfold receive receiveUntil
      rw [received]
      rfl
    rw [Channel.sendAll_singleton] at sent
    rw [send_ok (by decide) sent]
    dsimp only
    rw [request_bind, got]

end Requests

/-! ## What is sent -/

section Handed

variable {τ : Type}

/-- What a client has written to its stream, first one first, whether it could be sent or not. -/
def handed (k : Client (Recorded τ)) : List Bytes := k.channel.far.handed

/-- To wait is to write nothing. -/
theorem handed_awaitAckUntil (deadline : Nat) (k : Client (Recorded τ)) :
    (awaitAckUntil deadline k).2.handed = k.handed := by
  fun_induction awaitAckUntil deadline k with
  | case1 k e channel received => exact congrArg (fun r => r.2.far.handed) received.symm
  | case2 k item channel received is_ack => exact congrArg (fun r => r.2.far.handed) received.symm
  | case3 k item channel received other ih =>
    exact ih.trans (congrArg (fun r => r.2.far.handed) received.symm)

variable [RelayEnd τ] {bs : Bytes}

theorem handed_send (small : bs.length ≤ maxItemSize) (k : Client (Recorded τ)) :
    (send bs k).2.handed = k.handed ++ [itemBytes bs] := by
  unfold send
  rw [encodeItem_of_le small]
  rfl

/-- A request for data is written, whatever comes of it. -/
theorem handed_requestData (k : Client (Recorded τ)) :
    (requestData k).2.handed = k.handed ++ [itemBytes dataToken] := by
  have small : dataToken.length ≤ maxItemSize := by decide
  have sent := handed_send small k
  unfold requestData
  rw [request_bind]
  generalize send dataToken k = outcome at sent ⊢
  obtain ⟨stop | done, k'⟩ := outcome
  · exact sent
  · have same : (receive k').2.handed = k'.handed := rfl
    dsimp only at sent ⊢
    rw [request_bind]
    generalize receive k' = outcome at same ⊢
    obtain ⟨stop | item, k''⟩ := outcome
    · exact same.trans sent
    · exact same.trans sent

end Handed

/-! ## The answer -/

/-- The answer ends with this reply: it is empty, or it has no header, or its header does not say
that another part follows. -/
def endsAnswer (reply : Bytes) : Bool :=
  reply.isEmpty ||
    match MessageHeader.decode reply with
    | .error _ => true
    | .ok (header, _) => !header.flags.contains .moreData

/-- A reply that is not empty ends the answer just if the client sees no mark in it. -/
theorem endsAnswer_cons (b : UInt8) (bs : Bytes) :
    endsAnswer (b :: bs) = !hasMore (b :: bs) := by
  unfold endsAnswer hasMore
  cases MessageHeader.decode (b :: bs) <;> rfl

/-- How many replies a client asks for, where these are the replies: those up to the first one that
ends the answer, but at most `limit`. -/
def asks (limit : Nat) (replies : Nat → Bytes) : Nat :=
  min limit ((List.range limit).findIdx (fun i => endsAnswer (replies i)) + 1)

theorem asks_succ (limit : Nat) (replies : Nat → Bytes) : asks (limit + 1) replies =
    if endsAnswer (replies 0) then 1 else asks limit (fun i => replies (i + 1)) + 1 := by
  unfold asks
  rw [List.range_succ_eq_map, List.findIdx_cons, List.findIdx_map]
  cases endsAnswer (replies 0) with
  | true => simp
  | false => simp [Function.comp_def]

section Collect

variable {τ : Type} [RelayEnd τ] {k k' : Client τ} {bs : Bytes} {most : Nat}

theorem collect_of_error {stop : Stop} (e : requestData k = (.error stop, k')) :
    collect (most + 1) k = (.error stop, k') := by
  rw [collect, request_bind, e]

theorem collect_of_ends (e : requestData k = (.ok (Item.ofBytes bs).toOption, k'))
    (ends : endsAnswer bs) : collect (most + 1) k = (.ok ([bs].filter (· ≠ [])), k') := by
  rw [collect, request_bind, e]
  cases bs with
  | nil => rfl
  | cons b bs =>
    have last : hasMore (b :: bs) = false := by simpa [endsAnswer_cons] using ends
    show (if hasMore (b :: bs) then _ else _ : Request τ (List Bytes)) k' = _
    rw [last]
    rfl

theorem collect_of_more (e : requestData k = (.ok (Item.ofBytes bs).toOption, k'))
    (more : ¬ endsAnswer bs) : collect (most + 1) k =
      ((collect most k').1.map ([bs].filter (· ≠ []) ++ ·), (collect most k').2) := by
  rw [collect, request_bind, e]
  cases bs with
  | nil => exact absurd rfl more
  | cons b bs =>
    have more' : hasMore (b :: bs) = true := by simpa [endsAnswer_cons] using more
    show (if hasMore (b :: bs) then _ else _ : Request τ (List Bytes)) k' = _
    rw [more', if_pos rfl, request_bind]
    rcases collect most k' with ⟨stop | rest, k''⟩ <;> rfl

end Collect

section Answer

variable {τ : Type} [RelayEnd τ] {k : Client (Recorded τ)} {most : Nat} {replies : Nat → Bytes}

theorem range_succ_map (replies : Nat → Bytes) (n : Nat) : (List.range (n + 1)).map replies =
    [replies 0] ++ (List.range n).map fun i => replies (i + 1) := by
  rw [List.range_succ_eq_map, List.map_cons, List.map_map]
  rfl

/-- Once the first reply has been read, the others come. -/
theorem answered_rest {c d d' : Channel (Recorded τ)} {n : Nat}
    (behind : d.Behind none [replies 0] d') (sent : c.sendAll [dataToken] = .ok d)
    (h : c.Answered none (List.replicate (n + 1) dataToken) ((List.range (n + 1)).map replies)) :
    d'.Answered none (List.replicate n dataToken)
      ((List.range n).map fun i => replies (i + 1)) := by
  rw [range_succ_map] at h
  exact behind.answered sent h

/-- One request after the other, each of which is answered. -/
theorem collect_answered (h : ∀ i < asks most replies, k.channel.Answered none
      (List.replicate (i + 1) dataToken) ((List.range (i + 1)).map replies)) :
    (collect most k).1 = .ok (((List.range (asks most replies)).map replies).filter (· ≠ [])) ∧
      (collect most k).2.handed =
        k.handed ++ List.replicate (asks most replies) (itemBytes dataToken) := by
  -- Behind the first reply the client is where it would start with the others, one less to take.
  induction most generalizing k replies with
  | zero => exact ⟨rfl, (List.append_nil _).symm⟩
  | succ most ih =>
    have one : asks (most + 1) replies ≠ 0 := by
      rw [asks_succ]
      split <;> simp
    obtain ⟨d, d', sent, behind, requested⟩ :=
      requestData_answered (h 0 (Nat.pos_of_ne_zero one))
    have handed' := handed_requestData k
    rw [requested] at handed'
    rw [asks_succ] at h ⊢
    by_cases ends : endsAnswer (replies 0)
    · rw [if_pos ends, collect_of_ends requested ends]
      exact ⟨rfl, handed'⟩
    · rw [if_neg ends] at h ⊢
      obtain ⟨collected, handed''⟩ := ih (k := ⟨k.config, d'⟩) fun i lt =>
        answered_rest behind sent (h (i + 1) (Nat.succ_lt_succ lt))
      rw [collect_of_more requested ends]
      dsimp only
      rw [collected, handed'', handed', range_succ_map, List.filter_append, List.append_assoc]
      exact ⟨rfl, rfl⟩

/-- Some requests that are answered, and one after which the stream is lost. -/
theorem collect_loses {j : Nat} {cause : StreamLoss} (lt : j < asks most replies)
    (h : ∀ i < j, k.channel.Answered none (List.replicate (i + 1) dataToken)
      ((List.range (i + 1)).map replies))
    (loses : k.channel.Loses none (List.replicate (j + 1) dataToken)
      ((List.range j).map replies) cause) :
    (collect most k).1 = .error (.failed (.linkLost cause)) ∧
      (collect most k).2.handed =
        k.handed ++ List.replicate (j + 1) (itemBytes dataToken) := by
  induction most generalizing k replies j with
  | zero => exact absurd lt (Nat.not_lt_zero j)
  | succ most ih =>
    have handed' := handed_requestData k
    cases j with
    | zero =>
      have lost := requestData_loses loses
      rcases e : requestData k with ⟨stop | fragment, k'⟩
      · rw [e] at lost handed'
        cases lost
        rw [collect_of_error e]
        exact ⟨rfl, handed'⟩
      · rw [e] at lost
        cases lost
    | succ j =>
      obtain ⟨d, d', sent, behind, requested⟩ := requestData_answered (h 0 (Nat.succ_pos j))
      rw [requested] at handed'
      rw [asks_succ] at lt
      by_cases ends : endsAnswer (replies 0)
      · rw [if_pos ends] at lt
        omega
      · rw [if_neg ends] at lt
        rw [range_succ_map] at loses
        obtain ⟨lost, handed''⟩ := ih (k := ⟨k.config, d'⟩) (Nat.lt_of_succ_lt_succ lt)
          (fun i lt => answered_rest behind sent (h (i + 1) (Nat.succ_lt_succ lt)))
          (behind.loses sent loses)
        rw [collect_of_more requested ends]
        dsimp only
        rw [lost, handed'', handed', List.append_assoc]
        exact ⟨rfl, rfl⟩

end Answer

/-! ## The call -/

section Call

variable {τ : Type} [RelayEnd τ] {k : Client (Recorded τ)} {m : Message} {bytes : Bytes}
  {skipped : List Bytes} {expectResponse : Bool}

/-- The call has this result, and these are the items that it sends. -/
def ComesTo (m : Message) (expectResponse : Bool) (k : Client (Recorded τ))
    (result : Except Stop (List Bytes)) (items : List Bytes) : Prop :=
  (sendAndAck m expectResponse k).1 = result ∧
    (sendAndAck m expectResponse k).2.handed = k.handed ++ items.map itemBytes

theorem now_of_sendItem {c d : Channel (Recorded τ)} (e : c.sendItem bytes = .ok d) :
    d.now = c.now :=
  (congrArg (fun r => r.2.now) (Channel.sendItem_eq_ok_iff.mp e)).symm

/-- A message that is acknowledged in time, and what the client reads behind it. -/
theorem sendAndAck_acknowledged (encoded : m.encode = .ok bytes) (no_ack : ackToken ∉ skipped)
    (h : k.channel.Answered (some (k.channel.now + k.config.ackTimeout)) [bytes]
      (skipped ++ [ackToken])) :
    ∃ d d', k.channel.sendAll [bytes] = .ok d ∧ d.Behind none (skipped ++ [ackToken]) d' ∧
      d'.far.handed = k.handed ++ [itemBytes bytes] ∧
      sendAndAck m expectResponse k =
        if expectResponse then collect k.config.maxFragments ⟨k.config, d'⟩
        else (.ok [], ⟨k.config, d'⟩) := by
  obtain ⟨d, sent, brings⟩ := h
  have small := length_le_maxItemSize encoded
  have sent' := sent
  rw [Channel.sendAll_singleton] at sent'
  rw [← now_of_sendItem sent'] at brings
  have handed' := handed_send small k
  rw [send_ok small sent'] at handed'
  obtain ⟨d', waited, behind⟩ := awaitAckUntil_brings (k := ⟨k.config, d⟩) no_ack brings
  refine ⟨d, d', sent, behind, (congrArg Recorded.handed behind.far).trans handed', ?_⟩
  rw [sendAndAck_of_send encoded expectResponse (send_ok small sent'), waited]

/-- A message that is not acknowledged in time. -/
theorem sendAndAck_unacknowledged {loss : Option StreamLoss} (encoded : m.encode = .ok bytes)
    (no_ack : ackToken ∉ skipped)
    (h : k.channel.EndsAfter (some (k.channel.now + k.config.ackTimeout)) [bytes] skipped loss) :
    ComesTo m expectResponse k (.error (stopOf k.config.ackTimeout
      (Channel.failure (some (k.channel.now + k.config.ackTimeout)) loss))) [bytes] := by
  obtain ⟨d, sent, ends⟩ := h
  have small := length_le_maxItemSize encoded
  rw [Channel.sendAll_singleton] at sent
  rw [← now_of_sendItem sent] at ends ⊢
  have handed' := handed_send small k
  rw [send_ok small sent] at handed'
  have waited := awaitAckUntil_ends (k := ⟨k.config, d⟩) no_ack ends
  have same := handed_awaitAckUntil (d.now + k.config.ackTimeout) ⟨k.config, d⟩
  unfold ComesTo
  rw [sendAndAck_of_send encoded expectResponse (send_ok small sent)]
  generalize awaitAckUntil (d.now + k.config.ackTimeout) ⟨k.config, d⟩ = outcome at waited same ⊢
  obtain ⟨stop | done, k'⟩ := outcome
  · cases waited
    exact ⟨rfl, same.trans handed'⟩
  · cases waited

/-- A message that cannot be sent. -/
theorem sendAndAck_unsent {f : Fault} (encoded : m.encode = .ok bytes)
    (failed : k.channel.sendAll [bytes] = .error f) :
    ComesTo m expectResponse k (.error (.failed (.linkLost (.failed f)))) [bytes] := by
  have small := length_le_maxItemSize encoded
  rw [Channel.sendAll_singleton] at failed
  have stopped := send_error small failed
  have handed' := handed_send small k
  rcases e : send bytes k with ⟨stop | done, k'⟩
  · rw [e] at stopped handed'
    cases stopped
    unfold ComesTo
    rw [sendAndAck_of_send_error encoded expectResponse e]
    exact ⟨rfl, handed'⟩
  · rw [e] at stopped
    cases stopped

/-- A call is told by the items that the relay sends, in whatever pieces they come. Those in front
of the acknowledgement are dropped. Where no answer is expected, nothing else is sent. Where one is,
the replies up to the first one that ends the answer are asked for, one by one and as far as the
limit allows, and those that are not empty are the result. Where the stream is lost before that, the
call fails with the loss, and where the acknowledgement does not come in time, with that. -/
theorem sendAndAck_fragments (encoded : m.encode = .ok bytes) (no_ack : ackToken ∉ skipped)
    (replies : Nat → Bytes) :
    let deadline := k.channel.now + k.config.ackTimeout
    let n := asks k.config.maxFragments replies
    let sent (i : Nat) := bytes :: List.replicate i dataToken
    let came (i : Nat) := skipped ++ ackToken :: (List.range i).map replies
    (k.channel.Answered (some deadline) (sent 0) (came 0) →
      ComesTo m false k (.ok []) (sent 0) ∧
      ((∀ i < n, k.channel.Answered none (sent (i + 1)) (came (i + 1))) →
        ComesTo m true k (.ok (((List.range n).map replies).filter (· ≠ []))) (sent n)) ∧
      ∀ j < n, ∀ cause, (∀ i < j, k.channel.Answered none (sent (i + 1)) (came (i + 1))) →
        k.channel.Loses none (sent (j + 1)) (came j) cause →
        ComesTo m true k (.error (.failed (.linkLost cause))) (sent (j + 1))) ∧
    ∀ expectResponse,
      (∀ cause, k.channel.Loses (some deadline) (sent 0) skipped cause →
        ComesTo m expectResponse k (.error (.failed (.linkLost cause))) (sent 0)) ∧
      (k.channel.EndsAfter (some deadline) (sent 0) skipped none →
        ComesTo m expectResponse k (.error (.failed (.ackTimeout k.config.ackTimeout)))
          (sent 0)) := by
  intro deadline n sent came
  have came_eq (i : Nat) : came i = (skipped ++ [ackToken]) ++ (List.range i).map replies :=
    (List.append_assoc skipped [ackToken] _).symm
  have sent_eq (i : Nat) : (sent i).map itemBytes =
      [itemBytes bytes] ++ List.replicate i (itemBytes dataToken) := by
    rw [List.map_cons, List.map_replicate]
    rfl
  refine ⟨fun acknowledged => ⟨?_, fun answered => ?_, fun j lt cause answered loses => ?_⟩,
    fun expectResponse => ⟨fun cause loses => ?_, fun late => ?_⟩⟩
  · obtain ⟨d, d', -, -, handed', e⟩ := sendAndAck_acknowledged encoded no_ack acknowledged
    exact ⟨congrArg Prod.fst e, (congrArg (fun r => r.2.handed) e).trans handed'⟩
  · obtain ⟨d, d', sent', behind, handed', e⟩ :=
      sendAndAck_acknowledged encoded no_ack acknowledged
    obtain ⟨collected, handed''⟩ := collect_answered (k := ⟨k.config, d'⟩) fun i lt =>
      behind.answered sent' (came_eq (i + 1) ▸ answered i lt)
    unfold ComesTo
    rw [e, if_pos rfl, sent_eq, ← List.append_assoc, ← handed']
    exact ⟨collected, handed''⟩
  · obtain ⟨d, d', sent', behind, handed', e⟩ :=
      sendAndAck_acknowledged encoded no_ack acknowledged
    obtain ⟨lost, handed''⟩ := collect_loses (k := ⟨k.config, d'⟩) lt
      (fun i lt => behind.answered sent' (came_eq (i + 1) ▸ answered i lt))
      (behind.loses sent' (came_eq j ▸ loses))
    unfold ComesTo
    rw [e, if_pos rfl, sent_eq, ← List.append_assoc, ← handed']
    exact ⟨lost, handed''⟩
  · rcases loses with ⟨f, failed, rfl⟩ | ends
    · exact sendAndAck_unsent encoded failed
    · exact sendAndAck_unacknowledged encoded no_ack ends
  · exact sendAndAck_unacknowledged encoded no_ack late

end Call

end Client

/-- A relay that has been recorded: each time it is written to it sends the next entry. -/
structure Playback where
  entries : List (List (Nat × Incoming))

instance : RelayEnd Playback where
  write p _ := (.ok (), p)
  send p := (p.entries.headD [], { entries := p.entries.tail })

/-- The parts of an answer in two parts. -/
def parts : Nat → Bytes
  | 0 => [0xFC, 0, 2, 8, 2, 4, 0x78, 0]
  | _ => [0xFC, 0, 2, 8, 2, 0, 0x78, 0]

/-- A client of a relay that sends another item and an acknowledgement, the first part of an answer
and then something else, all cut anywhere. -/
def Client.played (last : List (Nat × Incoming)) : Client (Recorded Playback) where
  config := { maxFragments := 4 }
  channel := {
    far := { far := { entries := [
      [(5, .bytes [0, 0, 0]), (9, .bytes [1, 1, 0, 0]), (9, .bytes ([0, 3] ++ ackToken))],
      [(2, .bytes [0, 0, 0, 8, 0xFC, 0]), (40, .bytes [2, 8, 2, 4, 0x78, 0])], last] } } }

/-- An answer of which the second part comes, and one of which it is cut off. -/
theorem Client.sendAndAck_fragments_parts :
    let whole := played [(1, .bytes ([0, 0, 0, 8] ++ parts 1))]
    let cut := played [(1, .bytes [0, 0, 0, 8, 0xFC]), (2, .lost .closed)]
    (Message.poll 0x78).encode = .ok pollBytes ∧ ackToken ∉ [[1]] ∧
      ComesTo (.poll 0x78) true whole (.ok [parts 0, parts 1])
        [pollBytes, dataToken, dataToken] ∧
      ComesTo (.poll 0x78) true cut (.error (.failed (.linkLost .closed)))
        [pollBytes, dataToken, dataToken] := by
  intro whole cut
  have encoded : (Message.poll 0x78).encode = .ok pollBytes := rfl
  have no_ack : ackToken ∉ [[1]] := by decide
  have two : asks 4 parts = 2 := by decide +kernel
  have acknowledged (last : List (Nat × Incoming)) : (played last).channel.Answered
      (some ((played last).channel.now + (played last).config.ackTimeout))
      [pollBytes] ([[1]] ++ [ackToken]) := ⟨_, rfl, by decide, [], rfl⟩
  have first (last : List (Nat × Incoming)) : (played last).channel.Answered none
      [pollBytes, dataToken] ([[1]] ++ [ackToken, parts 0]) := ⟨_, rfl, by decide, [], rfl⟩
  have second : whole.channel.Answered none
      [pollBytes, dataToken, dataToken] ([[1]] ++ [ackToken, parts 0, parts 1]) :=
    ⟨_, rfl, by decide, [], rfl⟩
  have lost : cut.channel.Loses none [pollBytes, dataToken, dataToken]
      ([[1]] ++ [ackToken, parts 0]) .closed :=
    .inr ⟨_, rfl, by decide, ⟨[0, 0, 0, 8, 0xFC], rfl, rfl⟩, rfl⟩
  refine ⟨encoded, no_ack, ?_, ?_⟩
  · have collects :=
      ((sendAndAck_fragments (k := whole) encoded no_ack parts).1 (acknowledged _)).2.1
    rw [show whole.config.maxFragments = 4 from rfl, two] at collects
    refine collects fun i lt => ?_
    obtain rfl | rfl : i = 0 ∨ i = 1 := by omega
    · exact first _
    · exact second
  · have loses := ((sendAndAck_fragments (k := cut) encoded no_ack parts).1 (acknowledged _)).2.2
    rw [show cut.config.maxFragments = 4 from rfl, two] at loses
    refine loses 1 Nat.one_lt_two .closed (fun i lt => ?_) lost
    obtain rfl := Nat.lt_one_iff.mp lt
    exact first _

end LightLink.Relay
