import LightLink.Proofs.Relay.Replies
import LightLink.Proofs.Session.Recorded

/-!
# What comes to a client

A client takes a stream of bytes apart into items. Which items it gets depends on the bytes only and
not on the pieces in which they come, and what a relay makes of what it is sent does not depend on
when the client reads.

* `Channel.stream`, `Channel.loss?`: the bytes that come, and how the stream is lost;
* `Channel.receive_brings`, `Channel.receive_ends`: the next item, and where none comes;
* `Channel.Answered`, `Channel.Loses`: what comes once some items are sent;
* `Channel.Behind`: a channel that has read some items of another one;
* `Channel.Behind.answered`, `Channel.Behind.loses`: what is sent on both comes to the same.
-/

namespace LightLink.Relay

instance {τ : Type} [RelayEnd τ] : RelayEnd (Recorded τ) where
  write r bytes :=
    let (outcome, far) := RelayEnd.write r.far bytes
    (outcome, ⟨far, r.handed ++ [bytes]⟩)
  send r :=
    let (sent, far) := RelayEnd.send r.far
    (sent, { r with far })

/-! ## The stream -/

/-- The bytes that come before the stream is lost. -/
def bytesOf : List (Nat × Incoming) → Bytes
  | [] => []
  | (_, .bytes bs) :: rest => bs ++ bytesOf rest
  | (_, .lost _) :: _ => []

/-- How the stream is lost, if it is. -/
def lossOf : List (Nat × Incoming) → Option StreamLoss
  | [] => none
  | (_, .bytes _) :: rest => lossOf rest
  | (_, .lost cause) :: _ => some cause

/-- What comes until `deadline`, if there is one. -/
def upTo (deadline : Option Nat) (coming : List (Nat × Incoming)) : List (Nat × Incoming) :=
  coming.takeWhile fun c => !deadline.any (· < c.1)

section Stream

variable {deadline : Option Nat} {t : Nat} {x : Incoming} {rest : List (Nat × Incoming)}

theorem upTo_of_late (late : deadline.any (· < t)) : upTo deadline ((t, x) :: rest) = [] := by
  simp [upTo, late]

theorem upTo_of_in_time (in_time : ¬ deadline.any (· < t)) :
    upTo deadline ((t, x) :: rest) = (t, x) :: upTo deadline rest := by
  simp [upTo, in_time]

theorem upTo_none (coming : List (Nat × Incoming)) : upTo none coming = coming := by
  induction coming with
  | nil => rfl
  | cons c rest ih =>
    rw [upTo, List.takeWhile_cons_of_pos rfl]
    exact congrArg (c :: ·) ih

theorem upTo_arriving {taken : List (Nat × Bytes)}
    (in_time : ∀ p ∈ taken, ¬ deadline.any (· < p.1)) :
    upTo deadline (arriving taken ++ rest) = arriving taken ++ upTo deadline rest := by
  induction taken with
  | nil => rfl
  | cons p ps ih =>
    have cons : arriving (p :: ps) = (p.1, .bytes p.2) :: arriving ps := rfl
    rw [cons, List.cons_append, upTo_of_in_time (in_time p (.head _)),
      ih fun q mem => in_time q (.tail _ mem)]
    rfl

theorem bytesOf_arriving (taken : List (Nat × Bytes)) :
    bytesOf (arriving taken ++ rest) = taken.flatMap Prod.snd ++ bytesOf rest := by
  induction taken with
  | nil => rfl
  | cons p ps ih => exact (congrArg (p.2 ++ ·) ih).trans (List.append_assoc ..).symm

theorem lossOf_arriving (taken : List (Nat × Bytes)) :
    lossOf (arriving taken ++ rest) = lossOf rest := by
  induction taken with
  | nil => rfl
  | cons p ps ih => exact ih

/-- What comes behind a loss is not read. -/
theorem bytesOf_append (coming sent : List (Nat × Incoming)) : bytesOf (coming ++ sent) =
    bytesOf coming ++ if (lossOf coming).isSome then [] else bytesOf sent := by
  induction coming with
  | nil => rfl
  | cons c rest ih =>
    obtain ⟨t, bs | cause⟩ := c
    · exact (congrArg (bs ++ ·) ih).trans (List.append_assoc ..).symm
    · rfl

theorem lossOf_append (coming sent : List (Nat × Incoming)) :
    lossOf (coming ++ sent) = (lossOf coming).or (lossOf sent) := by
  induction coming with
  | nil => rfl
  | cons c rest ih =>
    obtain ⟨t, bs | cause⟩ := c
    · exact ih
    · rfl

theorem bytesOf_delayed (now : Nat) (sent : List (Nat × Incoming)) :
    bytesOf (sent.map fun s => (now + s.1, s.2)) = bytesOf sent := by
  induction sent with
  | nil => rfl
  | cons c rest ih =>
    obtain ⟨t, bs | cause⟩ := c
    · exact congrArg (bs ++ ·) ih
    · rfl

theorem lossOf_delayed (now : Nat) (sent : List (Nat × Incoming)) :
    lossOf (sent.map fun s => (now + s.1, s.2)) = lossOf sent := by
  induction sent with
  | nil => rfl
  | cons c rest ih =>
    obtain ⟨t, bs | cause⟩ := c
    · exact ih
    · rfl

end Stream

namespace Channel

variable {τ : Type}

/-- The bytes that have come and those that still come until `deadline`. -/
def stream (deadline : Option Nat) (c : Channel τ) : Bytes :=
  c.decoder.buffer ++ bytesOf (upTo deadline c.coming)

/-- How the stream is lost until `deadline`, if it is. -/
def loss? (deadline : Option Nat) (c : Channel τ) : Option StreamLoss :=
  lossOf (upTo deadline c.coming)

/-- The first items that come until `deadline` are these. -/
structure Brings (deadline : Option Nat) (c : Channel τ) (items : List Bytes) : Prop where
  small : ∀ bs ∈ items, bs.length ≤ maxItemSize
  stream : items.flatMap itemBytes <+: c.stream deadline

/-- No items but these come until `deadline`, as the stream is lost or as no more of it comes. -/
structure Ends (deadline : Option Nat) (c : Channel τ) (items : List Bytes)
    (loss : Option StreamLoss) : Prop where
  small : ∀ bs ∈ items, bs.length ≤ maxItemSize
  stream : ∃ part, c.stream deadline = items.flatMap itemBytes ++ part ∧
    (ItemDecoder.mk part).next.1 = .ok none
  loss : c.loss? deadline = loss

/-! ## One item -/

/-- Why no item comes until `deadline`. -/
def failure (deadline : Option Nat) : Option StreamLoss → Failure
  | some cause => .lost cause
  | none => if deadline.isSome then .timeUp else .forever

/-- In whatever pieces an item comes, it is taken out, and what comes behind it is left. -/
theorem receiveFrom_brings {bs later : Bytes} (small : bs.length ≤ maxItemSize)
    {deadline : Option Nat} {coming : List (Nat × Incoming)} {d : ItemDecoder} (now : Nat)
    (stream : d.buffer ++ bytesOf (upTo deadline coming) = itemBytes bs ++ later) :
    ∃ now' tail taken coming', coming = arriving taken ++ coming' ∧
      (∀ p ∈ taken, ¬ deadline.any (· < p.1)) ∧
      d.buffer ++ taken.flatMap Prod.snd = itemBytes bs ++ tail ∧
      receiveFrom deadline now d coming = (.ok (.ofBytes bs), now', ⟨tail⟩, coming') := by
  -- Each piece that comes before the item is all there goes to the buffer.
  induction coming generalizing d now with
  | nil =>
    rcases ItemDecoder.next_of_stream small stream with ⟨-, more⟩ | ⟨tail, e, front, -⟩
    · exact absurd rfl more
    · refine ⟨now, tail, [], [], rfl, nofun, (List.append_nil _).trans front, ?_⟩
      rw [receiveFrom, e]
  | cons c rest ih =>
    obtain ⟨t, x⟩ := c
    rcases ItemDecoder.next_of_stream small stream with ⟨e, more⟩ | ⟨tail, e, front, -⟩
    · by_cases late : deadline.any (· < t)
      · rw [upTo_of_late late] at more
        exact absurd rfl more
      · rw [upTo_of_in_time late] at stream more
        cases x with
        | lost cause => exact absurd rfl more
        | bytes piece =>
          rw [bytesOf, ← List.append_assoc] at stream
          obtain ⟨now', tail, taken, coming', rfl, in_time, kept, received⟩ :=
            ih (d := d.push piece) (max now t) stream
          refine ⟨now', tail, (t, piece) :: taken, coming', rfl,
            List.forall_mem_cons.mpr ⟨late, in_time⟩, ?_, ?_⟩
          · rw [List.flatMap_cons, ← List.append_assoc]
            exact kept
          · rw [receiveFrom_bytes e late, received]
    · refine ⟨now, tail, [], (t, x) :: rest, rfl, nofun, (List.append_nil _).trans front, ?_⟩
      rw [receiveFrom, e]

/-- Where no more comes before an item is all there, none comes. -/
theorem receiveFrom_ends {deadline : Option Nat} {coming : List (Nat × Incoming)} {d : ItemDecoder}
    (now : Nat) (part : (d.push (bytesOf (upTo deadline coming))).next.1 = .ok none) :
    ∃ now' d' coming', receiveFrom deadline now d coming =
      (.error (failure deadline (lossOf (upTo deadline coming))), now', d', coming') := by
  induction coming generalizing d now with
  | nil =>
    have e := ItemDecoder.next_of_push part
    cases deadline with
    | none => exact ⟨_, _, _, by rw [receiveFrom, e]; rfl⟩
    | some t => exact ⟨_, _, _, by rw [receiveFrom, e]; rfl⟩
  | cons c rest ih =>
    obtain ⟨t, x⟩ := c
    have e := ItemDecoder.next_of_push part
    by_cases late : deadline.any (· < t)
    · have some_deadline : deadline.isSome := by
        cases deadline with
        | none => cases late
        | some _ => rfl
      refine ⟨max now (deadline.getD now), d, (t, x) :: rest, ?_⟩
      rw [receiveFrom, e]
      dsimp only
      rw [if_pos late, upTo_of_late late, lossOf, failure, if_pos some_deadline]
    · rw [upTo_of_in_time late] at part ⊢
      cases x with
      | lost cause =>
        refine ⟨max now t, d, (t, .lost cause) :: rest, ?_⟩
        rw [receiveFrom, e]
        dsimp only
        rw [if_neg late]
        rfl
      | bytes piece =>
        have part' : ((d.push piece).push (bytesOf (upTo deadline rest))).next.1 = .ok none := by
          rw [bytesOf, ItemDecoder.push, ← List.append_assoc] at part
          exact part
        rw [receiveFrom_bytes e late]
        exact ih (max now t) part'

/-! ## Behind -/

/-- `c'` comes to what `c` comes to once these items have been read. -/
structure Behind (deadline : Option Nat) (c : Channel τ) (items : List Bytes) (c' : Channel τ) :
    Prop where
  far : c'.far = c.far
  stream : c.stream deadline = items.flatMap itemBytes ++ c'.stream deadline
  loss : c'.loss? deadline = c.loss? deadline

section Behind

variable {deadline : Option Nat} {c c' c'' : Channel τ} {items items' : List Bytes}

theorem Behind.trans (h : c.Behind deadline items c') (h' : c'.Behind deadline items' c'') :
    c.Behind deadline (items ++ items') c'' where
  far := h'.far.trans h.far
  stream := by rw [h.stream, h'.stream, List.flatMap_append, List.append_assoc]
  loss := h'.loss.trans h.loss

/-- To take pieces that come in time is to fall behind by the items that they complete. -/
theorem Behind.of_taken {taken : List (Nat × Bytes)} (far : c'.far = c.far)
    (coming : c.coming = arriving taken ++ c'.coming)
    (in_time : ∀ p ∈ taken, ¬ deadline.any (· < p.1))
    (buffer : c.decoder.buffer ++ taken.flatMap Prod.snd =
      items.flatMap itemBytes ++ c'.decoder.buffer) : c.Behind deadline items c' := by
  refine ⟨far, ?_, ?_⟩
  · rw [Channel.stream, coming, upTo_arriving in_time, bytesOf_arriving, ← List.append_assoc,
      buffer, List.append_assoc]
    rfl
  · rw [loss?, loss?, coming, upTo_arriving in_time, lossOf_arriving]

theorem Behind.brings (behind : c.Behind deadline items c')
    (h : c.Brings deadline (items ++ items')) : c'.Brings deadline items' := by
  refine ⟨fun bs mem => h.small bs (List.mem_append_right _ mem), ?_⟩
  have stream := h.stream
  rwa [behind.stream, List.flatMap_append, List.prefix_append_right_inj] at stream

theorem Behind.ends {loss : Option StreamLoss} (behind : c.Behind deadline items c')
    (h : c.Ends deadline (items ++ items') loss) : c'.Ends deadline items' loss := by
  obtain ⟨part, stream, is_part⟩ := h.stream
  refine ⟨fun bs mem => h.small bs (List.mem_append_right _ mem), ⟨part, ?_, is_part⟩,
    behind.loss.trans h.loss⟩
  rwa [behind.stream, List.flatMap_append, List.append_assoc, List.append_cancel_left_eq] at stream

theorem Ends.brings {loss : Option StreamLoss} (h : c.Ends deadline items loss) :
    c.Brings deadline items := by
  obtain ⟨part, stream, -⟩ := h.stream
  exact ⟨h.small, part, stream.symm⟩

/-- The next item. What comes behind it is left, also what comes after the deadline. -/
theorem receive_brings {bs : Bytes} (h : c.Brings deadline (bs :: items)) :
    ∃ c', c.receive deadline = (.ok (.ofBytes bs), c') ∧ c.Behind deadline [bs] c' ∧
      c.Behind none [bs] c' := by
  obtain ⟨later, stream⟩ := h.stream
  rw [List.flatMap_cons, List.append_assoc] at stream
  obtain ⟨now', tail, taken, coming', coming, in_time, buffer, received⟩ :=
    receiveFrom_brings (h.small bs (.head _)) c.now stream.symm
  have buffer' : c.decoder.buffer ++ taken.flatMap Prod.snd = [bs].flatMap itemBytes ++ tail := by
    rw [buffer, List.flatMap_singleton]
  refine ⟨{ c with now := now', decoder := ⟨tail⟩, coming := coming' }, ?_,
    .of_taken rfl coming in_time buffer', .of_taken rfl coming (fun _ _ => nofun) buffer'⟩
  unfold receive
  rw [received]

theorem receive_ends {loss : Option StreamLoss} (h : c.Ends deadline [] loss) :
    ∃ c', c.receive deadline = (.error (failure deadline loss), c') := by
  obtain ⟨part, stream, is_part⟩ := h.stream
  have e : (c.decoder.push (bytesOf (upTo deadline c.coming))).next.1 = .ok none :=
    (congrArg (fun b => (ItemDecoder.mk b).next.1) stream).trans is_part
  obtain ⟨now', d', coming', received⟩ := receiveFrom_ends c.now e
  refine ⟨{ c with now := now', decoder := d', coming := coming' }, ?_⟩
  unfold receive
  rw [received, ← h.loss]
  rfl

end Behind

/-! ## Sending -/

section Send

variable [RelayEnd τ]

/-- Sends an item. -/
def sendItem (c : Channel τ) (bs : Bytes) : Except Fault (Channel τ) :=
  let (outcome, c) := c.write (itemBytes bs)
  outcome.map fun _ => c

/-- Sends items one after the other and reads nothing. -/
def sendAll (c : Channel τ) (items : List Bytes) : Except Fault (Channel τ) :=
  items.foldlM sendItem c

/-- Once these items are sent, the first items that come until `deadline` are those. -/
def Answered (deadline : Option Nat) (c : Channel τ) (sent items : List Bytes) : Prop :=
  ∃ d, c.sendAll sent = .ok d ∧ d.Brings deadline items

/-- Once these items are sent, no items but those come until `deadline`, as the stream is lost or as
no more of it comes. -/
def EndsAfter (deadline : Option Nat) (c : Channel τ) (sent items : List Bytes)
    (loss : Option StreamLoss) : Prop :=
  ∃ d, c.sendAll sent = .ok d ∧ d.Ends deadline items loss

/-- Either these items cannot be sent, or once they are, the stream is lost until `deadline` and no
items but those come. -/
def Loses (deadline : Option Nat) (c : Channel τ) (sent items : List Bytes) (cause : StreamLoss) :
    Prop :=
  (∃ f, c.sendAll sent = .error f ∧ cause = .failed f) ∨
    c.EndsAfter deadline sent items (some cause)

variable {c c' d d' : Channel τ} {bs : Bytes} {sent sent' items items' : List Bytes}

theorem sendAll_append (c : Channel τ) (sent sent' : List Bytes) :
    c.sendAll (sent ++ sent') = c.sendAll sent >>= fun d => d.sendAll sent' :=
  List.foldlM_append

theorem stream_exchange (c : Channel τ) : c.exchange.stream none =
    c.stream none ++ if (c.loss? none).isSome then [] else bytesOf (RelayEnd.send c.far).1 := by
  rw [stream, stream, loss?, upTo_none, upTo_none, List.append_assoc]
  refine congrArg (c.decoder.buffer ++ ·) ((bytesOf_append ..).trans ?_)
  rw [bytesOf_delayed]
  rfl

theorem loss?_exchange (c : Channel τ) :
    c.exchange.loss? none = (c.loss? none).or (lossOf (RelayEnd.send c.far).1) := by
  rw [loss?, loss?, upTo_none, upTo_none]
  refine (lossOf_append ..).trans ?_
  rw [lossOf_delayed]
  rfl

theorem sendItem_eq_ok_iff : c.sendItem bs = .ok d ↔ c.write (itemBytes bs) = (.ok (), d) := by
  unfold sendItem
  rcases c.write (itemBytes bs) with ⟨f | _, c'⟩
  · exact ⟨nofun, nofun⟩
  · exact ⟨fun e => by cases e; rfl, fun e => by cases e; rfl⟩

theorem sendItem_eq_error_iff {f : Fault} :
    c.sendItem bs = .error f ↔ (c.write (itemBytes bs)).1 = .error f := by
  unfold sendItem
  rcases c.write (itemBytes bs) with ⟨f | _, c'⟩
  · exact ⟨fun e => by cases e; rfl, fun e => by cases e; rfl⟩
  · exact ⟨nofun, nofun⟩

theorem sendAll_singleton (c : Channel τ) (bs : Bytes) : c.sendAll [bs] = c.sendItem bs := by
  rw [sendAll, List.foldlM_cons]
  cases c.sendItem bs <;> rfl

namespace Behind

/-- What the relay sends does not depend on what has been read: it comes at another time, but the
bytes are the same. -/
theorem exchange (h : c.Behind none items c') : c.exchange.Behind none items c'.exchange where
  far := congrArg (fun far => (RelayEnd.send far).2) h.far
  stream := by
    rw [stream_exchange, stream_exchange, h.far, h.stream, h.loss, List.append_assoc]
  loss := by rw [loss?_exchange, loss?_exchange, h.far, h.loss]

theorem write (h : c.Behind none items c') (bs : Bytes) : (c'.write bs).1 = (c.write bs).1 ∧
    (c.write bs).2.Behind none items (c'.write bs).2 := by
  unfold Channel.write
  rw [h.far]
  exact ⟨rfl, exchange ⟨rfl, h.stream, h.loss⟩⟩

theorem sendItem (h : c.Behind none items c') (bs : Bytes) :
    (∃ f, c.sendItem bs = .error f ∧ c'.sendItem bs = .error f) ∨
      ∃ d d', c.sendItem bs = .ok d ∧ c'.sendItem bs = .ok d' ∧ d.Behind none items d' := by
  obtain ⟨same, behind⟩ := h.write (itemBytes bs)
  rcases e : c.write (itemBytes bs) with ⟨f | _, d⟩
  · rw [e] at same
    exact .inl ⟨f, sendItem_eq_error_iff.mpr (congrArg Prod.fst e), sendItem_eq_error_iff.mpr same⟩
  · rw [e] at same behind
    exact .inr ⟨d, (c'.write (itemBytes bs)).2, sendItem_eq_ok_iff.mpr e,
      sendItem_eq_ok_iff.mpr (Prod.ext same rfl), behind⟩

theorem sendAll (h : c.Behind none items c') (sent : List Bytes) :
    (∃ f, c.sendAll sent = .error f ∧ c'.sendAll sent = .error f) ∨
      ∃ d d', c.sendAll sent = .ok d ∧ c'.sendAll sent = .ok d' ∧ d.Behind none items d' := by
  induction sent generalizing c c' with
  | nil => exact .inr ⟨c, c', rfl, rfl, h⟩
  | cons bs sent ih =>
    rw [Channel.sendAll, Channel.sendAll, List.foldlM_cons, List.foldlM_cons]
    rcases h.sendItem bs with ⟨f, e, e'⟩ | ⟨d, d', e, e', behind⟩
    · rw [e, e']
      exact .inl ⟨f, rfl, rfl⟩
    · rw [e, e']
      exact ih behind

/-- Once the first items have been sent and the replies to them have been read, the others are
answered. -/
theorem answered (behind : d.Behind none items d') (e : c.sendAll sent = .ok d)
    (h : c.Answered none (sent ++ sent') (items ++ items')) : d'.Answered none sent' items' := by
  obtain ⟨x, sent_all, brings⟩ := h
  rw [sendAll_append, e] at sent_all
  rcases behind.sendAll sent' with ⟨f, failed, -⟩ | ⟨y, y', done, done', behind'⟩
  · cases failed.symm.trans sent_all
  · cases done.symm.trans sent_all
    exact ⟨y', done', behind'.brings brings⟩

theorem loses {cause : StreamLoss} (behind : d.Behind none items d') (e : c.sendAll sent = .ok d)
    (h : c.Loses none (sent ++ sent') (items ++ items') cause) :
    d'.Loses none sent' items' cause := by
  unfold Loses EndsAfter at h
  rw [sendAll_append, e] at h
  rcases behind.sendAll sent' with ⟨f, failed, failed'⟩ | ⟨y, y', done, done', behind'⟩
  · rcases h with ⟨f', failed₁, is_cause⟩ | ⟨x, sent_all, -⟩
    · cases failed.symm.trans failed₁
      exact .inl ⟨f, failed', is_cause⟩
    · cases failed.symm.trans sent_all
  · rcases h with ⟨f, failed, -⟩ | ⟨x, sent_all, ends⟩
    · cases failed.symm.trans done
    · cases done.symm.trans sent_all
      exact .inr ⟨y', done', behind'.ends ends⟩

end Behind

end Send

end Channel

end LightLink.Relay
