import LightLink.Relay.Loopback

/-!
# One item on the relay channel

Both ends of the relay channel take a stream apart into items as it comes. An item that comes alone
is taken out once its last byte has come, in whatever pieces it comes:

* `ItemDecoder.next_append`, `ItemDecoder.next_within`: the decoder when all of an item has come,
  and before;
* `Connection.receiveAll_item`: what a relay does with it;
* `Channel.receiveFrom_item`: what a client does with it.
-/

namespace LightLink.Relay

/-- The bytes of an item on the channel. -/
def itemBytes (bs : Bytes) : Bytes := lengthPrefix bs.length ++ bs

theorem encodeItem_of_le {bs : Bytes} (h : bs.length ≤ maxItemSize) :
    encodeItem bs = .ok (itemBytes bs) :=
  if_neg (Nat.not_lt_of_le h)

theorem announced?_of_length_lt {bs : Bytes} (h : bs.length < prefixSize) :
    announced? bs = none := by
  unfold announced?
  split
  · simp only [List.length_cons, prefixSize] at h
    omega
  · rfl

/-- A whole length announces the same, whatever follows it. -/
theorem announced?_append {bs : Bytes} (h : prefixSize ≤ bs.length) (rest : Bytes) :
    announced? (bs ++ rest) = announced? bs := by
  rcases bs with _ | ⟨b₀, _ | ⟨b₁, _ | ⟨b₂, _ | ⟨b₃, bs⟩⟩⟩⟩
  case cons.cons.cons.cons => rfl
  all_goals simp [prefixSize] at h

theorem announced?_lengthPrefix {n : Nat} (h : n ≤ maxItemSize) (rest : Bytes) :
    announced? (lengthPrefix n ++ rest) = some n := by
  have small : n < 4294967296 := Nat.lt_of_le_of_lt h (by decide)
  show some (ofLittle32 _ _ _ _).toNat = _
  rw [ofLittle32_little32]
  exact congrArg some (UInt32.toNat_ofNat_of_lt' small)

namespace ItemDecoder

/-- An item that has come as a whole is taken out, and what follows it is left. -/
theorem next_append {bs : Bytes} (h : bs.length ≤ maxItemSize) (rest : Bytes) :
    next ⟨itemBytes bs ++ rest⟩ = (.ok (some (.ofBytes bs)), ⟨rest⟩) := by
  have whole : (itemBytes bs).length = prefixSize + bs.length := List.length_append
  have announced : announced? (itemBytes bs ++ rest) = some bs.length := by
    rw [itemBytes, List.append_assoc, announced?_lengthPrefix h]
  have body : (itemBytes bs ++ rest).drop prefixSize = bs ++ rest := by
    rw [itemBytes, List.append_assoc]
    exact List.drop_left' rfl
  unfold next
  rw [announced]
  dsimp only
  rw [if_neg (Nat.not_lt_of_le h), if_neg (by rw [List.length_append, whole]; omega), body,
    List.take_left, List.drop_left' whole]

theorem next_whole {bs : Bytes} (h : bs.length ≤ maxItemSize) :
    next ⟨itemBytes bs⟩ = (.ok (some (.ofBytes bs)), {}) := by
  have e := next_append h []
  rwa [List.append_nil] at e

theorem next_within {bs front back : Bytes} (h : bs.length ≤ maxItemSize)
    (e : front ++ back = itemBytes bs) (more : back ≠ []) : next ⟨front⟩ = (.ok none, ⟨front⟩) := by
  have len := congrArg List.length e
  have pos : 0 < back.length := List.length_pos_iff.mpr more
  rw [itemBytes, List.length_append, List.length_append] at len
  change _ = prefixSize + _ at len
  unfold next
  by_cases short : front.length < prefixSize
  · rw [announced?_of_length_lt short]
  · have announced : announced? front = some bs.length := by
      rw [← announced?_append (Nat.le_of_not_lt short) back, e, itemBytes, announced?_lengthPrefix h]
    rw [announced]
    dsimp only
    rw [if_neg (Nat.not_lt_of_le h), if_pos (by omega)]

end ItemDecoder

/-! ## The relay -/

namespace Connection

variable {σ : Type} [FarEnd σ]

/-- A connection that goes on, and of whose stream these bytes wait to become an item. -/
def waiting (buffer : Bytes) : Connection := { decoder := ⟨buffer⟩ }

theorem work_within (c : Config) {k : Connection} (h : k.decoder.next = (.ok none, k.decoder)) :
    work (σ := σ) c k = pure ([], k) := by
  rw [work]
  split
  · rename_i next; rw [h] at next; cases next
  · rfl
  · rename_i next; rw [h] at next; cases next

theorem work_item (c : Config) {k : Connection} {item : Item} {decoder : ItemDecoder}
    (h : k.decoder.next = (.ok (some item), decoder)) :
    work (σ := σ) c k = (do
      let outcome ← handleItem c item
      match settle { k with decoder } outcome with
      | (reply, ⟨_, room, none⟩) => do
        let (rest, k') ← work c { decoder, room, ended := none }
        pure (⟨item, reply⟩ :: rest, k')
      | (reply, k') => pure ([⟨item, reply⟩], k')) := by
  rw [work]
  split
  · rename_i next; rw [h] at next; cases next
  · rename_i next; rw [h] at next; cases next
  · rename_i next; rw [h] at next; cases next; rfl

section Work

variable {c : Config} {k k' : Connection} {item : Item} {decoder : ItemDecoder} {s s' : Session σ}
  {outcome : Outcome} {reply : Option Bytes}

/-- An item after which the connection goes on. -/
theorem work_goes_on (next : k.decoder.next = (.ok (some item), decoder))
    (handled : handleItem c item s = (outcome, s'))
    (settled : settle { k with decoder } outcome = (reply, k')) (goes_on : k'.ended = none) :
    work c k s = ((⟨item, reply⟩ :: (work c { k' with decoder } s').1.1,
      (work c { k' with decoder } s').1.2), (work c { k' with decoder } s').2) := by
  obtain ⟨_, room, ended⟩ := k'
  obtain rfl : ended = none := goes_on
  rw [work_item c next]
  simp only [bind, StateT.bind, handled, settled]
  rfl

/-- An item that ends the connection. -/
theorem work_ends (next : k.decoder.next = (.ok (some item), decoder))
    (handled : handleItem c item s = (outcome, s'))
    (settled : settle { k with decoder } outcome = (reply, k')) (ends : k'.ended ≠ none) :
    work c k s = (([⟨item, reply⟩], k'), s') := by
  obtain ⟨_, room, ended⟩ := k'
  cases ended with
  | none => exact absurd rfl ends
  | some how =>
    rw [work_item c next]
    simp only [bind, StateT.bind, handled, settled]
    rfl

theorem settle_answer {reply : Bytes} (h : reply.length ≤ maxItemSize) :
    settle {} (.answer reply) = (some reply, {}) := by
  show sendReply {} reply = _
  rw [sendReply, encodeItem_of_le h]

/-- An item that has come alone and is answered leaves nothing of the stream. -/
theorem work_answer {buffer reply : Bytes}
    (whole : ItemDecoder.next ⟨buffer⟩ = (.ok (some item), {}))
    (handled : handleItem c item s = (.answer reply, s')) (h : reply.length ≤ maxItemSize) :
    work c (waiting buffer) s = (([⟨item, some reply⟩], {}), s') := by
  have rest : work (σ := σ) c {} = pure ([], {}) := work_within c rfl
  rw [work_goes_on (k := waiting buffer) whole handled (settle_answer h) rfl, rest]
  rfl

/-- An item that has come alone and ends the connection. -/
theorem work_stop {buffer : Bytes} {e : ConnectionEnd}
    (whole : ItemDecoder.next ⟨buffer⟩ = (.ok (some item), {}))
    (handled : handleItem c item s = (.stop e, s')) :
    work c (waiting buffer) s = (([⟨item, none⟩], { ended := some e }), s') :=
  work_ends (k := waiting buffer) whole handled rfl nofun

end Work

/-- In whatever pieces an item comes alone, it is handled like one that comes in one piece. -/
theorem receiveAll_item (c : Config) {bs : Bytes} (h : bs.length ≤ maxItemSize)
    {pieces : List Bytes} (some_each : ∀ p ∈ pieces, p ≠ []) (more : pieces ≠ []) {front : Bytes}
    (e : front ++ pieces.flatten = itemBytes bs) (s : Session σ) :
    receiveAll c (waiting front) pieces s = work c (waiting (itemBytes bs)) s := by
  induction pieces generalizing front with
  | nil => exact absurd rfl more
  | cons p ps ih =>
    rw [List.flatten_cons, ← List.append_assoc] at e
    have received : receive (σ := σ) c (waiting front) p = work c (waiting (front ++ p)) := rfl
    rw [receiveAll, received]
    cases ps with
    | nil =>
      rw [List.flatten_nil, List.append_nil] at e
      rw [e]
      show (fun r => ((r.1.1 ++ [], r.1.2), r.2)) (work c (waiting (itemBytes bs)) s) = _
      simp only [List.append_nil]
      rfl
    | cons q qs =>
      have rest : (q :: qs).flatten ≠ [] := by
        rw [List.flatten_cons]
        intro none
        exact some_each q (.tail _ (.head _)) (List.append_eq_nil_iff.mp none).1
      rw [work_within c (ItemDecoder.next_within h e rest)]
      exact ih (fun p mem => some_each p (.tail _ mem)) (List.cons_ne_nil _ _) e

end Connection

/-! ## The client -/

namespace Channel

/-- Bytes that come in time before an item is all there. -/
theorem receiveFrom_bytes {deadline : Option Nat} {now t : Nat} {d : ItemDecoder} {bs : Bytes}
    {rest : List (Nat × Incoming)} (e : d.next = (.ok none, d))
    (in_time : ¬ deadline.any (· < t)) :
    receiveFrom deadline now d ((t, .bytes bs) :: rest) =
      receiveFrom deadline (max now t) (d.push bs) rest := by
  rw [receiveFrom, e]
  dsimp only
  rw [if_neg in_time]

/-- In whatever pieces an item comes alone, it is taken out once all have come. -/
theorem receiveFrom_item {bs : Bytes} (h : bs.length ≤ maxItemSize) {pieces : List (Nat × Bytes)}
    (some_each : ∀ p ∈ pieces, p.2 ≠ []) {deadline : Option Nat}
    (in_time : ∀ p ∈ pieces, ∀ t ∈ deadline, p.1 ≤ t) {front : Bytes}
    (e : front ++ pieces.flatMap Prod.snd = itemBytes bs) (now : Nat) :
    ∃ now', receiveFrom deadline now ⟨front⟩ (pieces.map fun p => (p.1, .bytes p.2)) =
      (.ok (.ofBytes bs), now', {}, []) := by
  induction pieces generalizing front now with
  | nil =>
    rw [List.flatMap_nil, List.append_nil] at e
    refine ⟨now, ?_⟩
    rw [List.map_nil, receiveFrom, e, ItemDecoder.next_whole h]
  | cons p ps ih =>
    rw [List.flatMap_cons] at e
    have rest : p.2 ++ ps.flatMap Prod.snd ≠ [] := fun none =>
      some_each p (.head _) (List.append_eq_nil_iff.mp none).1
    rw [← List.append_assoc] at e
    obtain ⟨now', received⟩ := ih (fun q mem => some_each q (.tail _ mem))
      (fun q mem => in_time q (.tail _ mem)) e (max now p.1)
    have le : ¬ deadline.any (· < p.1) := by
      cases deadline with
      | none => exact Bool.false_ne_true
      | some t => simpa using in_time p (.head _) t rfl
    have within := ItemDecoder.next_within h ((List.append_assoc ..).symm.trans e) rest
    refine ⟨now', ?_⟩
    rw [List.map_cons, receiveFrom_bytes within le, ← received]
    rfl

end Channel

end LightLink.Relay
