import LightLink.Proofs.Relay.Items

/-!
# Items from a stream

A decoder takes a stream apart in whatever pieces it comes and whenever it is asked for an item:

* `ItemDecoder.next_eq`: what a decoder returns, by the length that its first bytes announce;
* `ItemDecoder.takeAll`: all items that have come, and `ItemDecoder.takeAll_push`: those of more
  bytes;
* `ItemDecoder.run`: bytes that are pushed and items that are asked for, in any order;
* `ItemDecoder.run_keeps`: the items that were returned and what is buffered are what was pushed;
* `ItemDecoder.run_error`: an error stays;
* `ItemDecoder.Holds.run`: items whose bytes are pushed come out in order;
* `ItemDecoder.run_stream`: all of this, of a decoder that starts without bytes.
-/

namespace LightLink.Relay

/-! ## Lengths -/

/-- The number that these bytes are, most significant first. -/
def bigEndian (bs : Bytes) : Nat := bs.foldl (fun n b => 256 * n + b.toNat) 0

theorem toNat_ofLittle32 (b₀ b₁ b₂ b₃ : UInt8) :
    (ofLittle32 b₃ b₂ b₁ b₀).toNat = bigEndian [b₀, b₁, b₂, b₃] := by
  have := b₀.toNat_lt
  have := b₁.toNat_lt
  have := b₂.toNat_lt
  have := b₃.toNat_lt
  simp [ofLittle32, bigEndian, UInt32.toNat_add, UInt32.toNat_mul]
  omega

/-- A whole length announces the number that its bytes are. -/
theorem announced?_eq_bigEndian {bs : Bytes} (h : prefixSize ≤ bs.length) :
    announced? bs = some (bigEndian (bs.take prefixSize)) := by
  obtain ⟨k, len⟩ : ∃ k, bs.length = k + 4 := Nat.exists_eq_add_of_le' h
  match bs, len with
  | b₀ :: b₁ :: b₂ :: b₃ :: _, _ => exact congrArg some (toNat_ofLittle32 b₀ b₁ b₂ b₃)

/-- A length is written as it was read. -/
theorem lengthPrefix_bigEndian {bs : Bytes} (h : prefixSize ≤ bs.length) :
    lengthPrefix (bigEndian (bs.take prefixSize)) = bs.take prefixSize := by
  obtain ⟨k, len⟩ : ∃ k, bs.length = k + 4 := Nat.exists_eq_add_of_le' h
  match bs, len with
  | b₀ :: b₁ :: b₂ :: b₃ :: _, _ =>
    show lengthPrefix (bigEndian [b₀, b₁, b₂, b₃]) = _
    rw [← toNat_ofLittle32, lengthPrefix, UInt32.ofNat_toNat, big32, little32_ofLittle32]
    rfl

@[simp] theorem Item.toBytes_ofBytes (bs : Bytes) : (Item.ofBytes bs).toBytes = bs := by
  cases bs <;> rfl

namespace ItemDecoder

/-! ## One item -/

/-- The length that the first bytes of the buffer announce, once they are there. -/
def announced (d : ItemDecoder) : Nat := bigEndian (d.buffer.take prefixSize)

/-- What a decoder returns: nothing before a length is there, an error if no item is that long,
nothing before all of the item is there, and then the item. -/
theorem next_eq (d : ItemDecoder) : d.next =
    if d.buffered < prefixSize then (.ok none, d)
    else if maxItemSize < d.announced then
      (.error (.oversizedPayload d.announced maxItemSize), d)
    else if d.buffered < prefixSize + d.announced then (.ok none, d)
    else
      (.ok (some (.ofBytes ((d.buffer.drop prefixSize).take d.announced))),
        ⟨d.buffer.drop (prefixSize + d.announced)⟩) := by
  unfold next
  by_cases short : d.buffered < prefixSize
  · rw [if_pos short, announced?_of_length_lt short]
  · rw [if_neg short, announced?_eq_bigEndian (Nat.le_of_not_lt short)]
    rfl

variable {d d' : ItemDecoder}

/-- Nothing is returned exactly as long as the length or the item is not all there. -/
theorem next_eq_none_iff : d.next.1 = .ok none ↔ d.buffered < prefixSize ∨
    d.announced ≤ maxItemSize ∧ d.buffered < prefixSize + d.announced := by
  rw [next_eq]
  split
  · simp [*]
  · split
    · simp; omega
    · split <;> simp <;> omega

/-- There is an error exactly if the length is there and no item is that long. -/
theorem next_eq_error_iff {e : WireError} : d.next.1 = .error e ↔
    (prefixSize ≤ d.buffered ∧ maxItemSize < d.announced) ∧
      e = .oversizedPayload d.announced maxItemSize := by
  rw [next_eq]
  split
  · simp; omega
  · split
    · simp [eq_comm]; omega
    · split <;> simp <;> omega

/-- Where no item is returned the decoder stays as it is. -/
theorem next_of_no_item (h : ∀ item, d.next.1 ≠ .ok (some item)) : d.next.2 = d := by
  rw [next_eq] at h ⊢
  split
  · rfl
  · split
    · rfl
    · split
      · rfl
      · simp_all

/-- The bytes of an item that is returned stood in front of what is left. -/
theorem buffer_of_next {item : Item} (h : d.next = (.ok (some item), d')) :
    item.toBytes.length ≤ maxItemSize ∧ d.buffer = itemBytes item.toBytes ++ d'.buffer := by
  rw [next_eq] at h
  split at h
  · cases h
  · rename_i whole_prefix
    split at h
    · cases h
    · rename_i small
      split at h
      · cases h
      · rename_i whole
        cases h
        rw [buffered] at whole_prefix whole
        have len : ((d.buffer.drop prefixSize).take d.announced).length = d.announced := by
          rw [List.length_take, List.length_drop]
          omega
        rw [Item.toBytes_ofBytes, itemBytes, len, announced,
          lengthPrefix_bigEndian (Nat.le_of_not_lt whole_prefix), ← announced, List.append_assoc]
        refine ⟨Nat.le_of_not_lt small, ?_⟩
        rw [← List.drop_drop, List.take_append_drop, List.take_append_drop]

/-- An item without bytes is returned as the empty one. -/
theorem ofBytes_of_next {item : Item} (h : d.next = (.ok (some item), d')) :
    .ofBytes item.toBytes = item := by
  obtain ⟨small, front⟩ := buffer_of_next h
  obtain rfl : d = ⟨itemBytes item.toBytes ++ d'.buffer⟩ := congrArg ItemDecoder.mk front
  rw [next_append small] at h
  exact Option.some.inj (Except.ok.inj (Prod.mk.inj h).1)

/-- An item that has come as a whole is returned whatever comes behind it. -/
theorem next_push {item : Item} (h : d.next = (.ok (some item), d')) (bs : Bytes) :
    (d.push bs).next = (.ok (some item), d'.push bs) := by
  obtain ⟨small, front⟩ := buffer_of_next h
  have whole : d.push bs = ⟨itemBytes item.toBytes ++ (d'.buffer ++ bs)⟩ := by
    rw [push, front, List.append_assoc]
  rw [whole, next_append small, ofBytes_of_next h]
  rfl

/-- More bytes do not mend a length that no item has. -/
theorem next_push_error {e : WireError} (h : d.next.1 = .error e) (bs : Bytes) :
    (d.push bs).next.1 = .error e := by
  obtain ⟨⟨whole, large⟩, rfl⟩ := next_eq_error_iff.mp h
  have same : (d.push bs).announced = d.announced := by
    unfold announced push
    rw [List.take_append_of_le_length whole]
  rw [next_eq_error_iff, same, buffered_push]
  exact ⟨⟨Nat.le_add_right_of_le whole, large⟩, rfl⟩

/-- The item with which a stream goes on is returned once all of it has come. -/
theorem next_of_stream {bs more rest : Bytes} (small : bs.length ≤ maxItemSize)
    (stream : d.buffer ++ more = itemBytes bs ++ rest) :
    d.next = (.ok none, d) ∧ more ≠ [] ∨
      ∃ tail, d.next = (.ok (some (.ofBytes bs)), ⟨tail⟩) ∧ d.buffer = itemBytes bs ++ tail ∧
        tail ++ more = rest := by
  -- Either the buffer ends within the item, or that item is all there.
  by_cases within : ∃ back, back ≠ [] ∧ d.buffer ++ back = itemBytes bs
  · obtain ⟨back, some_back, e⟩ := within
    refine .inl ⟨next_within small e some_back, fun none => ?_⟩
    rw [none, List.append_nil, ← e, List.append_assoc, List.self_eq_append_right] at stream
    exact some_back (List.append_eq_nil_iff.mp stream).1
  · have front : ∃ tail, d.buffer = itemBytes bs ++ tail ∧ tail ++ more = rest := by
      rcases List.append_eq_append_iff.mp stream with ⟨back, e, behind⟩ | ⟨tail, e, behind⟩
      · by_cases none : back = []
        · subst none
          refine ⟨[], ?_, behind⟩
          rw [e, List.append_nil, List.append_nil]
        · exact absurd ⟨back, none, e.symm⟩ within
      · exact ⟨tail, e, behind.symm⟩
    obtain ⟨tail, e, behind⟩ := front
    refine .inr ⟨tail, ?_, e, behind⟩
    obtain rfl : d = ⟨itemBytes bs ++ tail⟩ := congrArg ItemDecoder.mk e
    exact next_append small tail

/-- Where nothing is returned, nothing is returned of less of the stream. -/
theorem next_of_push {bs : Bytes} (h : (d.push bs).next.1 = .ok none) : d.next = (.ok none, d) := by
  have none : ∀ item, d.next.1 ≠ .ok (some item) := fun item got => by
    have got' := next_push (Prod.ext got rfl) bs
    rw [got'] at h
    cases h
  refine Prod.ext ?_ (next_of_no_item none)
  match e : d.next.1, none with
  | .ok .none, _ => rfl
  | .ok (some item), none => exact absurd rfl (none item)
  | .error _, _ => cases (next_push_error e bs).symm.trans h

/-! ## All items -/

/-- All items that have come as a whole, and what is left behind them. -/
def takeAll (d : ItemDecoder) : List Item × ItemDecoder :=
  match _next : d.next with
  | (.ok (some item), d') => (item :: (takeAll d').1, (takeAll d').2)
  | _ => ([], d)
termination_by d.buffered
decreasing_by all_goals exact buffered_next_lt _next

theorem takeAll_of_next {item : Item} (h : d.next = (.ok (some item), d')) :
    d.takeAll = (item :: d'.takeAll.1, d'.takeAll.2) := by
  rw [takeAll]
  split
  · rename_i next
    rw [h] at next
    cases next
    rfl
  · rename_i none
    exact absurd h (none item d')

theorem takeAll_of_no_item (h : ∀ item, d.next.1 ≠ .ok (some item)) : d.takeAll = ([], d) := by
  rw [takeAll]
  split
  · rename_i next
    exact absurd (congrArg Prod.fst next) (h _)
  · rfl

/-- What is taken out and what is left is what was there, and no item is left. -/
theorem takeAll_keeps (d : ItemDecoder) :
    (∀ item ∈ d.takeAll.1, .ofBytes item.toBytes = item ∧ item.toBytes.length ≤ maxItemSize) ∧
      d.takeAll.1.flatMap (fun item => itemBytes item.toBytes) ++ d.takeAll.2.buffer = d.buffer ∧
      ∀ item, d.takeAll.2.next.1 ≠ .ok (some item) := by
  fun_induction takeAll d with
  | case1 d item d' next ih =>
    obtain ⟨small, kept, none⟩ := ih
    obtain ⟨small', front⟩ := buffer_of_next next
    refine ⟨List.forall_mem_cons.mpr ⟨⟨ofBytes_of_next next, small'⟩, small⟩, ?_, none⟩
    rw [front, List.flatMap_cons, List.append_assoc, kept]
  | case2 d none => exact ⟨nofun, rfl, fun item h => none item _ (Prod.ext h rfl)⟩

/-- To take all items out of more bytes is to take out those that have come, and then the rest. -/
theorem takeAll_push (d : ItemDecoder) (bs : Bytes) : (d.push bs).takeAll =
    (d.takeAll.1 ++ (d.takeAll.2.push bs).takeAll.1, (d.takeAll.2.push bs).takeAll.2) := by
  fun_induction takeAll d with
  | case1 d item d' next ih =>
    rw [takeAll_of_next (next_push next bs), ih]
    rfl
  | case2 d none => rfl

/-- The items whose bytes come one after the other are taken out in order. -/
theorem takeAll_flatMap {items : List Bytes} (small : ∀ bs ∈ items, bs.length ≤ maxItemSize)
    (rest : Bytes) : takeAll ⟨items.flatMap itemBytes ++ rest⟩ =
      (items.map .ofBytes ++ (takeAll ⟨rest⟩).1, (takeAll ⟨rest⟩).2) := by
  induction items with
  | nil => rfl
  | cons bs items ih =>
    rw [List.flatMap_cons, List.append_assoc,
      takeAll_of_next (next_append (small bs (.head _)) _), ih fun bs mem => small bs (.tail _ mem)]
    rfl

/-! ## Many items -/

/-- What is done with a decoder. -/
inductive Step where
  | push (bytes : Bytes)
  | next
  deriving DecidableEq, Repr

/-- What a decoder returns each time it is asked, and the decoder in the end. -/
def run (d : ItemDecoder) : List Step → List (Except WireError (Option Item)) × ItemDecoder
  | [] => ([], d)
  | .push bs :: steps => (d.push bs).run steps
  | .next :: steps => (d.next.1 :: (d.next.2.run steps).1, (d.next.2.run steps).2)

/-- The bytes that are pushed. -/
def pushed : List Step → Bytes
  | [] => []
  | .push bs :: steps => bs ++ pushed steps
  | .next :: steps => pushed steps

/-- The items that are returned. -/
def returned (results : List (Except WireError (Option Item))) : List Item :=
  results.filterMap fun r => r.toOption.join

theorem run_append (d : ItemDecoder) (steps steps' : List Step) : d.run (steps ++ steps') =
    ((d.run steps).1 ++ ((d.run steps).2.run steps').1, ((d.run steps).2.run steps').2) := by
  induction steps generalizing d with
  | nil => rfl
  | cons step steps ih => cases step <;> simp [run, ih]

/-- Nothing is lost, invented or put in another order: the encodings of the items that were returned,
and what is buffered behind them, are what was there and what was pushed. -/
theorem run_keeps (d : ItemDecoder) (steps : List Step) :
    (∀ item ∈ returned (d.run steps).1, item.toBytes.length ≤ maxItemSize) ∧
      (returned (d.run steps).1).flatMap (fun item => itemBytes item.toBytes) ++
        (d.run steps).2.buffer = d.buffer ++ pushed steps := by
  induction steps generalizing d with
  | nil => exact ⟨nofun, (List.append_nil _).symm⟩
  | cons step steps ih =>
    cases step with
    | push bs =>
      obtain ⟨small, kept⟩ := ih (d.push bs)
      exact ⟨small, kept.trans (List.append_assoc d.buffer bs (pushed steps))⟩
    | next =>
      obtain ⟨small, kept⟩ := ih d.next.2
      rw [run, pushed]
      dsimp only
      by_cases got : ∃ item, d.next.1 = .ok (some item)
      · obtain ⟨item, is_item⟩ := got
        obtain ⟨small', front⟩ := buffer_of_next (Prod.ext is_item rfl)
        have cons : returned (d.next.1 :: (d.next.2.run steps).1) =
            item :: returned (d.next.2.run steps).1 := by
          rw [is_item]
          rfl
        rw [cons, List.flatMap_cons, List.append_assoc, kept, front, List.append_assoc]
        exact ⟨List.forall_mem_cons.mpr ⟨small', small⟩, rfl⟩
      · have none : ∀ item, d.next.1 ≠ .ok (some item) := fun item h => got ⟨item, h⟩
        have same : returned (d.next.1 :: (d.next.2.run steps).1) =
            returned (d.next.2.run steps).1 := by
          refine List.filterMap_cons_none ?_
          match d.next.1, none with
          | .error _, _ => rfl
          | .ok .none, _ => rfl
          | .ok (some item), none => exact absurd rfl (none item)
        rw [same]
        refine ⟨small, kept.trans ?_⟩
        rw [next_of_no_item none]

/-- Once there has been an error there is no other result, whatever is pushed. -/
theorem run_error {e : WireError} (h : d.next.1 = .error e) (steps : List Step) :
    ∀ r ∈ (d.run steps).1, r = .error e := by
  induction steps generalizing d with
  | nil => nofun
  | cons step steps ih =>
    cases step with
    | push bs => exact ih (next_push_error h bs)
    | next =>
      have same : d.next.2 = d := next_of_no_item (by rw [h]; nofun)
      rw [run, same]
      exact List.forall_mem_cons.mpr ⟨h, ih h⟩

/-! ## A stream of items -/

/-- What is buffered and what is still to be pushed are the encodings of these items. -/
def Holds (d : ItemDecoder) (more : Bytes) (items : List Bytes) : Prop :=
  (∀ bs ∈ items, bs.length ≤ maxItemSize) ∧ d.buffer ++ more = items.flatMap itemBytes

namespace Holds

variable {more : Bytes} {items : List Bytes}

/-- The first item is returned once all of it has come. -/
theorem next (h : Holds d more items) : d.next = (.ok none, d) ∧ (more = [] → items = []) ∨
    ∃ bs rest d', items = bs :: rest ∧ d.next = (.ok (some (.ofBytes bs)), d') ∧
      Holds d' more rest := by
  obtain ⟨small, stream⟩ := h
  cases items with
  | nil =>
    obtain ⟨none, -⟩ := List.append_eq_nil_iff.mp stream
    obtain rfl : d = {} := congrArg ItemDecoder.mk none
    exact .inl ⟨rfl, fun _ => rfl⟩
  | cons bs rest =>
    rw [List.flatMap_cons] at stream
    rcases next_of_stream (small bs (.head _)) stream with ⟨e, some_more⟩ | ⟨tail, e, -, behind⟩
    · exact .inl ⟨e, fun none => absurd none some_more⟩
    · exact .inr ⟨bs, rest, ⟨tail⟩, rfl, e, fun bs mem => small bs (.tail _ mem), behind⟩

/-- In whatever pieces the encodings come and whenever an item is asked for, the items come out in
order, and there is no error. -/
theorem run {steps : List Step} (h : Holds d (pushed steps ++ more) items) : ∃ front rest,
    items = front ++ rest ∧ returned (d.run steps).1 = front.map .ofBytes ∧
      (∀ r ∈ (d.run steps).1, ∃ o, r = .ok o) ∧ Holds (d.run steps).2 more rest := by
  induction steps generalizing d items with
  | nil => exact ⟨[], items, rfl, rfl, nofun, h⟩
  | cons step steps ih =>
    cases step with
    | push bs =>
      refine ih (d := d.push bs) ⟨h.1, ?_⟩
      rw [← h.2, push, pushed, List.append_assoc, List.append_assoc]
    | next =>
      rw [ItemDecoder.run]
      rcases h.next with ⟨e, -⟩ | ⟨bs, rest, d', rfl, e, h'⟩
      · obtain ⟨front, rest, split, out, sound, h'⟩ := ih h
        rw [e]
        exact ⟨front, rest, split, out, List.forall_mem_cons.mpr ⟨⟨_, rfl⟩, sound⟩, h'⟩
      · obtain ⟨front, rest', rfl, out, sound, h'⟩ := ih h'
        rw [e]
        refine ⟨bs :: front, rest', rfl, ?_, List.forall_mem_cons.mpr ⟨⟨_, rfl⟩, sound⟩, h'⟩
        rw [List.map_cons, ← out]
        rfl

/-- Once all has been pushed, as many items are returned as are asked for. -/
theorem run_next (h : Holds d [] items) {n : Nat} (le : items.length ≤ n) :
    returned (d.run (List.replicate n .next)).1 = items.map .ofBytes ∧
      (d.run (List.replicate n .next)).2.buffer = [] := by
  induction n generalizing d items with
  | zero =>
    obtain rfl := List.eq_nil_of_length_eq_zero (Nat.le_zero.mp le)
    exact ⟨rfl, (List.append_eq_nil_iff.mp h.2).1⟩
  | succ n ih =>
    rw [List.replicate_succ, ItemDecoder.run]
    rcases h.next with ⟨e, none⟩ | ⟨bs, rest, d', rfl, e, h'⟩
    · obtain rfl := none rfl
      rw [e]
      exact ih h (Nat.zero_le n)
    · obtain ⟨out, buffer⟩ := ih h' (Nat.le_of_succ_le_succ le)
      rw [e, List.map_cons, ← out]
      exact ⟨rfl, buffer⟩

end Holds

/-- A decoder loses, invents and reorders nothing, however bytes are pushed and items are asked for:
what it has returned, encoded again, and what it has buffered are what was pushed. It returns nothing
exactly before a length and its item are there, and an error exactly if no item is that long; both
leave it as it is, and an error stays. Items whose encodings are pushed come out in order, the empty
one for an item without bytes. -/
theorem run_stream (steps : List Step) :
    let (results, d) := run {} steps
    (∃ encodings : List Bytes, (returned results).map (fun item => encodeItem item.toBytes) =
        encodings.map .ok ∧ encodings.flatten ++ d.buffer = pushed steps) ∧
      (d.next.1 = .ok none ↔ d.buffered < prefixSize ∨
        d.announced ≤ maxItemSize ∧ d.buffered < prefixSize + d.announced) ∧
      (∀ e, d.next.1 = .error e ↔ (prefixSize ≤ d.buffered ∧ maxItemSize < d.announced) ∧
        e = .oversizedPayload d.announced maxItemSize) ∧
      ((∀ item, d.next.1 ≠ .ok (some item)) → d.next.2 = d) ∧
      (∀ e, d.next.1 = .error e → ∀ later, ∀ r ∈ (d.run later).1, r = .error e) ∧
      ∀ items : List Bytes, (∀ bs ∈ items, bs.length ≤ maxItemSize) →
        ∃ encodings : List Bytes, items.map encodeItem = encodings.map .ok ∧
          (pushed steps = encodings.flatten →
            returned results <+: items.map .ofBytes ∧ (∀ r ∈ results, ∃ o, r = .ok o) ∧
            ∀ n, items.length ≤ n →
              returned (run {} (steps ++ List.replicate n .next)).1 = items.map .ofBytes ∧
              (run {} (steps ++ List.replicate n .next)).2.buffer = []) := by
  obtain ⟨small, kept⟩ := run_keeps {} steps
  have ends (n : Nat) := run_append {} steps (List.replicate n .next)
  have in_order {items : List Bytes} (h : Holds {} (pushed steps ++ []) items) := h.run
  generalize run {} steps = result at *
  obtain ⟨results, d⟩ := result
  refine ⟨⟨(returned results).map fun item => itemBytes item.toBytes, ?_, ?_⟩, next_eq_none_iff,
    fun e => next_eq_error_iff, next_of_no_item, fun e h => run_error h, fun items small' =>
    ⟨items.map itemBytes, ?_, fun stream => ?_⟩⟩
  · rw [List.map_map]
    exact List.map_congr_left fun item mem => encodeItem_of_le (small item mem)
  · rw [← List.flatMap_def]
    exact kept
  · rw [List.map_map]
    exact List.map_congr_left fun bs mem => encodeItem_of_le (small' bs mem)
  · have all : Holds {} (pushed steps ++ []) items := by
      refine ⟨small', ?_⟩
      rw [List.append_nil, stream, List.flatMap_def]
      rfl
    obtain ⟨front, rest, rfl, out, sound, holds⟩ := in_order all
    refine ⟨?_, sound, fun n le => ?_⟩
    · rw [out, List.map_append]
      exact List.prefix_append ..
    · rw [List.length_append] at le
      obtain ⟨out', buffer⟩ := holds.run_next (n := n) (by omega)
      rw [ends]
      refine ⟨?_, buffer⟩
      rw [returned, List.filterMap_append]
      change returned results ++ returned _ = _
      rw [out, out', List.map_append]

/-- Three items, the second one without bytes, in pieces that end within a length. -/
theorem run_stream_pieces :
    let poll : Bytes := [0xFC, 0, 2, 8, 2, 0, 0, 0]
    let items := [ackToken, [], poll]
    let steps : List Step := [.push [0, 0, 0], .next, .push [3, 0x61, 0x63, 0x6B, 0, 0, 0, 0, 0, 0],
      .next, .push (0 :: 8 :: poll), .next]
    (∀ bs ∈ items, bs.length ≤ maxItemSize) ∧
      (∃ encodings : List Bytes, items.map encodeItem = encodings.map .ok ∧
        pushed steps = encodings.flatten) ∧
      returned (run {} (steps ++ List.replicate 3 .next)).1 =
        [.bytes ackToken, .empty, .bytes poll] := by
  intro poll items steps
  have small : ∀ bs ∈ items, bs.length ≤ maxItemSize := by decide
  obtain ⟨encodings, encoded, in_order⟩ := (run_stream steps).2.2.2.2.2 items small
  have stream : pushed steps = encodings.flatten := by
    have e : encodings = items.map itemBytes :=
      (List.map_inj_right fun _ _ => Except.ok.inj).mp (encoded.symm.trans rfl)
    rw [e]
    decide
  exact ⟨small, ⟨encodings, encoded, stream⟩, ((in_order stream).2.2 3 (by decide)).1⟩

end ItemDecoder

end LightLink.Relay
