import LightLink.Frame.Assembler
import LightLink.Proofs.Message.RoundTrip

/-!
# A stream cut into frames

What an assembler makes of the bytes it is fed, in any pieces:

* `Assembler.feed_append`: bytes fed in two pieces are cut like bytes fed in one;
* `Packet`: bytes that a header at their front ends where they end, as that of every message does
  (`Packet.ofMessage`);
* `Assembler.feed_packet`, `Assembler.feed_line`: what is cut off as one frame;
* `Assembler.feed_segments`: a stream of messages, lines, blank lines and texts that a message cuts
  off is cut where one ends and the next begins.
-/

namespace LightLink

/-! ## Headers that end a message -/

theorem declaredSize?_of_length_lt {bs : Bytes} (h : bs.length < MessageHeader.wireSize) :
    declaredSize? bs = none := by
  unfold declaredSize?
  split
  · simp only [List.length_cons, MessageHeader.wireSize] at h
    omega
  · rfl

/-- A whole header declares the same, whatever follows it. -/
theorem declaredSize?_append {bs : Bytes} (h : MessageHeader.wireSize ≤ bs.length) (rest : Bytes) :
    declaredSize? (bs ++ rest) = declaredSize? bs := by
  obtain ⟨k, len⟩ := Nat.exists_eq_add_of_le' h
  rw [MessageHeader.wireSize] at len
  match bs, len with
  | _ :: _ :: _ :: _ :: _ :: _ :: _ :: _ :: _, _ => rfl

theorem declaredSize?_encode (h : MessageHeader) (rest : Bytes) :
    declaredSize? (Wire.encode h ++ rest) = some h.length.toNat := rfl

/-- What is declared is the fourth byte, behind a start code. -/
theorem declaredSize?_eq_some {bs : Bytes} {n : Nat} (h : declaredSize? bs = some n) :
    bs.head? = some startCode ∧ bs[3]?.map UInt8.toNat = some n := by
  unfold declaredSize? at h
  split at h
  · split at h
    · rename_i is_start
      rw [is_start]
      exact ⟨rfl, h⟩
    · cases h
  · cases h

/-- A header counts to 255. -/
theorem le_of_declaredSize? {bs : Bytes} {n : Nat} (h : declaredSize? bs = some n) :
    n ≤ maxMessageSize := by
  obtain ⟨b, -, rfl⟩ := Option.map_eq_some_iff.mp (declaredSize?_eq_some h).2
  exact Nat.le_of_lt_succ b.toNat_lt

/-- Bytes that are as many as the header at their front declares, and at least that header. -/
structure Packet where
  bytes : Bytes
  whole : (declaredSize? bytes).map (max MessageHeader.wireSize) = some bytes.length

namespace Packet

/-- The bytes of a message. -/
def ofMessage {m : Message} {e : Bytes} (h : m.encode = .ok e) : Packet where
  bytes := e
  whole := by
    have len := Message.length_of_encode h
    obtain ⟨le, rfl⟩ := Message.encode_eq_ok_iff.mp h
    rw [declaredSize?_encode, len]
    show some (max _ (UInt8.ofNat m.wireSize).toNat) = _
    rw [Message.toNat_wireSize le]
    exact congrArg some (Nat.max_eq_right (Nat.le_add_right ..))

/-- The frame that a packet is cut off as. -/
def frame (p : Packet) : Frame := ⟨p.bytes, true⟩

theorem wireSize_le_length (p : Packet) : MessageHeader.wireSize ≤ p.bytes.length := by
  obtain ⟨n, -, e⟩ := Option.map_eq_some_iff.mp p.whole
  rw [← e]
  exact Nat.le_max_left ..

/-- A packet is no longer than a header can declare. -/
theorem length_le (p : Packet) : p.bytes.length ≤ maxMessageSize := by
  obtain ⟨n, h, e⟩ := Option.map_eq_some_iff.mp p.whole
  rw [← e]
  exact Nat.max_le.mpr ⟨by decide, le_of_declaredSize? h⟩

theorem exists_cons (p : Packet) : ∃ rest, p.bytes = startCode :: rest := by
  obtain ⟨n, h, -⟩ := Option.map_eq_some_iff.mp p.whole
  exact List.head?_eq_some_iff.mp (declaredSize?_eq_some h).1

/-- The front of a packet does not declare to end where it ends. -/
theorem lt_of_expected? {p : Packet} {front rest : Bytes} (h : p.bytes = front ++ rest)
    (some_rest : rest ≠ []) {n : Nat}
    (e : (declaredSize? front).map (max MessageHeader.wireSize) = some n) : front.length < n := by
  have len : 0 < rest.length := List.length_pos_iff.mpr some_rest
  by_cases short : front.length < MessageHeader.wireSize
  · rw [declaredSize?_of_length_lt short] at e
    cases e
  · have whole := p.whole
    rw [h, declaredSize?_append (Nat.le_of_not_lt short), e, Option.some.injEq,
      List.length_append] at whole
    omega

end Packet

namespace Assembler

/-! ## Pieces -/

theorem feedInto_eq (a : Assembler) (found : Array Frame) (bs : Bytes) :
    a.feedInto found bs = ((a.feed bs).1, found ++ (a.feed bs).2.toArray) := by
  induction bs generalizing a found with
  | nil => simp [feed, feedInto]
  | cons b bs ih =>
    unfold feed
    simp only [feedInto]
    split <;> simp [ih]

@[simp] theorem feed_nil (a : Assembler) : a.feed [] = (a, []) := rfl

theorem feed_cons (a : Assembler) (b : UInt8) (bs : Bytes) :
    a.feed (b :: bs) =
      (((a.push b).1.feed bs).1, (a.push b).2.toList ++ ((a.push b).1.feed bs).2) := by
  rw [feed, feedInto]
  rcases a.push b with ⟨a', _ | f⟩
  · rfl
  · simp [feedInto_eq]

/-- Bytes fed in two pieces are cut like bytes fed in one. -/
theorem feed_append (a : Assembler) (bs cs : Bytes) :
    a.feed (bs ++ cs) =
      (((a.feed bs).1.feed cs).1, (a.feed bs).2 ++ ((a.feed bs).1.feed cs).2) := by
  induction bs generalizing a with
  | nil => rfl
  | cons b bs ih =>
    rw [List.cons_append, feed_cons, feed_cons, ih, List.append_assoc]

/-! ## Messages -/

/-- The byte that completes a packet. -/
theorem extend_last {p : Packet} {front : Bytes} {b : UInt8} (h : p.bytes = front ++ [b]) :
    extend front.toArray b = (idle, some p.frame) := by
  have e : expected? (front.toArray.push b) = some p.bytes.length := by
    rw [expected?, Array.toList_push, List.toList_toArray, ← h, p.whole]
  unfold extend
  simp only [e]
  rw [if_pos (by rw [h]; simp), Packet.frame, h]
  simp

/-- A byte that leaves more of a packet to come. -/
theorem extend_within {p : Packet} {front rest : Bytes} {b : UInt8}
    (h : p.bytes = front ++ [b] ++ rest) (some_rest : rest ≠ []) :
    extend front.toArray b = (⟨true, (front ++ [b]).toArray⟩, none) := by
  have e : front.toArray.push b = (front ++ [b]).toArray := by simp
  unfold extend
  simp only [e]
  split
  · rename_i n he
    rw [if_neg]
    have lt := Packet.lt_of_expected? h some_rest he
    simpa using lt
  · rfl

/-- The rest of a packet whose front has come. -/
theorem feed_rest {p : Packet} {front rest : Bytes} (h : p.bytes = front ++ rest)
    (some_rest : rest ≠ []) : feed ⟨true, front.toArray⟩ rest = (idle, [p.frame]) := by
  induction rest generalizing front with
  | nil => exact absurd rfl some_rest
  | cons b rest ih =>
    rw [feed_cons, push, if_pos rfl]
    by_cases last : rest = []
    · subst last
      rw [extend_last h]
      rfl
    · have h' : p.bytes = front ++ [b] ++ rest := by
        rw [h, List.append_assoc]
        rfl
      rw [extend_within h' last, ih h' last]
      rfl

/-- A packet is cut off as a frame, whatever text was waiting. -/
theorem feed_packet {a : Assembler} (text : a.binary = false) (p : Packet) :
    a.feed p.bytes = (idle, [p.frame]) := by
  obtain ⟨rest, h⟩ := p.exists_cons
  have len := p.wireSize_le_length
  have some_rest : rest ≠ [] := by
    intro none
    rw [h, none, MessageHeader.wireSize] at len
    simp at len
  rw [h, feed_cons, push, text, if_neg Bool.false_ne_true, if_pos rfl]
  have first : extend #[] startCode = (⟨true, #[startCode]⟩, none) := extend_within h some_rest
  have others : feed ⟨true, #[startCode]⟩ rest = (idle, [p.frame]) := feed_rest h some_rest
  rw [first, others]
  rfl

/-! ## Lines -/

/-- What of the bytes of a line is text. -/
def textOf (raw : Bytes) : Bytes := raw.filter (· ≠ carriageReturn)

/-- Bytes that neither begin a message nor end a line. -/
def Open (raw : Bytes) : Prop := startCode ∉ raw ∧ lineFeed ∉ raw

instance (raw : Bytes) : Decidable (Open raw) := inferInstanceAs (Decidable (_ ∧ _))

theorem feed_open {raw : Bytes} (h : Open raw) (pending : Array UInt8) :
    feed ⟨false, pending⟩ raw = (⟨false, pending ++ (textOf raw).toArray⟩, []) := by
  induction raw generalizing pending with
  | nil => simp [textOf]
  | cons b raw ih =>
    obtain ⟨no_start, no_feed⟩ := h
    have rest : Open raw := ⟨fun mem => no_start (.tail _ mem), fun mem => no_feed (.tail _ mem)⟩
    have b_start : b ≠ startCode := fun e => no_start (e ▸ .head _)
    have b_feed : b ≠ lineFeed := fun e => no_feed (e ▸ .head _)
    rw [feed_cons, push, if_neg Bool.false_ne_true, if_neg b_start]
    by_cases b_return : b = carriageReturn
    · rw [if_pos b_return, ih rest]
      simp [textOf, b_return]
    · rw [if_neg b_return, if_neg b_feed, ih rest]
      simp [textOf, b_return]

/-- A line feed behind text ends a line. -/
theorem feed_line {raw : Bytes} (h : Open raw) (text : textOf raw ≠ []) :
    idle.feed (raw ++ [lineFeed]) = (idle, [⟨textOf raw, false⟩]) := by
  rw [feed_append, idle, feed_open h, feed_cons, push]
  simp [text, startCode, lineFeed, carriageReturn]
  rfl

/-- Line ends among themselves make no line. -/
theorem feed_blank {raw : Bytes} (h : ∀ b ∈ raw, b = carriageReturn ∨ b = lineFeed) :
    idle.feed raw = (idle, []) := by
  induction raw with
  | nil => rfl
  | cons b raw ih =>
    rw [List.forall_mem_cons] at h
    obtain ⟨first, rest⟩ := h
    have e : idle.push b = (idle, none) := by
      rcases first with rfl | rfl <;> rfl
    rw [feed_cons, e, ih rest]
    rfl

end Assembler

/-! ## Streams -/

/-- A part of what a module sends. -/
inductive Segment where
  | message (p : Packet)
  /-- Text with a line feed behind it. -/
  | line (raw : Bytes) (h : Assembler.Open raw) (text : Assembler.textOf raw ≠ [])
  /-- Line ends without text. -/
  | blank (raw : Bytes) (h : ∀ b ∈ raw, b = carriageReturn ∨ b = lineFeed)
  /-- Text that a message cuts off. -/
  | cut (raw : Bytes) (h : Assembler.Open raw) (p : Packet)

namespace Segment

def bytes : Segment → Bytes
  | message p => p.bytes
  | line raw _ _ => raw ++ [lineFeed]
  | blank raw _ => raw
  | cut raw _ p => raw ++ p.bytes

/-- The frames that are cut off. -/
def frames : Segment → List Frame
  | message p => [p.frame]
  | line raw _ _ => [⟨Assembler.textOf raw, false⟩]
  | blank _ _ => []
  | cut _ _ p => [p.frame]

theorem feed_bytes (s : Segment) : Assembler.idle.feed s.bytes = (.idle, s.frames) := by
  cases s with
  | message p => exact Assembler.feed_packet rfl p
  | line raw h text => exact Assembler.feed_line h text
  | blank raw h => exact Assembler.feed_blank h
  | cut raw h p =>
    show Assembler.idle.feed (raw ++ p.bytes) = _
    rw [Assembler.feed_append, Assembler.idle, Assembler.feed_open h, Assembler.feed_packet rfl]
    rfl

theorem feed_flatMap (segments : List Segment) :
    Assembler.idle.feed (segments.flatMap bytes) = (.idle, segments.flatMap frames) := by
  induction segments with
  | nil => rfl
  | cons s segments ih => rw [List.flatMap_cons, Assembler.feed_append, feed_bytes, ih]; rfl

end Segment

/-- What a module sends is cut where its parts end: each message, whose bytes are always a packet, is
one frame, and so is the text of each line; line ends among themselves and a text that a message cuts
off leave nothing. Nothing is left over. -/
theorem Assembler.feed_segments :
    (∀ m e, Message.encode m = .ok e → ∃ p : Packet, p.bytes = e ∧ p.frame = ⟨e, true⟩) ∧
    ∀ segments : List Segment,
      idle.feed (segments.flatMap Segment.bytes) = (idle, segments.flatMap Segment.frames) :=
  ⟨fun _ _ h => ⟨.ofMessage h, rfl, rfl⟩, Segment.feed_flatMap⟩

/-- A poll between a line with returns in it, line ends and a text that it cuts off. -/
theorem Assembler.feed_segments_poll :
    let e : Bytes := [0xFC, 0, 2, 8, 2, 0, 0xFF, 0xFF]
    (Message.plain 0xFFFF .pollRequest).encode = .ok e ∧
      idle.feed ([13, 0x6F, 13, 0x6B, 13, 10] ++ e ++ [13, 10] ++ ([0x68, 13, 0x69] ++ e)) =
        (idle, [⟨[0x6F, 0x6B], false⟩, ⟨e, true⟩, ⟨e, true⟩]) := by
  intro e
  have h : (Message.plain 0xFFFF .pollRequest).encode = .ok e := rfl
  obtain ⟨packets, streams⟩ := feed_segments
  obtain ⟨p, bytes, frame⟩ := packets _ e h
  refine ⟨h, ?_⟩
  have cut := streams [.line [13, 0x6F, 13, 0x6B, 13] (by decide) (by decide), .message p,
    .blank [13, 10] (by simp [carriageReturn, lineFeed]), .cut [0x68, 13, 0x69] (by decide) p]
  simpa [Segment.bytes, Segment.frames, bytes, frame, textOf, carriageReturn, lineFeed] using cut

end LightLink
