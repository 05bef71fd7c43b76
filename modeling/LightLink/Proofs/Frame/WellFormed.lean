import LightLink.Proofs.Frame.Segments

/-!
# Frames that an assembler cuts off

Whatever an assembler is fed, it cuts off messages that are as long as their headers declare, and
lines of plain text.

* `Frame.WellFormed`: what is cut off;
* `Assembler.Sound`: what has come of a frame at any time;
* `Assembler.Pushed`: all that a byte can lead to, and `Assembler.Sound.pushed`: it leads to nothing
  else;
* `Assembler.Sound.feed`: what any bytes lead to.
-/

namespace LightLink

/-! ## Frames -/

namespace Packet

/-- A packet begins with a start code, and its fourth byte counts its bytes unless they are only a
header. -/
theorem head?_and_getElem?_three (p : Packet) : p.bytes.head? = some startCode ∧
    p.bytes[3]?.map (fun b => max MessageHeader.wireSize b.toNat) = some p.bytes.length := by
  obtain ⟨n, declared, e⟩ := Option.map_eq_some_iff.mp p.whole
  obtain ⟨start, fourth⟩ := declaredSize?_eq_some declared
  refine ⟨start, ?_⟩
  obtain ⟨b, is_fourth, rfl⟩ := Option.map_eq_some_iff.mp fourth
  rw [is_fourth]
  exact congrArg some e

/-- A message that is read from a packet takes all of it. -/
theorem size_of_decode {p : Packet} {m : Message} {n : Nat}
    (h : Message.decode p.bytes = .ok (m, n)) : n = p.bytes.length := by
  obtain ⟨crc, version, length, payload, rest, bytes_eq, -, n_eq, n_eq'⟩ :=
    Message.decode_eq_ok_iff.mp h
  have whole := p.whole
  rw [bytes_eq, List.append_assoc, declaredSize?_encode, ← List.append_assoc, ← bytes_eq] at whole
  have size : max MessageHeader.wireSize length.toNat = p.bytes.length := Option.some.inj whole
  omega

end Packet

/-- A byte is text: it neither begins a message nor ends a line. -/
def IsText (b : UInt8) : Prop := b ≠ startCode ∧ b ≠ carriageReturn ∧ b ≠ lineFeed

/-- A frame is a message as long as its header declares, or a line of text. -/
inductive Frame.WellFormed : Frame → Prop where
  | message (p : Packet) : WellFormed p.frame
  | line {text : Bytes} : text ≠ [] → (∀ b ∈ text, IsText b) → WellFormed ⟨text, false⟩

namespace Frame.WellFormed

variable {f : Frame} (h : f.WellFormed)

include h

theorem packet (binary : f.isBinary = true) : ∃ p : Packet, f = p.frame := by
  cases h with
  | message p => exact ⟨p, rfl⟩
  | line some_text text => cases binary

theorem text (line : f.isBinary = false) : f.data ≠ [] ∧ ∀ b ∈ f.data, IsText b := by
  cases h with
  | message p => cases line
  | line some_text text => exact ⟨some_text, text⟩

/-- What a frame is can be told from its bytes. -/
theorem ofData_data : Frame.ofData f.data = f := by
  cases h with
  | message p =>
    unfold Frame.ofData Packet.frame
    rw [p.head?_and_getElem?_three.1]
    rfl
  | @line bytes some_text text =>
    cases bytes with
    | nil => exact absurd rfl some_text
    | cons b bytes =>
      have not_start : b ≠ startCode := (text b (.head _)).1
      simp [Frame.ofData, not_start]

end Frame.WellFormed

/-! ## What has come of a frame -/

namespace Assembler

/-- What has come is the front of a message that goes on, or text. -/
structure Sound (a : Assembler) : Prop where
  start : a.binary = true → a.pending.toList.head? = some startCode
  more : a.binary = true → ∀ n, expected? a.pending = some n → a.pending.size < n
  text : a.binary = false → ∀ b ∈ a.pending.toList, IsText b

theorem sound_idle : idle.Sound := ⟨nofun, nofun, nofun⟩

/-- What a byte leads to: where cutting stands, and the frame that is complete. -/
inductive Pushed (a : Assembler) (b : UInt8) : Assembler × Option Frame → Prop where
  /-- A message goes on. -/
  | more : a.binary = true →
    (∀ n, expected? (a.pending.push b) = some n → (a.pending.push b).size < n) →
    Pushed a b (⟨true, a.pending.push b⟩, none)
  /-- A message is complete. -/
  | message (p : Packet) : a.binary = true → p.bytes = a.pending.toList ++ [b] →
    Pushed a b (idle, some p.frame)
  /-- A message begins, whatever text was waiting. -/
  | start : a.binary = false → b = startCode → Pushed a b (⟨true, #[startCode]⟩, none)
  /-- A line may go on. -/
  | blank : a.binary = false → b = carriageReturn ∨ b = lineFeed ∧ a.pending = #[] →
    Pushed a b (a, none)
  /-- A line is complete. -/
  | line : a.binary = false → b = lineFeed → a.pending ≠ #[] →
    Pushed a b (idle, some ⟨a.pending.toList, false⟩)
  /-- Text goes on. -/
  | text : a.binary = false → IsText b → Pushed a b (⟨false, a.pending.push b⟩, none)

/-- The expected size stays once it is known. -/
theorem expected?_push {pending : Array UInt8} {n : Nat} (h : expected? pending = some n)
    (b : UInt8) : expected? (pending.push b) = some n := by
  obtain ⟨k, declared, -⟩ := Option.map_eq_some_iff.mp h
  have whole : MessageHeader.wireSize ≤ pending.toList.length := by
    refine Nat.le_of_not_lt fun short => ?_
    rw [declaredSize?_of_length_lt short] at declared
    cases declared
  rw [← h, expected?, expected?, Array.toList_push, declaredSize?_append whole]

/-- The expected size is known once a header has come. -/
theorem size_lt_of_expected? {pending : Array UInt8} (start : pending.toList.head? = some startCode)
    (h : expected? pending = none) : pending.size < MessageHeader.wireSize := by
  refine Nat.lt_of_not_le fun whole => ?_
  rw [expected?, Option.map_eq_none_iff] at h
  rw [← Array.length_toList] at whole
  generalize pending.toList = bs at start h whole
  rcases bs with _ | ⟨b₀, _ | ⟨b₁, _ | ⟨b₂, _ | ⟨b₃, _ | ⟨b₄, _ | ⟨b₅, _ | ⟨b₆, _ | ⟨b₇, bs⟩⟩⟩⟩⟩⟩⟩⟩
  case cons.cons.cons.cons.cons.cons.cons.cons =>
    obtain rfl := Option.some.inj start
    rw [declaredSize?, if_pos rfl] at h
    cases h
  all_goals simp [MessageHeader.wireSize] at whole

/-- A message is complete as soon as its last byte has come, so it is just as long as expected. -/
theorem size_push_of_le {a : Assembler} (sound : a.Sound) (binary : a.binary = true) {b : UInt8}
    {n : Nat} (h : expected? (a.pending.push b) = some n) (le : n ≤ (a.pending.push b).size) :
    (a.pending.push b).size = n := by
  rw [Array.size_push] at le ⊢
  cases e : expected? a.pending with
  | none =>
    have short := size_lt_of_expected? (sound.start binary) e
    obtain ⟨k, -, rfl⟩ := Option.map_eq_some_iff.mp h
    have : MessageHeader.wireSize ≤ max MessageHeader.wireSize k := Nat.le_max_left ..
    omega
  | some k =>
    have more := sound.more binary k e
    obtain rfl : k = n := Option.some.inj ((expected?_push e b).symm.trans h)
    omega

namespace Sound

variable {a : Assembler} (sound : a.Sound)

include sound

theorem pushed (b : UInt8) : Pushed a b (a.push b) := by
  unfold push
  cases binary : a.binary with
  | true =>
    rw [if_pos rfl, extend]
    split
    · rename_i n expected
      split
      · rename_i le
        have size := size_push_of_le sound binary expected le
        exact .message ⟨_, by rw [← expected?, expected, Array.length_toList, size]⟩ binary
          (Array.toList_push ..)
      · rename_i gt
        refine .more binary fun k e => ?_
        rw [expected] at e
        obtain rfl := Option.some.inj e
        exact Nat.lt_of_not_le gt
    · rename_i expected
      exact .more binary fun k e => by rw [expected] at e; cases e
  | false =>
    rw [if_neg Bool.false_ne_true]
    by_cases is_start : b = startCode
    · rw [if_pos is_start, is_start]
      exact .start binary rfl
    · rw [if_neg is_start]
      by_cases is_return : b = carriageReturn
      · rw [if_pos is_return]
        exact .blank binary (.inl is_return)
      · rw [if_neg is_return]
        by_cases is_feed : b = lineFeed
        · rw [if_pos is_feed]
          split
          · rename_i empty
            exact .blank binary (.inr ⟨is_feed, by simpa using empty⟩)
          · rename_i some_text
            exact .line binary is_feed (by simpa using some_text)
        · rw [if_neg is_feed]
          exact .text binary ⟨is_start, is_return, is_feed⟩

/-- A byte leads from what may have come to what may have come, and completes nothing but
well-formed frames. -/
theorem of_pushed {b : UInt8} {r : Assembler × Option Frame} (h : Pushed a b r) :
    r.1.Sound ∧ ∀ f ∈ r.2, f.WellFormed := by
  cases h with
  | more binary more =>
    refine ⟨⟨fun _ => ?_, fun _ => more, nofun⟩, nofun⟩
    rw [Array.toList_push, List.head?_append, sound.start binary]
    rfl
  | message p binary whole =>
    refine ⟨sound_idle, fun f e => ?_⟩
    obtain rfl := Option.some.inj e
    exact .message p
  | start text is_start => exact ⟨⟨fun _ => rfl, fun _ _ e => (nomatch e), nofun⟩, nofun⟩
  | blank text is_blank => exact ⟨sound, nofun⟩
  | line text is_feed some_text =>
    refine ⟨sound_idle, fun f e => ?_⟩
    obtain rfl := Option.some.inj e
    exact .line (by simpa using some_text) (sound.text text)
  | text text is_text =>
    refine ⟨⟨nofun, nofun, fun _ c mem => ?_⟩, nofun⟩
    rw [Array.toList_push, List.mem_append] at mem
    rcases mem with before | last
    · exact sound.text text c before
    · rw [List.mem_singleton.mp last]
      exact is_text

theorem push (b : UInt8) : (a.push b).1.Sound := (sound.of_pushed (sound.pushed b)).1

theorem wellFormed_push {b : UInt8} {f : Frame} (h : (a.push b).2 = some f) : f.WellFormed :=
  (sound.of_pushed (sound.pushed b)).2 f h

/-- Any bytes complete nothing but well-formed frames. -/
theorem feed (bs : Bytes) : (a.feed bs).1.Sound ∧ ∀ f ∈ (a.feed bs).2, f.WellFormed := by
  induction bs generalizing a with
  | nil => exact ⟨sound, nofun⟩
  | cons b bs ih =>
    obtain ⟨sound', wellFormed⟩ := ih (sound.push b)
    rw [feed_cons]
    refine ⟨sound', fun f mem => ?_⟩
    rcases List.mem_append.mp mem with first | later
    · exact sound.wellFormed_push (Option.mem_toList.mp first)
    · exact wellFormed f later

end Sound

end Assembler

end LightLink
