import LightLink.Proofs.Frame.Script

/-!
# What an assembler keeps between two bytes

`Assembler.push` reads off the header, with every byte of a message, how many bytes the message will
take. An assembler that reads it once, with the byte that completes the header, has to keep it:
its state is then the bytes that wait, whether they are of a message, and that size.

* `Assembler.Sound.feed_message`: a message that has begun is complete before more than 255 bytes of
  it have come, whatever they are, and so `Assembler.Sound.exists_feed_text`: any 255 bytes lead out
  of messages;
* `Assembler.Sound.isIdle_of_feed`: line feeds complete a frame unless the assembler is idle;
* `Latched`: an assembler that keeps the size, and `Latched.run_latched`: it does what `Assembler`
  does;
* `Latched.Coherent`: what the three parts of its state say of each other;
* `Latched.run_coherent`: all this after any bytes and resets.
-/

namespace LightLink

/-! ## Messages come to an end -/

namespace Assembler

/-- No message is expected to be longer than the longest. -/
theorem le_of_expected? {pending : Array UInt8} {n : Nat} (h : expected? pending = some n) :
    n ≤ maxMessageSize := by
  obtain ⟨k, declared, rfl⟩ := Option.map_eq_some_iff.mp h
  exact Nat.max_le.mpr ⟨by decide, le_of_declaredSize? declared⟩

/-- The expected size is told by the fourth byte of the header. -/
theorem getElem?_three_of_expected? {pending : Array UInt8} {n : Nat}
    (h : expected? pending = some n) :
    ∃ b, pending[3]? = some b ∧ n = max MessageHeader.wireSize b.toNat := by
  obtain ⟨k, declares, rfl⟩ := Option.map_eq_some_iff.mp h
  obtain ⟨b, fourth, rfl⟩ := Option.map_eq_some_iff.mp (declaredSize?_eq_some declares).2
  rw [Array.getElem?_toList] at fourth
  exact ⟨b, fourth, rfl⟩

/-- The expected size is not known before a header has come. -/
theorem expected?_of_size_lt {pending : Array UInt8} (h : pending.size < MessageHeader.wireSize) :
    expected? pending = none := by
  rw [← Array.length_toList] at h
  rw [expected?, declaredSize?_of_length_lt h, Option.map_none]

namespace Sound

variable {a : Assembler} (sound : a.Sound)

include sound

/-- A message that goes on has not come to the size of the longest. -/
theorem size_lt (binary : a.binary = true) : a.pending.size < maxMessageSize := by
  cases e : expected? a.pending with
  | none => exact Nat.lt_trans (size_lt_of_expected? (sound.start binary) e) (by decide)
  | some n => exact Nat.lt_of_lt_of_le (sound.more binary n e) (le_of_expected? e)

theorem size_pos (binary : a.binary = true) : 0 < a.pending.size := by
  have start := sound.start binary
  rw [← Array.length_toList]
  refine List.length_pos_iff.mpr fun none => ?_
  rw [none] at start
  cases start

/-- A message that has begun is complete with one of the bytes that come, whatever they are, if they
are as many as the longest message still lacks. -/
theorem feed_message (binary : a.binary = true) {bytes : Bytes}
    (enough : maxMessageSize ≤ a.pending.size + bytes.length) :
    ∃ (p : Packet) (front rest : Bytes), bytes = front ++ rest ∧ front ≠ [] ∧
      p.bytes = a.pending.toList ++ front ∧ a.feed front = (idle, [p.frame]) := by
  -- A byte that does not complete the message leaves one byte less for it to lack.
  induction bytes generalizing a with
  | nil => exact absurd enough (Nat.not_le_of_lt (sound.size_lt binary))
  | cons b bytes ih =>
    have pushed := sound.pushed b
    generalize e : a.push b = r at pushed
    have sound' : r.1.Sound := (sound.of_pushed pushed).1
    cases pushed with
    | more binary more =>
      have enough' : maxMessageSize ≤ (a.pending.push b).size + bytes.length := by
        rw [List.length_cons] at enough
        rw [Array.size_push]
        omega
      obtain ⟨p, front, rest, rfl, -, whole, fed⟩ := ih sound' rfl enough'
      refine ⟨p, b :: front, rest, rfl, List.cons_ne_nil b front, ?_, ?_⟩
      · rw [whole, Array.toList_push, List.append_assoc, List.singleton_append]
      · rw [feed_cons, e, fed]
        rfl
    | message p binary whole =>
      refine ⟨p, [b], bytes, rfl, List.cons_ne_nil b [], whole, ?_⟩
      rw [feed_cons, e]
      rfl
    | start text | blank text | line text | text text =>
      rw [binary] at text
      cases text

/-- Any 255 bytes lead out of messages at one of them. -/
theorem exists_feed_text {bytes : Bytes} (enough : maxMessageSize ≤ bytes.length) :
    ∃ n, 0 < n ∧ n ≤ maxMessageSize ∧ (a.feed (bytes.take n)).1.binary = false := by
  cases bytes with
  | nil => cases enough
  | cons b bytes =>
    rw [List.length_cons] at enough
    -- The first byte may begin a message, so the message is looked at behind it.
    have sound' := sound.push b
    cases binary : (a.push b).1.binary with
    | false =>
      refine ⟨1, Nat.one_pos, by decide, ?_⟩
      rw [List.take_succ_cons, feed_cons]
      exact binary
    | true =>
      have some_byte := sound'.size_pos binary
      obtain ⟨p, front, rest, rfl, -, whole, fed⟩ :=
        sound'.feed_message binary (show maxMessageSize ≤ _ + bytes.length by omega)
      have len := p.length_le
      rw [whole, List.length_append, Array.length_toList] at len
      refine ⟨front.length + 1, Nat.succ_pos _, by omega, ?_⟩
      rw [List.take_succ_cons, List.take_left, feed_cons, fed]
      rfl

/-- Line feeds complete a line or, in the end, a message, if anything of either has come. -/
theorem isIdle_of_feed (quiet : (a.feed (List.replicate maxMessageSize lineFeed)).2 = []) :
    a.isIdle = true := by
  cases binary : a.binary with
  | true =>
    have enough : maxMessageSize ≤
        a.pending.size + (List.replicate maxMessageSize lineFeed).length := by
      rw [List.length_replicate]
      exact Nat.le_add_left ..
    obtain ⟨p, front, rest, split, -, -, fed⟩ := sound.feed_message binary enough
    rw [split, feed_append, fed] at quiet
    cases quiet
  | false =>
    rw [isIdle, binary, Bool.not_false, Bool.and_true]
    by_contra some_text
    rw [maxMessageSize, List.replicate_succ, feed_cons, Assembler.push, binary,
      if_neg Bool.false_ne_true, if_neg (by decide), if_neg (by decide), if_pos rfl,
      if_neg some_text] at quiet
    cases quiet

end Sound

end Assembler

/-! ## Keeping the size -/

open Assembler (Step Return idle expected?)

/-- An assembler that keeps the size of a message from the byte on that completes its header. -/
structure Latched where
  pending : Array UInt8 := #[]
  binary : Bool := false
  expected : Option Nat := none
  deriving DecidableEq, Repr

namespace Latched

/-- Nothing has come yet. -/
def fresh : Latched := {}

/-- Nothing of a frame has come. -/
def isIdle (l : Latched) : Bool := l.pending.isEmpty && !l.binary

/-- What has come is handed out as a frame. -/
def take (l : Latched) (isBinary : Bool) : Latched × Option Frame :=
  (fresh, some ⟨l.pending.toList, isBinary⟩)

/-- Reads the size off the header when the header is just complete. -/
def latch (l : Latched) : Latched :=
  if l.expected = none ∧ l.pending.size = MessageHeader.wireSize then
    { l with expected := expected? l.pending }
  else l

/-- The next byte of a message. -/
def extend (l : Latched) (b : UInt8) : Latched × Option Frame :=
  let l := latch { l with pending := l.pending.push b }
  match l.expected with
  | some size => if size ≤ l.pending.size then l.take true else (l, none)
  | none => (l, none)

/-- A start code outside a message begins one, whatever text was waiting. -/
def begun (l : Latched) (b : UInt8) : Latched :=
  if l.binary = false ∧ b = startCode then ⟨#[], true, none⟩ else l

/-- The next byte of the stream, and the frame it completes. -/
def push (l : Latched) (b : UInt8) : Latched × Option Frame :=
  let l := l.begun b
  if l.binary then l.extend b
  else if b = carriageReturn then (l, none)
  else if b = lineFeed then if l.pending.isEmpty then (l, none) else l.take false
  else ({ l with pending := l.pending.push b }, none)

/-- One step. -/
def step (l : Latched) : Step → Latched × Return
  | .push b => ((l.push b).1, .pushed (l.push b).2)
  | .reset => (fresh, .reset l.pending.size)

/-- Steps one after the other, and what they return. -/
def run (l : Latched) : List Step → Latched × List Return
  | [] => (l, [])
  | s :: steps => (((l.step s).1.run steps).1, (l.step s).2 :: ((l.step s).1.run steps).2)

/-- Whatever is done, both return the same. -/
def Resembles (l l' : Latched) : Prop := ∀ steps, (l.run steps).2 = (l'.run steps).2

end Latched

namespace Assembler

/-- The size is kept while a message goes on whose header has come. -/
def latched (a : Assembler) : Latched :=
  ⟨a.pending, a.binary, if a.binary then expected? a.pending else none⟩

variable {a : Assembler}

theorem latched_of_message (binary : a.binary = true) :
    a.latched = ⟨a.pending, true, expected? a.pending⟩ := by
  rw [latched, binary, if_pos rfl]

theorem latched_of_text (text : a.binary = false) : a.latched = ⟨a.pending, false, none⟩ := by
  rw [latched, text, if_neg Bool.false_ne_true]

end Assembler

namespace Latched

/-- What is kept stays what can be read off the header. -/
theorem latch_push {pending : Array UInt8}
    (header : expected? pending = none → pending.size < MessageHeader.wireSize) (b : UInt8) :
    latch ⟨pending.push b, true, expected? pending⟩ =
      ⟨pending.push b, true, expected? (pending.push b)⟩ := by
  unfold latch
  cases e : expected? pending with
  | some n => rw [if_neg (fun unknown => nomatch unknown.1), Assembler.expected?_push e]
  | none =>
    by_cases whole : (pending.push b).size = MessageHeader.wireSize
    · rw [if_pos ⟨rfl, whole⟩]
    · have short : (pending.push b).size < MessageHeader.wireSize :=
        Nat.lt_of_le_of_ne (by rw [Array.size_push]; exact header e) whole
      rw [if_neg (fun just => whole just.2), Assembler.expected?_of_size_lt short]

theorem extend_latched {pending : Array UInt8}
    (header : expected? pending = none → pending.size < MessageHeader.wireSize) (b : UInt8) :
    extend ⟨pending, true, expected? pending⟩ b =
      ((Assembler.extend pending b).1.latched, (Assembler.extend pending b).2) := by
  unfold extend Assembler.extend
  dsimp only
  rw [latch_push header]
  dsimp only
  cases e : expected? (pending.push b) with
  | none => rw [Assembler.latched_of_message rfl, e]
  | some size =>
    dsimp only
    split
    · rfl
    · rw [Assembler.latched_of_message rfl, e]

/-- A byte does to both assemblers the same. -/
theorem push_latched {a : Assembler} (sound : a.Sound) (b : UInt8) :
    a.latched.push b = ((a.push b).1.latched, (a.push b).2) := by
  unfold push Assembler.push
  dsimp only
  cases binary : a.binary with
  | true =>
    have within : a.latched.begun b = a.latched :=
      if_neg fun begins => absurd binary (ne_true_of_eq_false begins.1)
    rw [within, Assembler.latched_of_message binary, if_pos rfl, if_pos rfl]
    exact extend_latched (Assembler.size_lt_of_expected? (sound.start binary)) b
  | false =>
    have kept : a.latched = ⟨a.pending, false, none⟩ := Assembler.latched_of_text binary
    rw [if_neg Bool.false_ne_true]
    by_cases is_start : b = startCode
    · have begins : a.latched.begun b = ⟨#[], true, none⟩ := if_pos ⟨binary, is_start⟩
      rw [begins, if_pos rfl, if_pos is_start]
      exact extend_latched (fun _ => by decide) b
    · have goes_on : a.latched.begun b = a.latched := if_neg fun begins => is_start begins.2
      rw [goes_on, kept, if_neg Bool.false_ne_true, if_neg is_start]
      dsimp only
      split
      · rw [kept]
      · split
        · split
          · rw [kept]
          · rfl
        · rfl

/-- Whatever is done to both assemblers, what they return is the same, and one is the other with the
size kept. -/
theorem run_latched {a : Assembler} (sound : a.Sound) (steps : List Step) :
    a.latched.run steps = ((a.run steps).1.latched, (a.run steps).2) := by
  induction steps generalizing a with
  | nil => rfl
  | cons s steps ih =>
    have stepped : a.latched.step s = ((a.step s).1.latched, (a.step s).2) := by
      cases s with
      | push b => rw [step, push_latched sound b]; rfl
      | reset => rfl
    rw [run, stepped, ih (sound.step s)]
    rfl

/-! ## What is kept hangs together -/

/-- How the bytes that wait, the kind of frame and the size of a message hang together. -/
structure Coherent (l : Latched) : Prop where
  /-- A message begins with a start code. -/
  start : l.binary = true → l.pending[0]? = some 0xFC
  /-- Its size is known just if a whole header has come. -/
  latched : l.binary = true → (l.expected.isSome ↔ 8 ≤ l.pending.size)
  /-- The size is what the header declares, and at least the header; more is to come. -/
  declared : l.binary = true → ∀ n, l.expected = some n →
    (∃ b, l.pending[3]? = some b ∧ n = max 8 b.toNat) ∧ l.pending.size < n
  short : l.binary = true → l.pending.size < 255
  /-- No size is known of a line. -/
  unlatched : l.binary = false → l.expected = none
  text : l.binary = false → ∀ b ∈ l.pending, b ≠ 0xFC ∧ b ≠ 0x0D ∧ b ≠ 0x0A

theorem coherent_latched {a : Assembler} (sound : a.Sound) : a.latched.Coherent := by
  have kept (binary : a.binary = true) : a.latched.expected = expected? a.pending := by
    rw [Assembler.latched_of_message binary]
  refine ⟨fun binary => ?_, fun binary => ?_, fun binary n e => ?_, sound.size_lt,
    fun text => ?_, fun text b mem => sound.text text b (Array.mem_toList_iff.mpr mem)⟩
  · have start := sound.start binary
    rwa [List.head?_eq_getElem?, Array.getElem?_toList] at start
  · rw [kept binary]
    constructor
    · intro known
      refine Nat.le_of_not_lt fun (short : a.pending.size < 8) => ?_
      rw [Assembler.expected?_of_size_lt short] at known
      cases known
    · intro whole
      refine Option.isSome_iff_ne_none.mpr fun unknown => ?_
      exact Nat.not_lt_of_le whole (Assembler.size_lt_of_expected? (sound.start binary) unknown)
  · rw [kept binary] at e
    exact ⟨Assembler.getElem?_three_of_expected? e, sound.more binary n e⟩
  · rw [Assembler.latched_of_text text]

/-- An idle assembler is like a fresh one, the size of a message included. -/
theorem Coherent.eq_fresh {l : Latched} (coherent : l.Coherent) (is_idle : l.isIdle = true) :
    l = fresh := by
  obtain ⟨none, text⟩ := Bool.and_eq_true_iff.mp is_idle
  rw [Bool.not_eq_true'] at text
  have unknown := coherent.unlatched text
  obtain ⟨pending, binary, expected⟩ := l
  obtain rfl : pending = #[] := Array.isEmpty_iff.mp none
  obtain rfl : binary = false := text
  obtain rfl : expected = .none := unknown
  rfl

/-- An assembler that answers any bytes like a fresh one is idle: line feeds tell it already. -/
theorem isIdle_of_pushed {a : Assembler} (sound : a.Sound)
    (same : ∀ bytes : Bytes, (a.latched.run (bytes.map .push)).2 =
      (fresh.run (bytes.map .push)).2) : a.isIdle = true := by
  refine sound.isIdle_of_feed ?_
  have returned := same (List.replicate maxMessageSize lineFeed)
  rw [run_latched sound, show fresh = idle.latched from rfl, run_latched Assembler.sound_idle]
    at returned
  dsimp only at returned
  rw [← (a.run_map_push _).2, Assembler.completed, returned]
  have quiet : idle.feed (List.replicate maxMessageSize lineFeed) = (idle, []) :=
    Assembler.feed_blank fun b mem => .inr (List.eq_of_mem_replicate mem)
  rw [← Assembler.completed, (idle.run_map_push _).2, quiet]

/-- Whatever bytes are pushed and whenever there is a reset: an assembler that keeps the size of a
message returns what one returns that reads it with every byte, and differs from it in nothing else.
If a message has begun, a start code and fewer than 255 bytes in all are waiting, and the size is
kept just if at least eight are: it is what the fourth declares, at least eight, and more than are
waiting. If not, plain text is waiting and no size is kept. The assembler is idle just if it is as
good as new, just if it answers whatever is done next like a fresh one, and just if it answers any
bytes so. And any 255 further bytes lead, at one of them, to where no message has begun. -/
theorem run_coherent (steps : List Step) :
    let l := (fresh.run steps).1
    fresh.run steps = ((idle.run steps).1.latched, (idle.run steps).2) ∧
    l.Coherent ∧
    (l.isIdle = true ↔ l = fresh) ∧
    (l.isIdle = true ↔ l.Resembles fresh) ∧
    (l.isIdle = true ↔ ∀ bytes : Bytes,
      (l.run (bytes.map .push)).2 = (fresh.run (bytes.map .push)).2) ∧
    ∀ bytes : Bytes, 255 ≤ bytes.length →
      ∃ n, 0 < n ∧ n ≤ 255 ∧ (l.run ((bytes.take n).map .push)).1.binary = false := by
  have ran : fresh.run steps = ((idle.run steps).1.latched, (idle.run steps).2) :=
    run_latched Assembler.sound_idle steps
  have sound : (idle.run steps).1.Sound := Assembler.sound_idle.run steps
  have coherent := coherent_latched sound
  rw [ran]
  dsimp only
  generalize (idle.run steps).1 = a at sound coherent
  refine ⟨rfl, coherent, ⟨coherent.eq_fresh, fun e => ?_⟩,
    ⟨fun is_idle further => ?_, fun same => ?_⟩,
    ⟨fun is_idle bytes => ?_, isIdle_of_pushed sound⟩, fun bytes enough => ?_⟩
  · rw [e]
    rfl
  · rw [coherent.eq_fresh is_idle]
  · exact isIdle_of_pushed sound fun bytes => same _
  · rw [coherent.eq_fresh is_idle]
  · obtain ⟨n, some_byte, le, text⟩ := sound.exists_feed_text enough
    refine ⟨n, some_byte, le, ?_⟩
    rw [run_latched sound, ← text, ← (a.run_map_push _).1]
    rfl

/-- A message as long as can be, of which a header has come after some text: start codes alone, as
bytes of it, lead out of it. -/
theorem run_coherent_longest :
    let steps : List Step := [0x68, 0x69, 0xFC, 0, 2, 255, 4, 0, 0, 0].map .push
    let l := (fresh.run steps).1
    let bytes := List.replicate 255 startCode
    l.binary = true ∧ l.expected = some 255 ∧ l.pending.size = 8 ∧
      (∃ b, l.pending[3]? = some b ∧ 255 = max 8 b.toNat) ∧ ¬ l.Resembles fresh ∧
      255 ≤ bytes.length ∧
      ∃ n, 0 < n ∧ n ≤ 255 ∧ (l.run ((bytes.take n).map .push)).1.binary = false := by
  intro steps l bytes
  have binary : l.binary = true := by decide
  have known : l.expected = some 255 := by decide
  have busy : ¬ l.isIdle = true := by decide
  have enough : 255 ≤ bytes.length := Nat.le_of_eq List.length_replicate.symm
  obtain ⟨-, coherent, -, idle_iff, -, leads⟩ := run_coherent steps
  exact ⟨binary, known, by decide, (coherent.declared binary 255 known).1,
    fun same => busy (idle_iff.mpr same), enough, leads bytes enough⟩

end Latched

end LightLink
