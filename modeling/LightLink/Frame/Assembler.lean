import LightLink.Frame.Basic

/-!
# Cutting a stream into frames

An `Assembler` takes the bytes of a stream one at a time. A start code outside a message begins one,
whatever text was waiting; the message ends when it has as many bytes as its header declares, and at
least a whole header. All else is text: a line feed ends a line, carriage returns are dropped, and
an empty line is no frame.
-/

namespace LightLink

/-- Ends a line. -/
def lineFeed : UInt8 := 0x0A

/-- Is dropped from text. -/
def carriageReturn : UInt8 := 0x0D

/-- Where cutting stands: whether a message has begun, and what of it or of a line has come. -/
structure Assembler where
  binary : Bool := false
  pending : Array UInt8 := #[]
  deriving DecidableEq, Repr

namespace Assembler

/-- Between frames. -/
def idle : Assembler := {}

/-- Nothing of a frame has come. -/
def isIdle (a : Assembler) : Bool := a.pending.isEmpty && !a.binary

/-- How many bytes the message that has begun will take, once its header is there. -/
def expected? (pending : Array UInt8) : Option Nat :=
  (declaredSize? pending.toList).map (max MessageHeader.wireSize)

/-- The next byte of a message. -/
def extend (pending : Array UInt8) (b : UInt8) : Assembler × Option Frame :=
  let pending := pending.push b
  match expected? pending with
  | some size =>
    if size ≤ pending.size then (idle, some ⟨pending.toList, true⟩) else (⟨true, pending⟩, none)
  | none => (⟨true, pending⟩, none)

/-- The next byte of the stream, and the frame it completes. -/
def push (a : Assembler) (b : UInt8) : Assembler × Option Frame :=
  if a.binary then extend a.pending b
  else if b = startCode then extend #[] b
  else if b = carriageReturn then (a, none)
  else if b = lineFeed then
    if a.pending.isEmpty then (a, none) else (idle, some ⟨a.pending.toList, false⟩)
  else (⟨false, a.pending.push b⟩, none)

/-- Drops what has come of a frame. -/
def reset (_ : Assembler) : Assembler := idle

/-- How many bytes a reset drops. -/
def dropped (a : Assembler) : Nat := a.pending.size

/-- The next bytes of the stream, with the frames they complete after those already found. -/
def feedInto (a : Assembler) (found : Array Frame) : Bytes → Assembler × Array Frame
  | [] => (a, found)
  | b :: bs =>
    match a.push b with
    | (a', some f) => feedInto a' (found.push f) bs
    | (a', none) => feedInto a' found bs

/-- The next bytes of the stream, and the frames they complete. -/
def feed (a : Assembler) (bytes : Bytes) : Assembler × List Frame :=
  let (a', found) := a.feedInto #[] bytes
  (a', found.toList)

theorem size_feedInto_le (a : Assembler) (found : Array Frame) (bytes : Bytes) :
    (a.feedInto found bytes).2.size ≤ found.size + bytes.length := by
  induction bytes generalizing a found with
  | nil => simp [feedInto]
  | cons b bs ih =>
    simp only [feedInto, List.length_cons]
    split
    · rename_i a' f _
      have := ih a' (found.push f)
      simp only [Array.size_push] at this
      omega
    · rename_i a' _
      have := ih a' found
      omega

/-- Each byte completes at most one frame. -/
theorem length_feed_le (a : Assembler) (bytes : Bytes) :
    (a.feed bytes).2.length ≤ bytes.length := by
  simpa [feed] using size_feedInto_le a #[] bytes

end Assembler

end LightLink
