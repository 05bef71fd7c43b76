import LightLink.Device.Fault
import LightLink.Frame.Assembler
import LightLink.Ring
import LightLink.Text.Span

/-!
# The reader of a link

A `Reader` takes in what each read of a link yields, cuts it into frames, and keeps the frames, with
the time at which they were complete, in a ring until somebody takes them. A read that yields
nothing drops what has come of a frame; a read that fails ends the reading for good.

* `Reader.load`: a bound on the frames that are there or can still come from given readings, which
  `load_read` shows never to grow.
-/

namespace LightLink

/-- What a read of a link yields. -/
inductive Reading where
  | chunk (bytes : Bytes)
  /-- Nothing came within the time that a read takes. -/
  | pause
  | failure
  deriving DecidableEq, Repr

/-- What a read comes to: no bytes are a pause. -/
def Reading.ofRead : Except Fault Bytes → Reading
  | .ok bytes => if bytes.isEmpty then .pause else .chunk bytes
  | .error _ => .failure

/-- The most frames that a reading can complete. -/
def Reading.load : Reading → Nat
  | chunk bytes => bytes.length
  | pause => 0
  | failure => 0

/-- A frame and the time at which it was complete. -/
structure Arrival where
  frame : Frame
  time : Nat
  deriving DecidableEq, Repr

/-- How many frames are kept unless something else is asked for. -/
def defaultCapacity : Nat := 1000

/-- The reading side of a link. -/
structure Reader where
  assembler : Assembler
  ring : Ring Arrival
  /-- How many frames have been completed, also those that had to make way for others. -/
  received : Nat
  running : Bool

namespace Reader

/-- The name of a reader that has been given no other. -/
def defaultName : String := "hmtl-frame-reader"

/-- A reader that has read nothing and keeps `capacity` frames. -/
def start (capacity : Nat) : Reader := ⟨.idle, .empty capacity, 0, true⟩

/-- Keeps frames that were complete at a time. -/
def keep (r : Reader) (time : Nat) : List Frame → Reader
  | [] => r
  | f :: fs =>
    keep { r with ring := (r.ring.put ⟨f, time⟩).1, received := r.received + 1 } time fs

/-- Takes in what a read at a time has yielded. -/
def read (r : Reader) (time : Nat) (reading : Reading) : Reader :=
  if !r.running then r
  else
    match reading with
    | .chunk bytes =>
      let fed := r.assembler.feed bytes
      keep { r with assembler := fed.1 } time fed.2
    | .pause => { r with assembler := r.assembler.reset }
    | .failure => { r with running := false }

/-- Reads as long as it runs: what it has taken in, all at a time, and the reads that are left. -/
def readAll (r : Reader) (time : Nat) :
    List (Except Fault Bytes) → Reader × List (Except Fault Bytes)
  | [] => (r, [])
  | x :: reads =>
    if r.running then readAll (r.read time (.ofRead x)) time reads else (r, x :: reads)

/-- Takes the oldest frame out. -/
def take (r : Reader) : Option Arrival × Reader :=
  let (a, ring) := r.ring.take
  (a, { r with ring })

/-! ## The load -/

theorem length_keep_le (r : Reader) (time : Nat) (fs : List Frame) :
    (keep r time fs).ring.length ≤ r.ring.length + fs.length := by
  induction fs generalizing r with
  | nil => simp [keep]
  | cons f fs ih =>
    refine Nat.le_trans (ih _) ?_
    have := Ring.length_put_le r.ring ⟨f, time⟩
    simp only [List.length_cons]
    omega

/-- A reading never brings more frames than its load. -/
theorem load_read (r : Reader) (time : Nat) (x : Reading) :
    (r.read time x).ring.length ≤ r.ring.length + x.load := by
  unfold read
  split
  · omega
  · cases x with
    | chunk bytes =>
      refine Nat.le_trans (length_keep_le _ _ _) ?_
      have := r.assembler.length_feed_le bytes
      simp only [Reading.load]
      omega
    | pause => simp [Reading.load]
    | failure => simp [Reading.load]

theorem isEmpty_keep {r : Reader} (h : r.ring.isEmpty = false) (time : Nat) (fs : List Frame) :
    (keep r time fs).ring.isEmpty = false := by
  induction fs generalizing r with
  | nil => exact h
  | cons f fs ih => exact ih (r.ring.isEmpty_put _)

/-- Reading never takes the last frame away. -/
theorem isEmpty_read (r : Reader) (h : r.ring.isEmpty = false) (time : Nat) (x : Reading) :
    (r.read time x).ring.isEmpty = false := by
  unfold read
  split
  · exact h
  · cases x with
    | chunk bytes =>
    simpa using isEmpty_keep (r := { r with assembler := (r.assembler.feed bytes).1 }) h time _
    | pause => exact h
    | failure => exact h

@[simp] theorem running_keep (r : Reader) (time : Nat) (fs : List Frame) :
    (keep r time fs).running = r.running := by
  induction fs generalizing r with
  | nil => rfl
  | cons f fs ih => simp [keep, ih]

/-- A reader that has stopped reads nothing more. -/
theorem read_of_not_running {r : Reader} (h : r.running = false) (time : Nat) (x : Reading) :
    r.read time x = r := by
  simp [read, h]

end Reader

end LightLink
