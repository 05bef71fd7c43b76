import LightLink.Wire.Error

/-!
# Items on the relay channel

A relay and its client talk in items over a byte stream: four bytes of length, most significant
first, and as many bytes. An item without bytes says that nothing is pending. `ItemDecoder` takes a
stream apart as it arrives, in pieces of any size.
-/

namespace LightLink.Relay

/-- The size of the length in front of an item. -/
def prefixSize : Nat := 4

/-- The most bytes of an item. -/
def maxItemSize : Nat := 65536

/-! ## Tokens -/

/-- A message has been passed on, or the relay stops: `ack`. -/
def ackToken : Bytes := [0x61, 0x63, 0x6B]

/-- The client asks the relay to stop: `exit`. -/
def exitToken : Bytes := [0x65, 0x78, 0x69, 0x74]

/-- The client asks for what a module has sent: `data`. -/
def dataToken : Bytes := [0x64, 0x61, 0x74, 0x61]

/-! ## Items -/

/-- An item as it was received. -/
inductive Item where
  | bytes (bytes : Bytes)
  | empty
  deriving DecidableEq, Repr

namespace Item

/-- The item of some bytes. -/
def ofBytes (bs : Bytes) : Item := if bs.isEmpty then empty else bytes bs

/-- The bytes of an item that has any. -/
def toOption : Item → Option Bytes
  | bytes bs => some bs
  | empty => none

/-- The bytes of an item. -/
def toBytes (i : Item) : Bytes := i.toOption.getD []

/-- The item is this token. -/
def isToken (i : Item) (token : Bytes) : Bool := i == bytes token

end Item

/-- The length of an item, as it stands in front of it. -/
def lengthPrefix (n : Nat) : Bytes := big32 (UInt32.ofNat n)

/-- The bytes of an item on the channel, unless there are too many. -/
def encodeItem (bs : Bytes) : Except WireError Bytes :=
  if bs.length > maxItemSize then .error (.oversizedPayload bs.length maxItemSize)
  else .ok (lengthPrefix bs.length ++ bs)

/-- The length that the bytes of a channel announce, once it is all there. -/
def announced? : Bytes → Option Nat
  | b₀ :: b₁ :: b₂ :: b₃ :: _ => some (ofLittle32 b₃ b₂ b₁ b₀).toNat
  | _ => none

/-! ## The decoder -/

/-- What has come of a stream and not yet been taken out as an item. -/
structure ItemDecoder where
  buffer : Bytes := []
  deriving DecidableEq, Repr

namespace ItemDecoder

/-- More of the stream. -/
def push (d : ItemDecoder) (bs : Bytes) : ItemDecoder := ⟨d.buffer ++ bs⟩

/-- How many bytes have come and not been taken out. -/
def buffered (d : ItemDecoder) : Nat := d.buffer.length

/-- Takes out the next item if all of it has come. A length that no item has leaves the buffer as it
is, as nothing after it can be told apart. -/
def next (d : ItemDecoder) : Except WireError (Option Item) × ItemDecoder :=
  match announced? d.buffer with
  | none => (.ok none, d)
  | some n =>
    if n > maxItemSize then (.error (.oversizedPayload n maxItemSize), d)
    else if d.buffer.length < prefixSize + n then (.ok none, d)
    else
      (.ok (some (.ofBytes ((d.buffer.drop prefixSize).take n))),
        ⟨d.buffer.drop (prefixSize + n)⟩)

@[simp] theorem buffered_push (d : ItemDecoder) (bs : Bytes) :
    (d.push bs).buffered = d.buffered + bs.length := by
  simp [push, buffered]

/-- Where no item has come as a whole, the decoder stays as it is. -/
theorem next_none {d d' : ItemDecoder} (h : d.next = (.ok none, d')) : d' = d := by
  unfold next at h
  split at h
  · cases h; rfl
  · split at h
    · cases h
    · split at h <;> cases h
      rfl

/-- Taking an item out leaves less in the buffer. -/
theorem buffered_next_lt {d d' : ItemDecoder} {i : Item} (h : d.next = (.ok (some i), d')) :
    d'.buffered < d.buffered := by
  unfold next at h
  split at h
  · cases h
  · split at h
    · cases h
    · split at h
      · cases h
      · cases h
        simp only [buffered, List.length_drop, prefixSize] at *
        omega

end ItemDecoder

end LightLink.Relay
