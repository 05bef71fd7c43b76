import LightLink.Message.Basic

/-!
# The bytes of a message

`Message.encode` writes a message with its header; `Message.decode` reads the one a buffer starts
with. The header's length covers header and body, so a message takes between 8 and 255 bytes and is
read without looking past its end.
-/

namespace LightLink

/-- The most bytes a header's length can declare. -/
def maxMessageSize : Nat := 255

/-! ## Bodies -/

namespace Body

/-- How many bytes a body takes. -/
def wireSize : Body → Nat
  | output c => Wire.size c
  | pollRequest => 0
  | pollResponse i => Wire.size i
  | setAddress a => Wire.size a
  | dumpConfig rs => Wire.sizeAll rs

/-- The bytes of a body. -/
def encode : Body → Bytes
  | output c => Wire.encode c
  | pollRequest => []
  | pollResponse i => Wire.encode i
  | setAddress a => Wire.encode a
  | dumpConfig rs => rs.flatMap Wire.encode

/-- A value that has to take up all of `payload`, in a message that declares `length` bytes. -/
def exactly {α : Type} [Wire α] (length : UInt8) (payload : Bytes) : Except WireError α := do
  let (a, used) ← Wire.decodeAt payload 0
  if used = payload.length then pure a
  else .error (.lengthMismatch length.toNat (MessageHeader.wireSize + used))

/-- Reads the body behind a header. A poll without a body asks, one with an identity answers. -/
def decode (header : MessageHeader) (payload : Bytes) : Except WireError Body :=
  match header.type with
  | .output => output <$> exactly header.length payload
  | .poll =>
    if payload.length = 0 then .ok pollRequest
    else if payload.length = Identity.wireSize then do
      let (i, _) ← Wire.decodeAt payload 0
      pure (pollResponse i)
    else .error (.malformedPayload (.pollBody payload.length))
  | .setAddress => setAddress <$> exactly header.length payload
  | .dumpConfig => do
    let (rs, _) ← Wire.decodeAll (Cursor.at payload 0)
    pure (dumpConfig rs)

end Body

/-! ## Messages -/

/-- The header at the start of a buffer, and its size. -/
def MessageHeader.decode (bytes : Bytes) : Except WireError (MessageHeader × Nat) :=
  Wire.decodeAt bytes 0

/-- The length that a buffer's header declares, once a whole header is there and begins as a message
does; the rest of the header is not looked at. -/
def declaredSize? : Bytes → Option Nat
  | start :: _ :: _ :: length :: _ :: _ :: _ :: _ :: _ =>
    if start = startCode then some length.toNat else none
  | _ => none

namespace Message

/-- How many bytes a message takes. -/
def wireSize (m : Message) : Nat := MessageHeader.wireSize + m.body.wireSize

/-- The header that is written for a message whose bytes number `length`. -/
def header (m : Message) (length : UInt8) : MessageHeader :=
  ⟨0, protocolVersion, length, m.type, m.flags, m.address⟩

/-- The bytes of a message, unless they are too many for its header to count. -/
def encode (m : Message) : Except WireError Bytes :=
  let body := m.body.encode
  let size := MessageHeader.wireSize + body.length
  if size > maxMessageSize then .error (.oversizedPayload size maxMessageSize)
  else .ok (Wire.encode (m.header (UInt8.ofNat size)) ++ body)

/-- The message a buffer starts with, and how many bytes it takes, which is what its header
declares. -/
def decode (bytes : Bytes) : Except WireError (Message × Nat) := do
  let (header, _) ← MessageHeader.decode bytes
  let size := header.length.toNat
  if size < MessageHeader.wireSize then
    .error (.lengthMismatch size MessageHeader.wireSize)
  else if bytes.length < size then
    .error (.insufficientData size bytes.length)
  else do
    let payload := (bytes.take size).drop MessageHeader.wireSize
    let body ← Body.decode header payload
    pure (⟨header.address, header.flags, body⟩, size)

end Message

end LightLink
