import LightLink.Wire.Error

/-!
# Reading and writing wire formats

A `Decoder` takes a value off the front of what is left of a buffer and remembers how far it has
come, so that an error names the position, counted from the start of the buffer, at which the bytes
ran out. A type with a `Wire` instance has a fixed format: how many bytes a value takes, what they
are, and how they are read back.

* `Decoder.take`: the primitive every other decoder is made of;
* `Wire.decodeAt`: a value at an offset of a buffer, which may lie past its end;
* `Wire.decodeAll`: values one after the other until nothing is left.
-/

namespace LightLink

/-- A place in a buffer: the size of the whole buffer, how many bytes lie behind, and what lies
ahead. -/
structure Cursor where
  size : Nat
  pos : Nat
  rest : Bytes
  deriving DecidableEq, Repr

/-- The place `offset` bytes into a buffer. -/
def Cursor.at (bytes : Bytes) (offset : Nat) : Cursor :=
  ⟨bytes.length, offset, bytes.drop offset⟩

/-- The place `n` bytes further on. -/
def Cursor.advance (c : Cursor) (n : Nat) : Cursor := ⟨c.size, c.pos + n, c.rest.drop n⟩

/-- Reads a value at a place and moves the place past it. -/
abbrev Decoder (α : Type) := StateT Cursor (Except WireError) α

namespace Decoder

/-- The next `n` bytes. -/
def take (n : Nat) : Decoder Bytes := fun c =>
  if n ≤ c.rest.length then .ok (c.rest.take n, c.advance n)
  else .error (.insufficientData (c.pos + n) c.size)

/-- The next byte. -/
def byte : Decoder UInt8 := fun c =>
  match c.rest with
  | b :: _ => .ok (b, c.advance 1)
  | [] => .error (.insufficientData (c.pos + 1) c.size)

/-- The next two bytes as a word, least significant first. -/
def word : Decoder UInt16 := fun c =>
  match c.rest with
  | lo :: hi :: _ => .ok (ofLittle16 lo hi, c.advance 2)
  | _ => .error (.insufficientData (c.pos + 2) c.size)

/-- The next two bytes as a signed word. -/
def signed : Decoder Int16 := UInt16.toInt16 <$> word

/-- The next `n` bytes as a row, all of them or none. -/
def row (n : Nat) : Decoder (Row UInt8 n) := fun c =>
  if h : n ≤ c.rest.length then
    .ok (⟨c.rest.take n, by simp [h]⟩, c.advance n)
  else .error (.insufficientData (c.pos + n) c.size)

/-- A row of `n` values, each read on its own. -/
def rowOf {α : Type} (d : Decoder α) : (n : Nat) → Decoder (Row α n)
  | 0 => pure ⟨[], rfl⟩
  | n + 1 => do
    let a ← d
    let r ← rowOf d n
    pure (r.cons a)

/-- Refuses with `e`. -/
def fail {α : Type} (e : WireError) : Decoder α := fun _ => .error e

/-- The value of `o`, or a refusal with `e`. -/
def ofOption {α : Type} (e : WireError) : Option α → Decoder α
  | some a => pure a
  | none => fail e

end Decoder

/-- A fixed binary format for the values of a type. -/
class Wire (α : Type) where
  /-- How many bytes a value takes. -/
  size : α → Nat
  /-- The bytes of a value. -/
  encode : α → Bytes
  /-- Reads a value. -/
  decoder : Decoder α

namespace Wire

variable {α : Type} [Wire α]

/-- How many bytes values one after the other take. -/
def sizeAll : List α → Nat
  | [] => 0
  | a :: as => size a + sizeAll as

/-- The value that starts `offset` bytes into a buffer, and how many bytes it takes. -/
def decodeAt (bytes : Bytes) (offset : Nat) : Except WireError (α × Nat) := do
  let (a, c) ← decoder (α := α) (Cursor.at bytes offset)
  pure (a, c.pos - offset)

/-- Values one after the other until nothing is left, at most `fuel` of them; as every value takes
at least one byte, the number of bytes left is fuel enough. -/
def decodeUpTo : (fuel : Nat) → Decoder (List α)
  | 0 => pure []
  | fuel + 1 => do
    if (← get).rest.isEmpty then
      pure []
    else
      let a ← decoder
      let as ← decodeUpTo fuel
      pure (a :: as)

/-- Values one after the other until nothing is left. -/
def decodeAll : Decoder (List α) := do
  decodeUpTo (← get).rest.length

end Wire

end LightLink
