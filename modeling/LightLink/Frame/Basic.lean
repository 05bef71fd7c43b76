import LightLink.Message.Codec
import LightLink.Text.Blank
import LightLink.Text.Utf8

/-!
# Frames

What a module sends is cut into frames: binary messages and lines of text. A line is compared with a
token after its blanks at both ends are dropped.
-/

namespace LightLink

/-! ## Tokens -/

namespace Token

/-- A module has started and takes commands. -/
def ready : String := "ready"

/-- A module has done what it was told. -/
def ok : String := "ok"

/-- A module has refused what it was told. -/
def fail : String := "fail"

/-- Begins a configuration. -/
def start : String := "start"

/-- Ends a configuration. -/
def finish : String := "end"

/-- Loads the stored configuration. -/
def read : String := "read"

/-- Prints the configuration. -/
def print : String := "print"

/-- Stores the configuration. -/
def write : String := "write"

/-- Every token of the line of commands, in a fixed order. -/
def all : List String := [ready, ok, fail, start, finish, read, print, write]

/-- A line is a token if it is UTF-8 and, but for the blanks at its ends, the token itself. -/
def isLine (token : String) (line : Bytes) : Bool :=
  (Utf8.decode? line).any fun cs => trim cs == token.toList

end Token

/-! ## Frames -/

/-- A binary message or a line of text, as it was cut from the stream. -/
structure Frame where
  data : Bytes
  isBinary : Bool
  deriving DecidableEq, Repr

namespace Frame

/-- The frame of bytes that came as a whole: binary if they begin as a message does. -/
def ofData (data : Bytes) : Frame := ⟨data, data.head? == some startCode⟩

/-- The text of a line that is UTF-8. -/
def text? (f : Frame) : Option (List Char) := if f.isBinary then none else Utf8.decode? f.data

/-- The frame is a line that is this token. -/
def isToken (f : Frame) (token : String) : Bool := !f.isBinary && Token.isLine token f.data

/-- The header of a binary frame, if it is one. -/
def header? (f : Frame) : Option MessageHeader :=
  if f.isBinary then ((MessageHeader.decode f.data).map Prod.fst).toOption else none

/-- The message of a binary frame. -/
def message (f : Frame) : Except WireError Message :=
  if f.isBinary then Prod.fst <$> Message.decode f.data
  else .error (.malformedPayload .textLine)

/-- How a binary frame is introduced. -/
def caption (f : Frame) : String :=
  match f.header? with
  | some h => s!"{h.type.label} to {h.address.toNat} ({f.data.length} bytes):"
  | none => s!"binary ({f.data.length} bytes):"

/-- The frame as it is shown to people. -/
def display (f : Frame) : String :=
  if f.isBinary then f.caption ++ String.join (f.data.map fun b => " " ++ hexByte b)
  else "text: " ++ String.ofList (Utf8.decodeLossy f.data)

end Frame

end LightLink
