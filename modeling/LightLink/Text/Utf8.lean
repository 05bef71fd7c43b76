import LightLink.Bytes

/-!
# UTF-8

Bytes are read as text one at a time. Where they are not UTF-8, each longest run of bytes that could
still have begun a character, and each byte that cannot begin one, is one invalid piece.

* `Utf8.encode`: the bytes of a text;
* `Utf8.decode?`: the text of bytes that are UTF-8;
* `Utf8.decodeLossy`: the text with one replacement character for each invalid piece.
-/

namespace LightLink.Utf8

/-- The bytes of a text. -/
def encode (cs : List Char) : Bytes := cs.flatMap String.utf8EncodeChar

/-- The bytes of a string. -/
def ofString (s : String) : Bytes := encode s.toList

/-- A character of which some bytes have been read: the bits so far, how many bytes are still owed,
and between which bounds the next one has to lie. -/
structure Unfinished where
  bits : Nat
  owed : Nat
  low : Nat
  high : Nat
  deriving DecidableEq, Repr

/-- A character, or bytes that are none. -/
inductive Piece where
  | char (c : Char)
  | invalid
  deriving DecidableEq, Repr

/-- Where reading stands between two bytes: between characters, or within one. -/
abbrev State := Option Unfinished

/-- The first byte of a character. -/
def lead (b : UInt8) : List Piece × State :=
  let n := b.toNat
  if n < 0x80 then ([.char (Char.ofNat n)], none)
  else if 0xC2 ≤ n ∧ n ≤ 0xDF then ([], some ⟨n % 0x20, 1, 0x80, 0xBF⟩)
  else if n = 0xE0 then ([], some ⟨0, 2, 0xA0, 0xBF⟩)
  else if n = 0xED then ([], some ⟨0xD, 2, 0x80, 0x9F⟩)
  else if 0xE1 ≤ n ∧ n ≤ 0xEF then ([], some ⟨n % 0x10, 2, 0x80, 0xBF⟩)
  else if n = 0xF0 then ([], some ⟨0, 3, 0x90, 0xBF⟩)
  else if 0xF1 ≤ n ∧ n ≤ 0xF3 then ([], some ⟨n % 0x8, 3, 0x80, 0xBF⟩)
  else if n = 0xF4 then ([], some ⟨4, 3, 0x80, 0x8F⟩)
  else ([.invalid], none)

/-- The next byte: the pieces it completes and where it leaves the reading. -/
def step : State → UInt8 → List Piece × State
  | none, b => lead b
  | some u, b =>
    if u.low ≤ b.toNat ∧ b.toNat ≤ u.high then
      let bits := u.bits * 0x40 + b.toNat % 0x40
      if u.owed = 1 then ([.char (Char.ofNat bits)], none)
      else ([], some ⟨bits, u.owed - 1, 0x80, 0xBF⟩)
    else
      let (ps, s) := lead b
      (.invalid :: ps, s)

/-- The pieces of bytes, after those already found. -/
def piecesFrom : State → Array Piece → Bytes → Array Piece
  | none, found, [] => found
  | some _, found, [] => found.push .invalid
  | s, found, b :: bs =>
    let (ps, s') := step s b
    piecesFrom s' (found ++ ps) bs

/-- The pieces of bytes. -/
def pieces (bytes : Bytes) : List Piece := (piecesFrom none #[] bytes).toList

/-- The character of a piece. -/
def Piece.char? : Piece → Option Char
  | .char c => some c
  | .invalid => none

/-- The text of bytes that are UTF-8. -/
def decode? (bytes : Bytes) : Option (List Char) := (pieces bytes).mapM Piece.char?

/-- The character shown for an invalid piece. -/
def replacement : Char := '\uFFFD'

/-- The text of bytes, with a replacement character for each invalid piece. -/
def decodeLossy (bytes : Bytes) : List Char :=
  (pieces bytes).map fun p => p.char?.getD replacement

end LightLink.Utf8
