import LightLink.Text.Decimal
import LightLink.Text.Hex

/-!
# Network addresses

Addresses of both versions of the Internet protocol and the endpoints they make with a port, as they
are written and read. A longest run of zero groups, the first of them if there are several, is left
out of a version 6 address if it has at least two groups.
-/

namespace LightLink

/-- A version 4 address. -/
structure Ipv4 where
  a : UInt8
  b : UInt8
  c : UInt8
  d : UInt8
  deriving DecidableEq, Repr

/-- An address: four bytes, or eight groups of sixteen bits. -/
inductive IpAddress where
  | v4 (address : Ipv4)
  | v6 (groups : List UInt16)
  deriving DecidableEq, Repr

/-- An address and a port. -/
structure Endpoint where
  address : IpAddress
  port : UInt16
  deriving DecidableEq, Repr

namespace Ipv4

/-- The text of an address. -/
def text (i : Ipv4) : String := ".".intercalate ([i.a, i.b, i.c, i.d].map fun n => toString n.toNat)

/-- The number of a byte in decimal digits, without zeros in front, and what is behind it. -/
def octet? (cs : List Char) : Option (UInt8 × List Char) :=
  let ds := cs.takeWhile Char.isDigit
  let n := ds.foldl (fun n c => n * 10 + (c.toNat - '0'.toNat)) 0
  if 1 ≤ ds.length ∧ ds.length ≤ 3 ∧ n < 256 ∧ (ds.head? ≠ some '0' ∨ ds.length = 1) then
    some (UInt8.ofNat n, cs.drop ds.length)
  else none

/-- The number of a byte behind a point, and what is behind it. -/
def nextOctet? : List Char → Option (UInt8 × List Char)
  | '.' :: cs => octet? cs
  | _ => none

/-- An address and what is behind it. -/
def read? (cs : List Char) : Option (Ipv4 × List Char) := do
  let (a, cs) ← octet? cs
  let (b, cs) ← nextOctet? cs
  let (c, cs) ← nextOctet? cs
  let (d, cs) ← nextOctet? cs
  some (⟨a, b, c, d⟩, cs)

/-- The two groups that an address makes at the end of a version 6 address. -/
def groups (i : Ipv4) : List UInt16 :=
  [i.a.toUInt16 * 256 + i.b.toUInt16, i.c.toUInt16 * 256 + i.d.toUInt16]

end Ipv4

namespace Ipv6

/-- How many groups an address has. -/
def groupCount : Nat := 8

/-! ## Reading -/

/-- A group of up to four hexadecimal digits, and what is behind it. -/
def group? (cs : List Char) : Option (UInt16 × List Char) :=
  let ds := cs.takeWhile fun c => (hexValue? c).isSome
  if 1 ≤ ds.length ∧ ds.length ≤ 4 then
    some (UInt16.ofNat (ds.foldl (fun n c => n * 16 + (hexValue? c).getD 0) 0), cs.drop ds.length)
  else none

/-- The text behind the colon that stands before every group but the first. -/
def behindColon? (first : Bool) (cs : List Char) : Option (List Char) :=
  if first then some cs
  else
    match cs with
    | ':' :: cs => some cs
    | _ => none

/-- As many groups as there are, at most `limit`; the last two may be written as a version 4
address. Also tells whether they are, and what is behind them. -/
def readGroups (first : Bool) : (limit : Nat) → List Char → List UInt16 × Bool × List Char
  | 0, cs => ([], false, cs)
  | limit + 1, cs =>
    let embedded := if limit = 0 then none else behindColon? first cs >>= Ipv4.read?
    match embedded with
    | some (i, rest) => (i.groups, true, rest)
    | none =>
      match behindColon? first cs >>= group? with
      | some (g, rest) =>
        let (gs, isEmbedded, rest) := readGroups false limit rest
        (g :: gs, isEmbedded, rest)
      | none => ([], false, cs)

/-- An address and what is behind it: all its groups, or two colons in place of at least one. -/
def read? (cs : List Char) : Option (List UInt16 × List Char) :=
  let (front, embedded, rest) := readGroups true groupCount cs
  if front.length = groupCount then some (front, rest)
  else if embedded then none
  else
    match rest with
    | ':' :: ':' :: rest =>
      let (back, _, rest) := readGroups true (groupCount - (front.length + 1)) rest
      some (front ++ List.replicate (groupCount - front.length - back.length) 0 ++ back, rest)
    | _ => none

/-! ## Writing -/

/-- The text of a group. -/
def groupText (g : UInt16) : String := String.ofList (Nat.toDigits 16 g.toNat)

/-- The text of groups. -/
def groupsText (gs : List UInt16) : String := ":".intercalate (gs.map groupText)

/-- How many zero groups a list begins with. -/
def zerosAt (gs : List UInt16) : Nat := (gs.takeWhile (· == 0)).length

/-- The place and the length of the first longest run of zero groups. -/
def longestZeros (gs : List UInt16) : Nat × Nat :=
  (List.range gs.length).foldl (fun best i =>
    let n := zerosAt (gs.drop i)
    if best.2 < n then (i, n) else best) (0, 0)

/-- The text of an address. One that stands for a version 4 address shows that. -/
def text (gs : List UInt16) : String :=
  match gs with
  | [0, 0, 0, 0, 0, 0xFFFF, g, h] =>
    "::ffff:" ++ Ipv4.text ⟨(g / 256).toUInt8, g.toUInt8, (h / 256).toUInt8, h.toUInt8⟩
  | _ =>
    let (i, n) := longestZeros gs
    if n ≥ 2 then groupsText (gs.take i) ++ "::" ++ groupsText (gs.drop (i + n)) else groupsText gs

end Ipv6

/-- The address that a text gives. -/
def IpAddress.parse? (cs : List Char) : Option IpAddress :=
  match Ipv4.read? cs with
  | some (i, []) => some (.v4 i)
  | _ =>
    match Ipv6.read? cs with
    | some (gs, []) => some (.v6 gs)
    | _ => none

/-- The port that a text gives. -/
def port? : List Char → Option UInt16
  | '+' :: _ => none
  | cs => (UInt16.ofNat <$> Decimal.natUpTo 0xFFFF cs).toOption

/-- The port behind a colon. -/
def portBehindColon? : List Char → Option UInt16
  | ':' :: cs => port? cs
  | _ => none

/-- The endpoint that a text gives; brackets enclose a version 6 address. -/
def Endpoint.parse? : List Char → Option Endpoint
  | '[' :: cs => do
    let (groups, cs) ← Ipv6.read? cs
    match cs with
    | ']' :: cs => some ⟨.v6 groups, ← portBehindColon? cs⟩
    | _ => none
  | cs => do
    let (address, cs) ← Ipv4.read? cs
    some ⟨.v4 address, ← portBehindColon? cs⟩

/-- The text of an address. -/
def IpAddress.text : IpAddress → String
  | .v4 i => i.text
  | .v6 gs => Ipv6.text gs

/-- The text of an endpoint. -/
def Endpoint.text (e : Endpoint) : String :=
  match e.address with
  | .v4 i => s!"{i.text}:{e.port.toNat}"
  | .v6 gs => "[" ++ Ipv6.text gs ++ "]:" ++ toString e.port.toNat

/-- A port of this host. -/
def Endpoint.local (port : UInt16) : Endpoint := ⟨.v4 ⟨127, 0, 0, 1⟩, port⟩

end LightLink
