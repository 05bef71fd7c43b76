import LightLink.Toml.Quoted
import LightLink.Toml.Table

/-!
# TOML documents

A document is read line by line: a header, an entry, a comment or nothing. `Toml.parse?` gives its
table or refuses it without a reason. Every second step of the reading takes at least one character
off the text, so twice the number of characters is fuel enough.
-/

namespace LightLink.Toml

/-- The most parts of a dotted key, and the most brackets within each other. -/
def maxNesting : Nat := 79

/-! ## Blanks and keys -/

/-- The text behind spaces and tabs. -/
def dropSpaces (cs : List Char) : List Char := cs.dropWhile isSpace

/-- The text behind blanks, line breaks and comments. -/
def dropFiller (comment : Bool) : List Char → List Char
  | '\n' :: rest => dropFiller false rest
  | '\r' :: '\n' :: rest => dropFiller false rest
  | c :: rest =>
    if comment then (if isPlain c then dropFiller true rest else c :: rest)
    else if isSpace c then dropFiller false rest
    else if c = '#' then dropFiller true rest
    else c :: rest
  | [] => []

/-- What is behind the end of a line, with a comment or without. -/
def lineEnd? (cs : List Char) : Option (List Char) :=
  let cs := dropSpaces cs
  let cs := if cs.head? == some '#' then cs.tail.dropWhile isPlain else cs
  match cs with
  | [] => some []
  | '\n' :: rest => some rest
  | '\r' :: '\n' :: rest => some rest
  | _ => none

/-- The character may stand in a key without quotes. -/
def isBare (c : Char) : Bool := c.isAlphanum || c == '_' || c == '-'

/-- One part of a key. -/
def keyPart? (cs : List Char) : Option (Key × List Char) :=
  let bare := cs.takeWhile isBare
  if bare.isEmpty then Quoted.readShort? cs else some (bare, cs.drop bare.length)

/-- The parts of a key, with points between them. -/
def keyParts? : (fuel : Nat) → List Char → Option (List Key × List Char)
  | 0, _ => none
  | fuel + 1, cs => do
    let (k, rest) ← keyPart? (dropSpaces cs)
    match dropSpaces rest with
    | '.' :: rest => do
      let (ks, rest) ← keyParts? fuel rest
      some (k :: ks, rest)
    | rest => some ([k], rest)

/-- A key: the parts on the way to its last one, and that. -/
def key? (cs : List Char) : Option ((List Key × Key) × List Char) := do
  let (ks, rest) ← keyParts? (cs.length + 1) cs
  if ks.length > maxNesting then none
  else some ((ks.dropLast, ← ks.getLast?), rest)

/-! ## Values -/

/-- The character may stand in a word. -/
def isWordChar (c : Char) : Bool :=
  c.isAlphanum || c == '_' || c == '-' || c == '+' || c == '.' || c == ':'

/-- A word; a time of day may stand behind a date with a space between them. -/
def word? (cs : List Char) : Option (Node × List Char) :=
  let w := cs.takeWhile isWordChar
  let rest := cs.drop w.length
  let time := (rest.drop 1).takeWhile isWordChar
  if isDate w && rest.head? == some ' ' && isOffsetTime time then
    some (.word .dateTime, rest.drop (1 + time.length))
  else do some (.word (← Word.ofText? w), rest)

mutual

/-- A value, with at most `depth` brackets within each other. -/
def value? : (fuel depth : Nat) → List Char → Option (Node × List Char)
  | 0, _, _ => none
  | fuel + 1, depth, cs =>
    match cs, depth with
    | '"' :: _, _ | '\'' :: _, _ => do
      let (s, rest) ← Quoted.read? cs
      some (.string s, rest)
    | '[' :: rest, depth + 1 => items? fuel depth #[] (dropFiller false rest)
    | '\x7b' :: rest, depth + 1 =>
      match dropSpaces rest with
      | '\x7d' :: rest => some (.table .inline [], rest)
      | rest => members? fuel depth [] rest
    | _, _ => word? cs

/-- The rest of an array: an item and what is behind it, or its end. -/
def items? : (fuel depth : Nat) → (read : Array Node) → List Char → Option (Node × List Char)
  | 0, _, _, _ => none
  | _, _, read, ']' :: rest => some (.array read.toList, rest)
  | fuel + 1, depth, read, cs => do
    let (v, rest) ← value? fuel depth cs
    match dropFiller false rest with
    | ',' :: rest => items? fuel depth (read.push v) (dropFiller false rest)
    | ']' :: rest => some (.array (read.push v).toList, rest)
    | _ => none

/-- The rest of a table between braces: an entry and what is behind it. -/
def members? : (fuel depth : Nat) → (read : Table) → List Char → Option (Node × List Char)
  | 0, _, _, _ => none
  | fuel + 1, depth, read, cs => do
    let ((path, k), rest) ← key? cs
    let '=' :: rest := rest | none
    let (v, rest) ← value? fuel depth (dropSpaces rest)
    let read ← read.put? path k v
    match dropSpaces rest with
    | ',' :: rest => members? fuel depth read rest
    | '\x7d' :: rest => some (.table .inline read, rest)
    | _ => none

end

/-! ## Lines -/

/-- The table that has been read, and the path to the table whose header came last. -/
structure Reading where
  root : Table := []
  place : List Key := []

/-- An entry of the table whose header came last. -/
def entry? (r : Reading) (cs : List Char) : Option (Reading × List Char) := do
  let ((path, k), rest) ← key? cs
  let '=' :: rest := rest | none
  let (v, rest) ← value? (2 * rest.length + 2) maxNesting (dropSpaces rest)
  let root ← r.root.within? (·.put? path k v) r.place
  some ({ r with root }, ← lineEnd? rest)

/-- A header, of which the first bracket has been read. -/
def header? (r : Reading) (cs : List Char) : Option (Reading × List Char) := do
  let ((path, k), rest) ← key? cs
  let ']' :: rest := rest | none
  some (⟨← r.root.openHeader? path k, path ++ [k]⟩, ← lineEnd? rest)

/-- A repeated header, of which the first brackets have been read. -/
def element? (r : Reading) (cs : List Char) : Option (Reading × List Char) := do
  let ((path, k), rest) ← key? cs
  let ']' :: ']' :: rest := rest | none
  some (⟨← r.root.openElement? path k, path ++ [k]⟩, ← lineEnd? rest)

/-- A line. -/
def line? (r : Reading) (cs : List Char) : Option (Reading × List Char) :=
  match dropSpaces cs with
  | '[' :: '[' :: rest => element? r rest
  | '[' :: rest => header? r rest
  | rest =>
    match lineEnd? rest with
    | some rest => some (r, rest)
    | none => entry? r rest

/-- The table that the lines of a text make. -/
def lines? : (fuel : Nat) → Reading → List Char → Option Table
  | _, r, [] => some r.root
  | 0, _, _ => none
  | fuel + 1, r, cs => do
    let (r, rest) ← line? r cs
    lines? fuel r rest

/-- The text without the mark that may stand in front of a document. -/
def dropMark : List Char → List Char
  | '\uFEFF' :: cs => cs
  | cs => cs

/-- The table of a document. -/
def parse? (cs : List Char) : Option Table :=
  let cs := dropMark cs
  lines? (cs.length + 1) {} cs

end LightLink.Toml
