import LightLink.Text.Hex

/-!
# Strings in TOML

A string stands between double quotes, with escapes, or between single quotes, as it is; between
three of either it may have line breaks, and one right at its start does not count. `Quoted.read?`
reads all four forms, `Quoted.encode` chooses the plainest form that can hold a text.
-/

namespace LightLink.Toml

/-- The space and the tab. -/
def isSpace (c : Char) : Bool := c == ' ' || c == '\t'

/-- The characters that stand for themselves in a comment and in every string: all but control
characters, tabs excepted. -/
def isPlain (c : Char) : Bool := c == '\t' || (' ' ≤ c && c != '\x7f')

namespace Quoted

/-! ## Reading -/

/-- The character with a code, if there is one. -/
def charOf? (code : Nat) : Option Char := if code.isValidChar then some (Char.ofNat code) else none

/-- The number of hexadecimal digits. -/
def hexNumber? (cs : List Char) : Option Nat :=
  cs.foldlM (fun n c => do some (n * 16 + (← hexValue? c))) 0

/-- The character that hexadecimal digits, as many of them as `digits`, stand for. -/
def coded? (digits : Nat) (cs : List Char) : Option (Char × List Char) := do
  let ds := cs.take digits
  if ds.length = digits then some (← charOf? (← hexNumber? ds), cs.drop digits) else none

/-- The character that an escape stands for; its backslash has been read. -/
def escape? : List Char → Option (Char × List Char)
  | 'b' :: cs => some ('\x08', cs)
  | 't' :: cs => some ('\t', cs)
  | 'n' :: cs => some ('\n', cs)
  | 'f' :: cs => some ('\x0c', cs)
  | 'r' :: cs => some ('\r', cs)
  | '"' :: cs => some ('"', cs)
  | '\\' :: cs => some ('\\', cs)
  | 'u' :: cs => coded? 4 cs
  | 'U' :: cs => coded? 8 cs
  | _ => none

/-- The rest of a string on one line between double quotes. The fuel is the number of characters
that are left. -/
def basic? : (fuel : Nat) → (read : Array Char) → List Char → Option (List Char × List Char)
  | 0, _, _ => none
  | fuel + 1, read, cs =>
    match cs with
    | '"' :: rest => some (read.toList, rest)
    | '\\' :: rest => do
      let (c, rest) ← escape? rest
      basic? fuel (read.push c) rest
    | c :: rest => if isPlain c then basic? fuel (read.push c) rest else none
    | [] => none

/-- The rest of a string on one line between single quotes. -/
def literal? (read : Array Char) : List Char → Option (List Char × List Char)
  | '\'' :: rest => some (read.toList, rest)
  | c :: rest => if isPlain c then literal? (read.push c) rest else none
  | [] => none

/-- The text without the line break at its start. -/
def dropBreak : List Char → List Char
  | '\n' :: rest => rest
  | '\r' :: '\n' :: rest => rest
  | cs => cs

/-- What is behind a backslash at the end of a line: spaces and line breaks, at least one of them a
line break, do not count. -/
def gap? (broken : Bool) : List Char → Option (List Char)
  | '\n' :: rest => gap? true rest
  | '\r' :: '\n' :: rest => gap? true rest
  | c :: rest => if isSpace c then gap? broken rest else if broken then some (c :: rest) else none
  | [] => none

/-- The rest of a string between three double quotes. Up to two quotes right before the last three
belong to the text. The fuel is the number of characters that are left. -/
def longBasic? : (fuel : Nat) → (read : Array Char) → List Char → Option (List Char × List Char)
  | 0, _, _ => none
  | fuel + 1, read, cs =>
    match cs with
    | '"' :: '"' :: '"' :: '"' :: '"' :: rest => some ((read.push '"').push '"' |>.toList, rest)
    | '"' :: '"' :: '"' :: '"' :: rest => some ((read.push '"').toList, rest)
    | '"' :: '"' :: '"' :: rest => some (read.toList, rest)
    | '\\' :: rest =>
      match gap? false rest with
      | some rest => longBasic? fuel read rest
      | none => do
        let (c, rest) ← escape? rest
        longBasic? fuel (read.push c) rest
    | '\n' :: rest => longBasic? fuel (read.push '\n') rest
    | '\r' :: '\n' :: rest => longBasic? fuel (read.push '\n') rest
    | c :: rest => if isPlain c then longBasic? fuel (read.push c) rest else none
    | [] => none

/-- The rest of a string between three single quotes. -/
def longLiteral? (read : Array Char) : List Char → Option (List Char × List Char)
  | '\'' :: '\'' :: '\'' :: '\'' :: '\'' :: rest =>
    some ((read.push '\'').push '\'' |>.toList, rest)
  | '\'' :: '\'' :: '\'' :: '\'' :: rest => some ((read.push '\'').toList, rest)
  | '\'' :: '\'' :: '\'' :: rest => some (read.toList, rest)
  | '\n' :: rest => longLiteral? (read.push '\n') rest
  | '\r' :: '\n' :: rest => longLiteral? (read.push '\n') rest
  | c :: rest => if isPlain c then longLiteral? (read.push c) rest else none
  | [] => none

/-- A string on one line. -/
def readShort? : List Char → Option (List Char × List Char)
  | '"' :: cs => basic? (cs.length + 1) #[] cs
  | '\'' :: cs => literal? #[] cs
  | _ => none

/-- A string. -/
def read? (cs : List Char) : Option (List Char × List Char) :=
  match cs with
  | '"' :: '"' :: '"' :: rest => longBasic? (rest.length + 1) #[] (dropBreak rest)
  | '\'' :: '\'' :: '\'' :: rest => longLiteral? #[] (dropBreak rest)
  | _ => readShort? cs

/-! ## Writing -/

/-- The length of the longest run of a character. -/
def longestRun (x : Char) (cs : List Char) : Nat :=
  (cs.foldl (fun (r : Nat × Nat) c => if c = x then (max r.1 (r.2 + 1), r.2 + 1) else (r.1, 0))
    (0, 0)).1

/-- A control character other than the tab and the line feed. -/
def isControl (c : Char) : Bool := !isPlain c && c != '\n'

/-- The four upper-case hexadecimal digits of a code below 65536. -/
def fourDigits (code : Nat) : String :=
  String.ofList ([code / 0x1000, code / 0x100, code / 0x10, code].map fun n => (hexDigit n).toUpper)

/-- A character between double quotes; `quotes` double quotes stand right before it, and up to
`allowed` of them may stand together. -/
def escaped (allowed quotes : Nat) (c : Char) : String :=
  if c = '"' then (if quotes < allowed then "\"" else "\\\"")
  else if c = '\x08' then "\\b"
  else if c = '\t' then "\\t"
  else if c = '\n' then (if allowed = 0 then "\\n" else "\n")
  else if c = '\x0c' then "\\f"
  else if c = '\r' then "\\r"
  else if c = '\\' then "\\\\"
  else if isPlain c then c.toString
  else "\\u" ++ fourDigits c.toNat

/-- A text between double quotes, of which up to `allowed` may stand together. -/
def escapeAll (allowed : Nat) (cs : List Char) : String :=
  (cs.foldl (fun (r : String × Nat) c =>
    (r.1 ++ escaped allowed r.2 c, if c = '"' ∧ r.2 < allowed then r.2 + 1 else 0)) ("", 0)).1

/-- A text between quotes on one line. -/
def short (quote : String) (text : String) : String := quote ++ text ++ quote

/-- A text between three quotes, with a line break in front if it has one. -/
def long (quote : String) (cs : List Char) (text : String) : String :=
  quote ++ (if '\n' ∈ cs then "\n" else "") ++ text ++ quote

/-- A text as a string: between double quotes if nothing has to be escaped, else between single
quotes, else between three double quotes, else between three single quotes, and with escapes only if
none of these can hold it. -/
def encode (cs : List Char) : String :=
  let control := cs.any isControl
  let backslash := cs.contains '\\'
  let broken := cs.contains '\n'
  let doubles := longestRun '"' cs
  let singles := longestRun '\'' cs
  if !control && !backslash && doubles == 0 && !broken then short "\"" (escapeAll 0 cs)
  else if !control && singles == 0 && !broken then short "'" (String.ofList cs)
  else if !control && !backslash && doubles ≤ 2 then long "\"\"\"" cs (escapeAll 2 cs)
  else if !control && singles ≤ 2 then long "'''" cs (String.ofList cs)
  else if broken then long "\"\"\"" cs (escapeAll 2 cs)
  else short "\"" (escapeAll 0 cs)

end Quoted

end LightLink.Toml
