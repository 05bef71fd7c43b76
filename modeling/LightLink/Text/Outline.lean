/-!
# Outlines

How a value made of parts is shown to a person: on one line, or over several with every part on
lines of its own. A group is a name, a bracket and the parts in it, each behind its label.

* `Outline.line`: the form on one line;
* `Outline.lines`: the form over several lines.
-/

namespace LightLink

/-- A value as it is shown. -/
structure Outline where
  line : String
  lines : List String
  deriving DecidableEq, Repr

/-- What encloses the parts of a group. -/
inductive Bracket where
  | curly
  | round
  | square
  deriving DecidableEq, Repr

namespace Bracket

/-- The sign in front of the parts; a curly one stands apart from a name. -/
def opening : Bracket → String
  | curly => " \x7b"
  | round => "("
  | square => "["

/-- The sign behind the parts. -/
def closing : Bracket → String
  | curly => "\x7d"
  | round => ")"
  | square => "]"

/-- What keeps the parts apart from the signs on one line. -/
def padding : Bracket → String
  | curly => " "
  | _ => ""

end Bracket

namespace Outline

/-- A value without parts. -/
def leaf (text : String) : Outline := ⟨text, [text]⟩

/-- A number. -/
def nat (n : Nat) : Outline := leaf (toString n)

/-- A number with its sign. -/
def int (n : Int) : Outline := leaf (toString n)

/-- How far the parts of a group are moved in. -/
def indent : String := "    "

/-- The lines of a part in a group over several lines. -/
def partLines (label : String) (o : Outline) : List String :=
  ((o.lines.modifyHead (label ++ ·)).modify (o.lines.length - 1) (· ++ ",")).map (indent ++ ·)

/-- A group of parts. -/
def group (name : String) (b : Bracket) (parts : List (String × Outline)) : Outline where
  line :=
    name ++ b.opening ++ b.padding ++ ", ".intercalate (parts.map fun p => p.1 ++ p.2.line) ++
      b.padding ++ b.closing
  lines :=
    if parts.isEmpty then [name ++ b.opening ++ b.closing]
    else
      (name ++ b.opening) :: (parts.flatMap fun p => partLines p.1 p.2) ++ [b.closing]

/-- A group whose parts have names. -/
def record (name : String) (fields : List (String × Outline)) : Outline :=
  group name .curly (fields.map fun f => (f.1 ++ ": ", f.2))

/-- A group that names one part by its kind. -/
def wrap (name : String) (part : Outline) : Outline := group name .round [("", part)]

/-- A sequence. -/
def list (items : List Outline) : Outline := group "" .square (items.map ("", ·))

end Outline

end LightLink
