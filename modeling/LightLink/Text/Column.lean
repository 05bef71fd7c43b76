/-!
# Columns

Rows of a table whose cells are filled up with spaces to a common width; a cell that is wider keeps
its text.
-/

namespace LightLink.Column

/-- A text filled up with spaces to `width` characters. -/
def fill (width : Nat) (s : String) : String :=
  s ++ String.ofList (List.replicate (width - s.length) ' ')

/-- Cells of `width` characters, a space between each two. -/
def row (width : Nat) (cells : List String) : String :=
  " ".intercalate (cells.map (fill width))

end LightLink.Column
