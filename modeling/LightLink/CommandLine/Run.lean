import LightLink.CommandLine.Arguments

/-!
# Runs of a program

What a program leaves behind: its exit code, what it has written, and the line that names its error.
-/

namespace LightLink.CommandLine

/-- How a program ran. -/
structure Run where
  /-- The exit code; none for a program that does not end. -/
  exit : Option Nat
  output : String := ""
  error : Option String := none
  deriving DecidableEq, Repr

namespace Run

/-- The program has done its work and shows these lines. -/
def done (lines : List String) : Run :=
  { exit := some 0, output := String.join (lines.map (· ++ "\n")) }

/-- The program has failed. -/
def failed (message : String) : Run := { exit := some 1, error := some ("Error: " ++ message) }

/-- The program does not end. -/
def endless : Run := { exit := none }

/-- The command line was not carried out; `about` says how the program is used. -/
def stopped (about version : String) : Stop → Run
  | .usage => { exit := some 2, error := some about }
  | .help => done [about]
  | .version => done [version]

end Run

end LightLink.CommandLine
