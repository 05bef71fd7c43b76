/-!
# Faults of a device

What can go wrong when bytes are read from a device or written to it: the kind of the fault and a
text for people.
-/

namespace LightLink

/-- The kind of a fault. The kinds that reading or writing treats in a way of its own have a name
here; any other is known by its name alone. -/
inductive FaultKind where
  | wouldBlock
  | timedOut
  | interrupted
  | unexpectedEof
  | writeZero
  | other (name : String)
  deriving DecidableEq, Repr

/-- A fault of a device. -/
structure Fault where
  kind : FaultKind
  text : String
  deriving DecidableEq, Repr

namespace Fault

/-- The device has nothing more to read and never will. -/
def streamClosed : Fault := ⟨.unexpectedEof, "stream closed"⟩

/-- The device takes no more bytes. -/
def noneWritten : Fault := ⟨.writeZero, "failed to write whole buffer"⟩

/-- The fault only says that nothing has come so far. -/
def isPause (f : Fault) : Bool :=
  match f.kind with
  | .wouldBlock | .timedOut | .interrupted => true
  | _ => false

end Fault

end LightLink
