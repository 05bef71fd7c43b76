import LightLink.Bytes
import LightLink.Device.Fault

/-!
# Writing to a device

A device may take only some of the bytes it is offered. Writing to it offers the rest again until
all of them are taken, and then flushes it. An interruption is no fault; a device that takes nothing
has failed.
-/

namespace LightLink

/-- What a device does with the bytes it is offered. -/
inductive WriteAnswer where
  /-- It takes at most so many of them. -/
  | take (most : Nat)
  | fault (fault : Fault)
  deriving DecidableEq, Repr

/-- A device that is written to: its answers, the next one first, after which it takes everything;
its fault when it is flushed, if it has one; what it has taken; and how often it was flushed. -/
structure Sink where
  answers : List WriteAnswer
  flushFault : Option Fault := none
  received : Bytes := []
  flushes : Nat := 0
  deriving DecidableEq, Repr

namespace Sink

/-- Offers bytes to a device with these answers until all are taken: what came of it, what was
taken, and which answers are left. -/
def offer : List WriteAnswer → Bytes → Except Fault Unit × Bytes × List WriteAnswer
  | answers, [] => (.ok (), [], answers)
  | [], bytes => (.ok (), bytes, [])
  | .take 0 :: answers, _ => (.error .noneWritten, [], answers)
  | .take (n + 1) :: answers, bytes =>
    let (outcome, taken, left) := offer answers (bytes.drop (n + 1))
    (outcome, bytes.take (n + 1) ++ taken, left)
  | .fault f :: answers, bytes =>
    if f.kind = .interrupted then offer answers bytes else (.error f, [], answers)

/-- Flushes a device. -/
def flush (s : Sink) : Except Fault Unit × Sink :=
  (match s.flushFault with
    | some f => .error f
    | none => .ok (),
    { s with flushes := s.flushes + 1 })

/-- Writes all of some bytes and flushes the device. -/
def write (s : Sink) (bytes : Bytes) : Except Fault Unit × Sink :=
  let (outcome, taken, left) := offer s.answers bytes
  let s := { s with answers := left, received := s.received ++ taken }
  match outcome with
  | .ok () => s.flush
  | .error f => (.error f, s)

end Sink

end LightLink
