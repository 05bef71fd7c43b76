import LightLink.Bytes
import LightLink.Device.Fault

/-!
# Reading from a device

A device is known by the answers it has for successive reads. Reading from it turns them into bytes:
a fault that only says that nothing has come is no bytes at all, and an answer without bytes, where
some were asked for, is the end of the stream.
-/

namespace LightLink

/-- What a device has for a read. -/
inductive ReadAnswer where
  | data (bytes : Bytes)
  | fault (fault : Fault)
  deriving DecidableEq, Repr

/-- A device that is read from: its answers, the next one first. After the last of them its stream
has ended. -/
structure Source where
  answers : List ReadAnswer
  deriving DecidableEq, Repr

namespace Source

/-- At most `max` bytes of what has come; what is left of it stays for the next read. -/
def fetch (s : Source) (max : Nat) : Except Fault Bytes × Source :=
  match s.answers with
  | [] => (.ok [], s)
  | .fault f :: rest => (.error f, ⟨rest⟩)
  | .data bytes :: rest =>
    if bytes.length ≤ max then (.ok bytes, ⟨rest⟩)
    else (.ok (bytes.take max), ⟨.data (bytes.drop max) :: rest⟩)

/-- At most `max` bytes, or none if nothing has come so far. -/
def read (s : Source) (max : Nat) : Except Fault Bytes × Source :=
  match s.fetch max with
  | (.ok bytes, s') =>
    if bytes.isEmpty && max != 0 then (.error .streamClosed, s') else (.ok bytes, s')
  | (.error f, s') => (if f.isPause then .ok [] else .error f, s')

end Source

end LightLink
