import LightLink.Device.Fault
import LightLink.Text.Span
import LightLink.Wire.Error

/-!
# What can go wrong on a link

The errors of a session, and the one place where each gets its wording.
-/

namespace LightLink

/-- How a link was lost. -/
inductive LinkLoss where
  /-- The reader of this link has stopped. -/
  | readerStopped (link : String)
  | writeFailed (link : String) (cause : Fault)
  deriving DecidableEq, Repr

/-- The wording of a loss. -/
def LinkLoss.message : LinkLoss → String
  | readerStopped link => s!"reader for {link} has stopped"
  | writeFailed link cause => s!"write to {link} failed: {cause.text}"

/-- Why a session's operation failed. -/
inductive TransportError where
  | openFailed (device : String) (cause : Fault)
  /-- No line that says `ready` came in time. -/
  | readyTimeout (timeout : Nat)
  /-- Neither a line that says `ok` nor one that says `fail` came in time. -/
  | ackTimeout (timeout : Nat)
  | commandRejected
  | linkLost (cause : LinkLoss)
  | io (cause : Fault)
  | protocol (cause : WireError)
  /-- A task that used the session broke off, this one or an earlier one that had locked it. The
  operations here always return, so neither a relay nor a scanner ends with this. -/
  | sessionUnavailable (reason : String)
  deriving DecidableEq, Repr

namespace TransportError

/-- The wording of an error. -/
def message : TransportError → String
  | openFailed device cause => s!"failed to open {device}: {cause.text}"
  | readyTimeout timeout => s!"module did not report ready within {Span.text timeout}"
  | ackTimeout timeout => s!"no acknowledgement within {Span.text timeout}"
  | commandRejected => "module rejected the command"
  | linkLost cause => s!"link lost: {cause.message}"
  | io cause => s!"I/O error: {cause.text}"
  | protocol cause => s!"protocol error: {cause.message}"
  | sessionUnavailable reason => s!"session unavailable: {reason}"

/-- Nothing more can come over the link. -/
def isLinkLost : TransportError → Bool
  | linkLost _ => true
  | _ => false

/-- It may be worth while to try again. -/
def isTimeout : TransportError → Bool
  | readyTimeout _ | ackTimeout _ => true
  | _ => false

end TransportError

end LightLink
