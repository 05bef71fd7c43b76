import LightLink.Message.Response
import LightLink.Scan.Registry
import LightLink.Session.Basic

/-!
# Scanning

A scan polls every address of a range in ascending order and keeps the registry up to date with what
came of it. A poll that fails tells nothing about its address, and the scan goes on.
-/

namespace LightLink

/-- How a link is scanned. -/
structure ScanConfig where
  /-- The pause between two scans. -/
  scanPeriod : Nat := seconds 60
  /-- The pause behind each address. -/
  addressPeriod : Nat := millis 250
  first : UInt16 := 120
  /-- Behind the last address. -/
  limit : UInt16 := 150
  dataWait : Nat := millis 250
  ackTimeout : Nat := seconds 10
  deriving DecidableEq, Repr

/-- The addresses that are scanned, in their order. -/
def ScanConfig.addresses (c : ScanConfig) : List UInt16 :=
  (List.range' c.first.toNat (c.limit.toNat - c.first.toNat)).map UInt16.ofNat

/-- Why a poll told nothing. -/
inductive ScanError where
  | transport (cause : TransportError)
  | protocol (cause : WireError)
  | unexpectedReply (type : MessageType)
  deriving DecidableEq, Repr

/-- The wording of an error. -/
def ScanError.message : ScanError → String
  | transport cause => s!"transport error: {cause.message}"
  | protocol cause => s!"protocol error: {cause.message}"
  | unexpectedReply type => s!"expected a poll response, got {type.label}"

/-- What came of a poll: who answered, or that nobody did. -/
abbrev PollOutcome := Except ScanError (Option Identity)

/-- Who is meant by the frame that came after a poll. -/
def pollOutcome : Option Frame → PollOutcome
  | none => .ok none
  | some f =>
    match f.message with
    | .error e => .error (.protocol e)
    | .ok m =>
      match m.body.identity? with
      | some identity => .ok (some identity)
      | none => .error (.unexpectedReply m.type)

/-- The registry after a poll of an address. -/
def Registry.note (r : Registry) (address : UInt16) : PollOutcome → Registry
  | .ok (some identity) => (r.record address identity).1
  | .ok none => (r.silent address).1
  | .error _ => r

/-- Whether a module answered a poll. -/
def PollOutcome.isAnswer : PollOutcome → Bool
  | .ok (some _) => true
  | _ => false

/-- Where a scan stands: the registry, and how many modules have answered. -/
structure ScanState where
  registry : Registry := {}
  responders : Nat := 0
  deriving DecidableEq, Repr

/-- The state after a poll of an address. -/
def ScanState.note (s : ScanState) (address : UInt16) (outcome : PollOutcome) : ScanState :=
  ⟨s.registry.note address outcome, s.responders + if outcome.isAnswer then 1 else 0⟩

namespace Session

variable {σ : Type}

/-- Lets time pass. -/
def pause (time : Nat) : StateM (Session σ) Unit :=
  modify fun s => { s with link := s.link.pass time }

variable [FarEnd σ]

/-- Sends a poll and waits for what comes after it was confirmed. -/
def pollExchange (bytes : Bytes) (ackTimeout dataWait : Nat) : Exchange σ (Option Frame) := do
  sendAndConfirm bytes false ackTimeout
  getDataMessage dataWait

/-- Polls an address. -/
def pollAddress (c : ScanConfig) (address : UInt16) : StateM (Session σ) PollOutcome := do
  match (Message.poll address).encode with
  | .error e => pure (.error (.protocol e))
  | .ok bytes =>
    match ← (pollExchange bytes c.ackTimeout c.dataWait).run with
    | .error e => pure (.error (.transport e))
    | .ok frame => pure (pollOutcome frame)

/-- Polls addresses one after the other. -/
def scanAddresses (c : ScanConfig) : List UInt16 → ScanState → StateM (Session σ) ScanState
  | [], s => pure s
  | address :: rest, s => do
    let outcome ← pollAddress c address
    pause c.addressPeriod
    scanAddresses c rest (s.note address outcome)

/-- Scans the whole range once: the registry after it, and how many modules have answered. -/
def scanOnce (c : ScanConfig) (r : Registry) : StateM (Session σ) ScanState :=
  scanAddresses c c.addresses ⟨r, 0⟩

end Session

end LightLink
