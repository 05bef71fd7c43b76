import LightLink.Message.Codec
import LightLink.Session.Error
import LightLink.Session.Link

/-!
# Sessions

A `Session` is the one user of a link. What it sends carries no number, so an answer belongs to what
was sent last: a module answers each payload with a line `ok` or `fail`, and one payload is sent at
a time.

* `Session.getMessage`: the next frame, waited for no longer than a given time;
* `Session.awaitUntil`: frames, one after the other, until one of them decides or a deadline passes;
* `Session.sendAndConfirm`, `Session.waitReady`, `Session.getDataMessage`: the three waits made of
  it.

A wait looks at the time that is left before it looks for a frame, so a wait of no time finds
nothing. Once the reader has stopped and nothing is left in its ring, every look fails.
-/

namespace LightLink

/-- How long a session waits for what, how often it looks meanwhile, and how much is kept. -/
structure SessionConfig where
  readyTimeout : Nat := seconds 10
  readyPoll : Nat := seconds 1
  ackTimeout : Nat := seconds 10
  ackPoll : Nat := millis 100
  dataWait : Nat := millis 250
  dataPoll : Nat := millis 100
  capacity : Nat := defaultCapacity
  deriving DecidableEq, Repr

/-- The user of a link. -/
structure Session (σ : Type) where
  name : String
  config : SessionConfig
  link : Link σ
  /-- When the frame that was taken last had arrived. -/
  lastReceived : Option Nat := none

/-- What a session does: it changes the session, also where it fails. -/
abbrev Exchange (σ α : Type) := ExceptT TransportError (StateM (Session σ)) α

/-- Ends the payloads of the text commands and of configuration records. -/
def terminator : Bytes := [0xFE, 0xFE, 0xFE, 0xFE]

/-- A module's answer to a payload. -/
inductive Verdict where
  | accepted
  | rejected
  deriving DecidableEq, Repr

/-- The answer that a frame is, if it is one. -/
def Frame.verdict? (f : Frame) : Option Verdict :=
  if f.isToken Token.ok then some .accepted
  else if f.isToken Token.fail then some .rejected
  else none

/-- The frame, if it is binary. -/
def Frame.data? (f : Frame) : Option Frame := if f.isBinary then some f else none

/-- The frame says that a module is ready. -/
def Frame.ready? (f : Frame) : Option Unit := if f.isToken Token.ready then some () else none

namespace Session

variable {σ α : Type}

/-- The link can still bring something. -/
def isAlive (s : Session σ) : Bool := s.link.reader.running

/-- Nothing has been taken for longer than `maxIdle`, or nothing more can come. -/
def isStale (s : Session σ) (maxIdle : Nat) : Bool :=
  !s.isAlive || s.lastReceived.all fun t => decide (maxIdle < s.link.now - t)

/-! ## Waiting -/

/-- How long a look for a frame may take: as long as the link lives, the time given. -/
def patience (s : Session σ) (wait : Nat) : Nat := if s.isAlive then wait else 0

/-- The next frame, waited for no longer than `wait`. -/
def getMessage (wait : Nat) : Exchange σ (Option Frame) := fun s =>
  let (taken, link) := s.link.take (s.patience wait)
  let s := { s with link }
  match taken with
  | some a => (.ok (some a.frame), { s with lastReceived := some a.time })
  | none =>
    if s.isAlive then (.ok none, s) else (.error (.linkLost (.readerStopped s.name)), s)

/-- How long one look may take in a wait of which `remaining` is left. To look again and again
without a pause comes to the same as looking once for all of the time left. -/
def slice (poll remaining : Nat) : Nat := if poll = 0 then remaining else min remaining poll

theorem slice_pos {poll remaining : Nat} (h : 0 < remaining) : 0 < slice poll remaining := by
  unfold slice; split <;> omega

theorem slice_le (poll remaining : Nat) : slice poll remaining ≤ remaining := by
  unfold slice; split <;> omega

/-- Reading never starts again once it has stopped. -/
theorem not_isAlive_take {s : Session σ} (h : s.isAlive = false) (wait : Nat) :
    (s.link.take wait).2.reader.running = false :=
  s.link.running_take h wait

/-- A look that finds a frame lessens what can still be found. -/
theorem load_getMessage_some {s s' : Session σ} {wait : Nat} {f : Frame}
    (h : getMessage wait s = (.ok (some f), s')) :
    s'.link.load < s.link.load ∧ s.link.now ≤ s'.link.now := by
  simp only [getMessage] at h
  cases taken : s.link.take (s.patience wait) with
  | mk a link =>
    rw [taken] at h
    cases a with
    | none => simp only at h; split at h <;> cases h
    | some a =>
      cases h
      refine ⟨Link.load_take_some taken, ?_⟩
      have := s.link.now_le_await (s.patience wait)
      rw [← Link.now_take, taken] at this
      exact this

/-- A look that finds nothing has taken all of its time. -/
theorem getMessage_none {s s' : Session σ} {wait : Nat} (h : getMessage wait s = (.ok none, s')) :
    s'.link.load ≤ s.link.load ∧ s'.link.now = s.link.now + wait := by
  simp only [getMessage] at h
  cases taken : s.link.take (s.patience wait) with
  | mk a link =>
    rw [taken] at h
    cases a with
    | some a => cases h
    | none =>
      simp only at h
      split at h
      · rename_i alive
        cases h
        have le := s.link.load_take_le (s.patience wait)
        rw [taken] at le
        refine ⟨le, ?_⟩
        have now := Link.take_none taken
        have : s.isAlive = true := by
          cases hs : s.isAlive with
          | true => rfl
          | false =>
            have := not_isAlive_take hs (s.patience wait)
            rw [taken] at this
            exact absurd (this.symm.trans alive) (by decide)
        simpa [patience, this] using now
      · cases h

/-- Takes frames until one of them decides or `deadline` has come; looks for a frame for no longer
than `poll` at a time. -/
def awaitUntil (deadline poll : Nat) (verdict : Frame → Option α) (s : Session σ) :
    Except TransportError (Option α) × Session σ :=
  if deadline ≤ s.link.now then (.ok none, s)
  else
    match _taken : getMessage (slice poll (deadline - s.link.now)) s with
    | (.error e, s') => (.error e, s')
    | (.ok none, s') => awaitUntil deadline poll verdict s'
    | (.ok (some f), s') =>
      match verdict f with
      | some a => (.ok (some a), s')
      | none => awaitUntil deadline poll verdict s'
termination_by s.link.load + (deadline - s.link.now)
decreasing_by
  · have := getMessage_none _taken
    have := @slice_pos poll (deadline - s.link.now) (by omega)
    omega
  · have := load_getMessage_some _taken
    omega

/-- Takes frames until one of them decides or the time is up. -/
def await (timeout poll : Nat) (verdict : Frame → Option α) : Exchange σ (Option α) := fun s =>
  awaitUntil (s.link.now + timeout) poll verdict s

/-- Waits for a module to say that it is ready; whatever comes before is dropped. -/
def waitReady : Exchange σ Unit := do
  let config := (← get).config
  match ← await config.readyTimeout config.readyPoll Frame.ready? with
  | some () => pure ()
  | none => throw (.readyTimeout config.readyTimeout)

/-- The next binary frame, if one comes in time; lines of text that come before it are dropped. -/
def getDataMessage (wait : Nat) : Exchange σ (Option Frame) := do
  await wait (← get).config.dataPoll Frame.data?

/-! ## Sending -/

variable [FarEnd σ]

/-- A session on a link to `far` that has just been set up. -/
def attach (name : String) (config : SessionConfig) (far : σ) : Session σ :=
  ⟨name, config, .connect config.capacity far, none⟩

/-- The far end does something of its own accord. -/
def act (s : Session σ) (f : σ → σ) : Session σ := { s with link := s.link.act f }

/-- Writes to the link. -/
def write (bytes : Bytes) : Exchange σ Unit := fun s =>
  let (outcome, link) := s.link.write bytes
  let s := { s with link }
  match outcome with
  | .ok () => (.ok (), s)
  | .error cause => (.error (.linkLost (.writeFailed s.name cause)), s)

/-- Sends a payload and waits for the module's verdict; whatever else comes before it is dropped. -/
def sendAndConfirm (payload : Bytes) (terminated : Bool) (timeout : Nat) : Exchange σ Unit := do
  write (if terminated then payload ++ terminator else payload)
  match ← await timeout (← get).config.ackPoll Frame.verdict? with
  | some .accepted => pure ()
  | some .rejected => throw .commandRejected
  | none => throw (.ackTimeout timeout)

/-- Sends a payload with a terminator behind it. -/
def sendTerminated (payload : Bytes) : Exchange σ Unit := do
  sendAndConfirm payload true (← get).config.ackTimeout

/-- Sends a message, unless it cannot be encoded. -/
def sendMessage (m : Message) : Exchange σ Unit := do
  match m.encode with
  | .ok bytes => sendAndConfirm bytes false (← get).config.ackTimeout
  | .error e => throw (.protocol e)

/-- Sends a text command. -/
def sendCommand (command : String) : Exchange σ Unit := sendTerminated (Utf8.ofString command)

/-- Sends a configuration record. -/
def sendRecord (record : ConfigRecord) : Exchange σ Unit := sendTerminated (Wire.encode record)

end Session

end LightLink
