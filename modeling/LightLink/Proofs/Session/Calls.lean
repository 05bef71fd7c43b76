import LightLink.Session.Basic

/-!
# Calls of a session

* `Session.exchange_bind`: one step of an exchange after the other;
* `Session.sendAndConfirm_eq`: a call that sends is a write and, if that succeeds, a wait for a
  verdict;
* `Session.Event`: what is done with a session, and what happens to it meanwhile;
* `Session.calls`: the calls that send among events, and `Session.before_of_mem_calls`: what every
  event keeps holds when such a call begins.
-/

namespace LightLink.Session

/-! ## Steps -/

theorem exchange_bind {σ α β : Type} (x : Exchange σ α) (f : α → Exchange σ β) (s : Session σ) :
    (x >>= f) s = match x s with
      | (.ok a, s') => f a s'
      | (.error e, s') => (.error e, s') := by
  show (ExceptT.bindCont f (x s).1 : StateM (Session σ) _) (x s).2 = _
  rcases x s with ⟨a | e, s'⟩ <;> rfl

/-- What a write leads to once a wait for its verdict is over. -/
def confirmed {σ : Type} (timeout : Nat) :
    Except TransportError (Option Verdict) × Session σ → Except TransportError Unit × Session σ
  | (.error e, s) => (.error e, s)
  | (.ok (some .accepted), s) => (.ok (), s)
  | (.ok (some .rejected), s) => (.error .commandRejected, s)
  | (.ok none, s) => (.error (.ackTimeout timeout), s)

theorem confirmed_snd {σ : Type} (timeout : Nat)
    (r : Except TransportError (Option Verdict) × Session σ) : (confirmed timeout r).2 = r.2 := by
  rcases r with ⟨e | ⟨_ | (_ | _)⟩, s⟩ <;> rfl

/-- The bytes that a call writes. -/
def outgoing (payload : Bytes) (terminated : Bool) : Bytes :=
  if terminated then payload ++ terminator else payload

theorem sendAndConfirm_eq {σ : Type} [FarEnd σ] (payload : Bytes) (terminated : Bool)
    (timeout : Nat) (s : Session σ) : sendAndConfirm payload terminated timeout s =
      match write (outgoing payload terminated) s with
      | (.ok (), s') => confirmed timeout
          (awaitUntil (s'.link.now + timeout) s'.config.ackPoll Frame.verdict? s')
      | (.error e, s') => (.error e, s') := by
  unfold sendAndConfirm outgoing
  rw [exchange_bind]
  rcases write (if terminated then payload ++ terminator else payload) s with ⟨e | _, s'⟩
  · rfl
  · show (await timeout s'.config.ackPoll Frame.verdict? >>= _) s' = confirmed timeout
      (awaitUntil (s'.link.now + timeout) s'.config.ackPoll Frame.verdict? s')
    rw [exchange_bind, await]
    rcases awaitUntil (s'.link.now + timeout) s'.config.ackPoll Frame.verdict? s' with
      ⟨e | ⟨_ | (_ | _)⟩, s''⟩ <;> rfl

theorem sendAndConfirm_of_write {σ : Type} [FarEnd σ] {payload : Bytes} {terminated : Bool}
    {s s' : Session σ} (h : write (outgoing payload terminated) s = (.ok (), s')) (timeout : Nat) :
    sendAndConfirm payload terminated timeout s = confirmed timeout
      (awaitUntil (s'.link.now + timeout) s'.config.ackPoll Frame.verdict? s') := by
  rw [sendAndConfirm_eq, h]

theorem getDataMessage_eq {σ : Type} (wait : Nat) (s : Session σ) : getDataMessage wait s =
    awaitUntil (s.link.now + wait) s.config.dataPoll Frame.data? s := rfl

theorem waitReady_snd {σ : Type} (s : Session σ) : s.waitReady.2 =
    (awaitUntil (s.link.now + s.config.readyTimeout) s.config.readyPoll Frame.ready? s).2 := by
  show ((await s.config.readyTimeout s.config.readyPoll Frame.ready? >>= _) s).2 = _
  rw [exchange_bind, await]
  rcases awaitUntil (s.link.now + s.config.readyTimeout) s.config.readyPoll Frame.ready? s with
    ⟨e | ⟨_ | _⟩, s'⟩ <;> rfl

/-- A look changes the link as taking a frame from it does. -/
theorem link_getMessage {σ : Type} (wait : Nat) (s : Session σ) :
    (getMessage wait s).2.link = (s.link.take (s.patience wait)).2 := by
  unfold getMessage
  rcases s.link.take (s.patience wait) with ⟨_ | a, link⟩
  · dsimp only
    split <;> rfl
  · rfl

/-- A look finds what it takes from the link. -/
theorem take_of_getMessage {σ : Type} {s s' : Session σ} {wait : Nat} {f : Frame}
    (h : getMessage wait s = (.ok (some f), s')) :
    ∃ a, s.link.take (s.patience wait) = (some a, s'.link) ∧ a.frame = f := by
  unfold getMessage at h
  cases taken : s.link.take (s.patience wait) with
  | mk first link =>
    rw [taken] at h
    cases first with
    | none =>
      dsimp only at h
      split at h <;> cases h
    | some a =>
      cases h
      exact ⟨a, rfl, rfl⟩

theorem error_of_getMessage {σ : Type} {s s' : Session σ} {wait : Nat} {e : TransportError}
    (h : getMessage wait s = (.error e, s')) : ∃ name, e = .linkLost (.readerStopped name) := by
  unfold getMessage at h
  cases taken : s.link.take (s.patience wait) with
  | mk first link =>
    rw [taken] at h
    cases first with
    | none =>
      dsimp only at h
      split at h
      · cases h
      · cases h
        exact ⟨_, rfl⟩
    | some a => cases h

/-- A wait fails only because the reader has stopped. -/
theorem error_of_awaitUntil {σ α : Type} {s s' : Session σ} {deadline poll : Nat}
    {verdict : Frame → Option α} {e : TransportError}
    (h : awaitUntil deadline poll verdict s = (.error e, s')) :
    ∃ name, e = .linkLost (.readerStopped name) := by
  fun_induction awaitUntil deadline poll verdict s with
  | case1 s late => cases h
  | case2 s within e s' look =>
    cases h
    exact error_of_getMessage look
  | case3 s within s' look ih => exact ih h
  | case4 s within f s' look v decided => cases h
  | case5 s within f s' look undecided ih => exact ih h

theorem link_write {σ : Type} [FarEnd σ] (bytes : Bytes) (s : Session σ) :
    (write bytes s).2.link = (s.link.write bytes).2 := by
  unfold write
  rcases s.link.write bytes with ⟨e | _, link⟩ <;> rfl

theorem error_of_write {σ : Type} [FarEnd σ] {s s' : Session σ} {bytes : Bytes}
    {e : TransportError} (h : write bytes s = (.error e, s')) :
    ∃ name cause, e = .linkLost (.writeFailed name cause) := by
  unfold write at h
  dsimp only at h
  split at h
  · cases h
  · cases h
    exact ⟨_, _, rfl⟩

/-! ## Runs -/

variable {σ : Type} [FarEnd σ]

/-- What is done with a session, and what happens to it meanwhile. -/
inductive Event (σ : Type) where
  | send (payload : Bytes) (terminated : Bool) (timeout : Nat)
  | getMessage (wait : Nat)
  | getDataMessage (wait : Nat)
  | waitReady
  | pass (time : Nat)
  /-- The far end does something of its own accord. -/
  | act (f : σ → σ)

/-- The session after an event. -/
def Event.next (s : Session σ) : Event σ → Session σ
  | send payload terminated timeout => (sendAndConfirm payload terminated timeout s).2
  | getMessage wait => (s.getMessage wait).2
  | getDataMessage wait => (s.getDataMessage wait).2
  | waitReady => s.waitReady.2
  | pass time => { s with link := s.link.pass time }
  | act f => s.act f

/-- The session after events. -/
def after (s : Session σ) (events : List (Event σ)) : Session σ := events.foldl Event.next s

/-- A call that sends, and the session when it begins. -/
structure Call (σ : Type) where
  before : Session σ
  payload : Bytes
  terminated : Bool
  timeout : Nat

namespace Call

variable (c : Call σ)

def result : Except TransportError Unit :=
  (sendAndConfirm c.payload c.terminated c.timeout c.before).1

/-- The session when the call returns. -/
def after : Session σ := (sendAndConfirm c.payload c.terminated c.timeout c.before).2

/-- The verdict with which the call returns, if it returns with one. -/
def verdict? : Option Verdict :=
  match c.result with
  | .ok () => some .accepted
  | .error .commandRejected => some .rejected
  | .error _ => none

end Call

/-- The calls that send among events. -/
def calls (s : Session σ) : List (Event σ) → List (Call σ)
  | [] => []
  | e :: events =>
    (match e with
      | .send payload terminated timeout => [⟨s, payload, terminated, timeout⟩]
      | _ => []) ++ calls (e.next s) events

/-- What every event keeps holds when a call begins. -/
theorem before_of_mem_calls {P : Session σ → Prop} (step : ∀ s e, P s → P (Event.next s e))
    {s : Session σ} {events : List (Event σ)} (start : P s) : ∀ c ∈ s.calls events, P c.before := by
  induction events generalizing s with
  | nil => nofun
  | cons e events ih =>
    intro c mem
    rcases List.mem_append.mp mem with first | later
    · cases e with
      | send payload terminated timeout =>
        rw [List.mem_singleton.mp first]
        exact start
      | _ => cases first
    · exact ih (step s e start) c later

end LightLink.Session
