import LightLink.Proofs.Session.Taken

/-!
# What a request takes

Five requests take frames from one link, each with a rule of its own for which frame decides it. The
last frame that a request takes is the one that has decided it, if any has.

* `Session.Request`: what can be requested of a session; `Request.decision`: what a frame decides;
* `Session.Query`: a request and the session when it is made, with its result and the frames that it
  takes;
* `Query.settled`: a request takes nothing after the frame that decides it;
* `Query.course`: which readings are taken in meanwhile, and which frames are taken.
-/

namespace LightLink

/-! ## Writing -/

namespace Link

variable {σ : Type} [FarEnd σ]

/-- The link with what its far end sends now, before any of it is read. -/
def fetched (l : Link σ) : Link σ :=
  let (sent, far) := FarEnd.send l.far
  let sent := sent.map fun s => (l.now + s.1, s.2)
  { l with far, coming := byTime l.coming sent }

/-- The link that has been written to, before any of the answer is read. -/
def answered (l : Link σ) (bytes : Bytes) : Link σ :=
  fetched { l.settle with far := (FarEnd.write l.far l.now bytes).2 }

theorem exchange_eq_settle (l : Link σ) : l.exchange = l.fetched.settle := rfl

theorem write_eq_settle (l : Link σ) (bytes : Bytes) :
    l.write bytes = ((FarEnd.write l.far l.now bytes).1, (l.answered bytes).settle) :=
  congrArg (Prod.mk _) (exchange_eq_settle _)

end Link

namespace Session

variable {σ α : Type}

/-! ## Requests -/

/-- What can be requested of a session. -/
inductive Request where
  | getMessage (wait : Nat)
  | getDataMessage (wait : Nat)
  | waitReady
  | send (payload : Bytes) (terminated : Bool) (timeout : Nat)
  | sendMessage (m : Message)
  deriving DecidableEq, Repr

namespace Request

/-- It waits for a verdict on what it writes. -/
def isSend : Request → Bool
  | send .. | sendMessage _ => true
  | _ => false

/-- The bytes that it writes, if there are any. -/
def payload? : Request → Option Bytes
  | send payload terminated _ => some (outgoing payload terminated)
  | sendMessage m => m.encode.toOption
  | _ => none

/-- The result that a verdict is. -/
def ofVerdict : Verdict → Except TransportError (Option Frame)
  | .accepted => .ok none
  | .rejected => .error .commandRejected

/-- The result that a frame decides, if it decides any. -/
def decision : Request → Frame → Option (Except TransportError (Option Frame))
  | getMessage _, f => some (.ok (some f))
  | getDataMessage _, f => f.data?.map fun g => .ok (some g)
  | waitReady, f => f.ready?.map fun _ => .ok none
  | send .., f | sendMessage _, f => f.verdict?.map ofVerdict

/-- The result says that nothing has decided. -/
def isOpen : Request → Except TransportError (Option Frame) → Bool
  | getMessage _, .ok none | getDataMessage _, .ok none => true
  | waitReady, .error (.readyTimeout _) => true
  | send .., .error (.ackTimeout _) | sendMessage _, .error (.ackTimeout _) => true
  | sendMessage _, .error (.protocol _) => true
  | _, .error (.linkLost _) => true
  | _, _ => false

/-- How the frames that a request has taken bear on its result: the last one has decided it, or none
of them decides. -/
def Settles (r : Request) (taken : List Arrival) (result : Except TransportError (Option Frame)) :
    Prop :=
  (∃ front a, taken = front ++ [a] ∧ (∀ b ∈ front, r.decision b.frame = none) ∧
    r.decision a.frame = some result) ∨
  (∀ b ∈ taken, r.decision b.frame = none) ∧ r.isOpen result = true

theorem settles_nil {r : Request} {result : Except TransportError (Option Frame)}
    (h : r.isOpen result = true) : r.Settles [] result := .inr ⟨nofun, h⟩

/-- Only an `ok` makes a request succeed that sends. -/
theorem decision_confirmed {r : Request} (send : r.isSend = true) {f : Frame}
    (h : r.decision f = some (.ok none)) : f.isToken Token.ok = true := by
  have verdict : f.verdict?.map ofVerdict = some (.ok none) := by
    cases r <;> first | exact h | cases send
  unfold Frame.verdict? at verdict
  split at verdict
  · assumption
  · split at verdict <;> cases verdict

/-- A frame that is returned is the one that decides. -/
theorem decision_found {r : Request} {f g : Frame} (h : r.decision f = some (.ok (some g))) :
    f = g := by
  cases r with
  | getMessage => cases h; rfl
  | getDataMessage =>
    obtain ⟨g, data, e⟩ := Option.map_eq_some_iff.mp h
    cases e
    unfold Frame.data? at data
    split at data
    · exact Option.some.inj data
    · cases data
  | waitReady =>
    obtain ⟨-, -, e⟩ := Option.map_eq_some_iff.mp h
    cases e
  | send | sendMessage =>
    obtain ⟨v, -, e⟩ := Option.map_eq_some_iff.mp h
    cases v <;> cases e

theorem isOpen_confirmed {r : Request} (send : r.isSend = true) : r.isOpen (.ok none) = false := by
  cases r <;> first | rfl | cases send

theorem isOpen_found (r : Request) (f : Frame) : r.isOpen (.ok (some f)) = false := by
  cases r <;> rfl

/-- What a wait comes to: what its verdict comes to, or a failure once the time is up. -/
def conclude (g : α → Except TransportError (Option Frame)) (late : TransportError) :
    Except TransportError (Option α) → Except TransportError (Option Frame)
  | .ok (some v) => g v
  | .ok none => .error late
  | .error e => .error e

/-- A request that comes to what a wait comes to is settled as the wait is. -/
theorem settles_of_awaitUntil {r : Request} {verdict : Frame → Option α}
    (finish : Except TransportError (Option α) → Except TransportError (Option Frame))
    (decision : ∀ f, r.decision f = (verdict f).map fun v => finish (.ok (some v)))
    (late : r.isOpen (finish (.ok none)) = true)
    (stopped : ∀ name, r.isOpen (finish (.error (.linkLost (.readerStopped name)))) = true)
    (deadline poll : Nat) (s : Session σ) :
    r.Settles (takenUntil deadline poll verdict s)
      (finish (awaitUntil deadline poll verdict s).1) := by
  have none : ∀ bs : List Arrival, (∀ b ∈ bs, verdict b.frame = none) →
      ∀ b ∈ bs, r.decision b.frame = none := by
    intro bs h b mem
    rw [decision, h b mem]
    rfl
  have decided := (awaitUntil_taken deadline poll verdict s).2
  cases awaited : awaitUntil deadline poll verdict s with
  | mk result s' =>
  rw [awaited] at decided
  match result, awaited, decided with
  | .ok (some v), _, ⟨front, a, e, others, is_last⟩ =>
    exact .inl ⟨front, a, e, none front others, by rw [decision, is_last]; rfl⟩
  | .ok .none, _, others => exact .inr ⟨none _ others, late⟩
  | .error e, awaited, others =>
    obtain ⟨name, rfl⟩ := error_of_awaitUntil awaited
    exact .inr ⟨none _ others, stopped name⟩

end Request

/-! ### Results -/

theorem waitReady_eq (s : Session σ) : s.waitReady =
    match awaitUntil (s.link.now + s.config.readyTimeout) s.config.readyPoll Frame.ready? s with
    | (.error e, s') => (.error e, s')
    | (.ok (some ()), s') => (.ok (), s')
    | (.ok none, s') => (.error (.readyTimeout s.config.readyTimeout), s') := by
  show (await s.config.readyTimeout s.config.readyPoll Frame.ready? >>= _) s = _
  rw [exchange_bind, await]
  rcases awaitUntil (s.link.now + s.config.readyTimeout) s.config.readyPoll Frame.ready? s with
    ⟨e | ⟨_ | _⟩, s'⟩ <;> rfl

variable [FarEnd σ]

/-- A call that returns no frame. -/
def silently (x : Exchange σ Unit) : Exchange σ (Option Frame) := fun s =>
  ((x s).1.map fun _ => none, (x s).2)

/-- The frames that a call takes that sends. -/
def takenBySend (payload : Bytes) (terminated : Bool) (timeout : Nat) (s : Session σ) :
    List Arrival :=
  match write (outgoing payload terminated) s with
  | (.ok (), s') => takenUntil (s'.link.now + timeout) s'.config.ackPoll Frame.verdict? s'
  | (.error _, _) => []

namespace Request

/-- What is done on a request. -/
def perform : Request → Exchange σ (Option Frame)
  | getMessage wait => Session.getMessage wait
  | getDataMessage wait => Session.getDataMessage wait
  | waitReady => silently Session.waitReady
  | send payload terminated timeout => silently (sendAndConfirm payload terminated timeout)
  | sendMessage m => silently (Session.sendMessage m)

/-- The frames that a request takes. -/
def taken (s : Session σ) : Request → List Arrival
  | getMessage wait => (s.look wait).toList
  | getDataMessage wait => takenUntil (s.link.now + wait) s.config.dataPoll Frame.data? s
  | waitReady =>
    takenUntil (s.link.now + s.config.readyTimeout) s.config.readyPoll Frame.ready? s
  | send payload terminated timeout => takenBySend payload terminated timeout s
  | sendMessage m =>
    match m.encode with
    | .ok bytes => takenBySend bytes false s.config.ackTimeout s
    | .error _ => []

end Request

namespace Request

variable {m : Message} (s : Session σ)

/-- A message that can be encoded is sent as its bytes are. -/
theorem sendMessage_of_ok {bytes : Bytes} (encoded : m.encode = .ok bytes) :
    perform (.sendMessage m) s = perform (.send bytes false s.config.ackTimeout) s ∧
      taken s (.sendMessage m) = taken s (.send bytes false s.config.ackTimeout) := by
  have sent : Session.sendMessage m s = sendAndConfirm bytes false s.config.ackTimeout s := by
    unfold Session.sendMessage
    rw [encoded]
    rfl
  unfold perform taken
  dsimp only [silently]
  rw [sent, encoded]
  exact ⟨rfl, rfl⟩

/-- One that cannot be encoded is not sent. -/
theorem sendMessage_of_error {e : WireError} (encoded : m.encode = .error e) :
    perform (.sendMessage m) s = (.error (.protocol e), s) ∧ taken s (.sendMessage m) = [] := by
  have sent : Session.sendMessage m s = (.error (.protocol e), s) := by
    unfold Session.sendMessage
    rw [encoded]
    rfl
  unfold perform taken
  dsimp only [silently]
  rw [sent, encoded]
  exact ⟨rfl, rfl⟩

end Request

/-- Between two states of a session that a call has written in between, and taken these frames. -/
def Passes (s : Session σ) (payload : Bytes) (taken : List Arrival) (s' : Session σ) : Prop :=
  s.link.reader.Course
      (s.link.readSince s.link.settle ++ (s.link.answered payload).readSince s'.link) taken
      s'.link.reader ∧
    s'.lastReceived = (taken.getLast?.map Arrival.time).or s.lastReceived

theorem write_eq (bytes : Bytes) (s : Session σ) : write bytes s =
    match (FarEnd.write s.link.far s.link.now bytes).1 with
    | .ok () => (.ok (), { s with link := (s.link.answered bytes).settle })
    | .error cause => (.error (.linkLost (.writeFailed s.name cause)),
        { s with link := (s.link.answered bytes).settle }) := by
  cases written : (FarEnd.write s.link.far s.link.now bytes).1 <;>
    simp only [write, Link.write_eq_settle, written]

/-- What a call takes that sends, and what of it decides. -/
theorem sendAndConfirm_taken (payload : Bytes) (terminated : Bool) (timeout : Nat)
    (s : Session σ) :
    s.Passes (outgoing payload terminated) (takenBySend payload terminated timeout s)
        (sendAndConfirm payload terminated timeout s).2 := by
  let written : Session σ :=
    { s with link := (s.link.answered (outgoing payload terminated)).settle }
  have before := s.link.takes_settle.course
  have passes : ∀ {taken s'}, written.Takes taken s' →
      s.Passes (outgoing payload terminated) taken s' := by
    intro taken s' takes
    have after := ((Link.takes_settle _).trans takes.link).course
    exact ⟨before.trans after, takes.lastReceived⟩
  rw [sendAndConfirm_eq, takenBySend, write_eq]
  cases (FarEnd.write s.link.far s.link.now (outgoing payload terminated)).1 with
  | error cause => exact passes (.refl _)
  | ok =>
    dsimp only
    rw [confirmed_snd]
    exact passes (awaitUntil_taken ..).1

/-- A write that fails is all that a call does. -/
theorem sendAndConfirm_of_error {payload : Bytes} {terminated : Bool} {s : Session σ}
    {cause : Fault} (h : (FarEnd.write s.link.far s.link.now (outgoing payload terminated)).1 =
      .error cause) (timeout : Nat) :
    (sendAndConfirm payload terminated timeout s).1 =
        .error (.linkLost (.writeFailed s.name cause)) ∧
      takenBySend payload terminated timeout s = [] := by
  rw [sendAndConfirm_eq, takenBySend, write_eq, h]
  exact ⟨rfl, rfl⟩

/-- A call that sends takes nothing after the frame that decides it. -/
theorem sendAndConfirm_settled {r : Request} (send : r.isSend = true) (payload : Bytes)
    (terminated : Bool) (timeout : Nat) (s : Session σ) :
    r.Settles (takenBySend payload terminated timeout s)
      (silently (sendAndConfirm payload terminated timeout) s).1 := by
  have decision : ∀ f, r.decision f = f.verdict?.map Request.ofVerdict := by
    cases r <;> first | exact fun _ => rfl | cases send
  have late : r.isOpen (.error (.ackTimeout timeout)) = true := by
    cases r <;> first | rfl | cases send
  have lost : ∀ cause, r.isOpen (.error (.linkLost cause)) = true := by
    cases r <;> exact fun _ => rfl
  have concluded : ∀ found, (confirmed timeout found).1.map (fun _ => none) =
      Request.conclude Request.ofVerdict (.ackTimeout timeout)
        (found : _ × Session σ).1 := by
    rintro ⟨_ | _ | _ | _, s'⟩ <;> rfl
  unfold silently
  rw [sendAndConfirm_eq, takenBySend, write_eq]
  cases (FarEnd.write s.link.far s.link.now (outgoing payload terminated)).1 with
  | error cause => exact Request.settles_nil (lost _)
  | ok =>
    dsimp only
    rw [concluded]
    exact Request.settles_of_awaitUntil _ decision late (fun _ => lost _) ..

/-- A request, and the session when it is made. -/
structure Query (σ : Type) where
  before : Session σ
  request : Request

namespace Query

variable (q : Query σ)

def result : Except TransportError (Option Frame) := (q.request.perform q.before).1

/-- The session when the request has been answered. -/
def after : Session σ := (q.request.perform q.before).2

/-- The frames that it takes. -/
def taken : List Arrival := q.request.taken q.before

/-- The readings that are taken in meanwhile. -/
def read : List (Nat × Reading) :=
  match q.request.payload? with
  | some payload => q.before.link.readSince q.before.link.settle ++
      (q.before.link.answered payload).readSince q.after.link
  | none => q.before.link.readSince q.after.link

/-- The frames that come meanwhile. -/
def arrived : List Arrival := Assembler.arrivals q.before.reader.standing q.read

/-- Frames are taken up to the first that decides, and none after it. -/
theorem settled : q.request.Settles q.taken q.result := by
  obtain ⟨s, r⟩ := q
  cases r with
  | getMessage wait =>
    show Request.Settles _ (s.look wait).toList (Session.getMessage wait s).1
    cases h : Session.getMessage wait s with
    | mk found s' =>
    match found, h with
    | .ok (some f), h =>
      obtain ⟨a, look, rfl⟩ := look_eq_some h
      exact .inl ⟨[], a, by rw [look]; rfl, nofun, rfl⟩
    | .ok none, h =>
      rw [look_eq_none h nofun]
      exact Request.settles_nil rfl
    | .error e, h =>
      obtain ⟨name, rfl⟩ := error_of_getMessage h
      rw [look_eq_none h nofun]
      exact Request.settles_nil rfl
  | getDataMessage wait =>
    exact Request.settles_of_awaitUntil (r := .getDataMessage wait) id (fun _ => rfl) rfl
      (fun _ => rfl) ..
  | waitReady =>
    have concluded : (silently Session.waitReady s).1 =
        Request.conclude (fun _ => .ok none) (.readyTimeout s.config.readyTimeout)
          (awaitUntil (s.link.now + s.config.readyTimeout) s.config.readyPoll
            Frame.ready? s).1 := by
      unfold silently
      rw [waitReady_eq]
      rcases awaitUntil (s.link.now + s.config.readyTimeout) s.config.readyPoll Frame.ready? s with
        ⟨_ | _ | _, s'⟩ <;> rfl
    show Request.Settles _ (takenUntil ..) (silently Session.waitReady s).1
    rw [concluded]
    exact Request.settles_of_awaitUntil (r := .waitReady) _ (fun _ => rfl) rfl (fun _ => rfl) ..
  | send payload terminated timeout =>
    exact sendAndConfirm_settled (r := .send payload terminated timeout) rfl ..
  | sendMessage m =>
    show Request.Settles _ (Request.taken s (.sendMessage m))
      (Request.perform (.sendMessage m) s).1
    cases encoded : m.encode with
    | error e =>
      obtain ⟨performed, taken⟩ := Request.sendMessage_of_error s encoded
      rw [performed, taken]
      exact Request.settles_nil rfl
    | ok bytes =>
      obtain ⟨performed, taken⟩ := Request.sendMessage_of_ok s encoded
      rw [performed, taken]
      exact sendAndConfirm_settled (r := .sendMessage m) rfl ..

/-- What a request takes in and takes out. -/
theorem course : q.before.reader.Course q.read q.taken q.after.reader ∧
    q.after.lastReceived = (q.taken.getLast?.map Arrival.time).or q.before.lastReceived := by
  obtain ⟨s, r⟩ := q
  -- A request that writes nothing takes in what is due before and while it waits.
  have waits : ∀ {r : Request}, r.payload? = none →
      s.Takes (r.taken s) (r.perform s).2 → s.reader.Course (read ⟨s, r⟩) (r.taken s)
        (r.perform s).2.reader ∧ (r.perform s).2.lastReceived =
          ((r.taken s).getLast?.map Arrival.time).or s.lastReceived := by
    intro r payload takes
    have e : read ⟨s, r⟩ = s.link.readSince (r.perform s).2.link := by
      unfold read
      rw [payload]
      rfl
    rw [e]
    exact ⟨takes.link.course, takes.lastReceived⟩
  cases r with
  | getMessage wait => exact waits rfl (s.takes_getMessage wait)
  | getDataMessage wait => exact waits rfl (awaitUntil_taken ..).1
  | waitReady =>
    refine waits rfl ?_
    show s.Takes _ s.waitReady.2
    rw [waitReady_snd]
    exact (awaitUntil_taken ..).1
  | send payload terminated timeout => exact sendAndConfirm_taken payload terminated timeout s
  | sendMessage m =>
    cases encoded : m.encode with
    | error e =>
      obtain ⟨performed, taken⟩ := Request.sendMessage_of_error s encoded
      refine waits (by rw [Request.payload?, encoded]; rfl) ?_
      rw [performed, taken]
      exact .refl s
    | ok bytes =>
      obtain ⟨performed, taken⟩ := Request.sendMessage_of_ok s encoded
      have e : read ⟨s, .sendMessage m⟩ = read ⟨s, .send bytes false s.config.ackTimeout⟩ := by
        have payload : (Request.sendMessage m).payload? = some bytes := by
          rw [Request.payload?, encoded]
          rfl
        unfold read after
        dsimp only
        rw [performed, payload]
        rfl
      unfold after Query.taken
      rw [e, performed, taken]
      exact sendAndConfirm_taken bytes false s.config.ackTimeout s

/-- A request whose write fails takes nothing. -/
theorem taken_of_write_error {payload : Bytes} {cause : Fault}
    (writes : q.request.payload? = some payload)
    (fails : (FarEnd.write q.before.link.far q.before.link.now payload).1 = .error cause) :
    q.taken = [] ∧ q.result = .error (.linkLost (.writeFailed q.before.name cause)) := by
  obtain ⟨s, r⟩ := q
  cases r with
  | send payload terminated timeout =>
    cases writes
    obtain ⟨result, taken⟩ := sendAndConfirm_of_error fails timeout
    refine ⟨taken, ?_⟩
    show (sendAndConfirm payload terminated timeout s).1.map _ = _
    rw [result]
    rfl
  | sendMessage m =>
    cases encoded : m.encode with
    | error e =>
      rw [Request.payload?, encoded] at writes
      cases writes
    | ok bytes =>
      rw [Request.payload?, encoded] at writes
      obtain rfl : bytes = payload := Option.some.inj writes
      obtain ⟨performed, taken⟩ := Request.sendMessage_of_ok s encoded
      have unsent : (FarEnd.write s.link.far s.link.now (outgoing bytes false)).1 = .error cause :=
        fails
      obtain ⟨result, none⟩ := sendAndConfirm_of_error unsent s.config.ackTimeout
      refine ⟨taken.trans none, ?_⟩
      show (Request.perform (.sendMessage m) s).1 = _
      rw [performed]
      show (sendAndConfirm bytes false s.config.ackTimeout s).1.map _ = _
      rw [result]
      rfl
  | _ => cases writes

/-- A message that cannot be encoded leaves the session as it is, and its link with it. -/
theorem after_of_encode_error {m : Message} {e : WireError}
    (is_message : q.request = .sendMessage m) (fails : m.encode = .error e) :
    q.taken = [] ∧ q.after = q.before ∧ q.result = .error (.protocol e) := by
  obtain ⟨s, r⟩ := q
  obtain rfl : r = .sendMessage m := is_message
  obtain ⟨performed, taken⟩ := Request.sendMessage_of_error s fails
  exact ⟨taken, congrArg Prod.snd performed, congrArg Prod.fst performed⟩

/-- A result that a frame decides is that of the first frame that decides. -/
theorem result_eq_iff {result : Except TransportError (Option Frame)}
    (closed : q.request.isOpen result = false) : q.result = result ↔
      ∃ front a, q.taken = front ++ [a] ∧ (∀ b ∈ front, q.request.decision b.frame = none) ∧
        q.request.decision a.frame = some result := by
  constructor
  · rintro rfl
    rcases q.settled with decided | ⟨-, is_open⟩
    · exact decided
    · rw [closed] at is_open
      cases is_open
  · rintro ⟨front, a, taken, -, decided⟩
    rcases q.settled with ⟨front', a', taken', -, decided'⟩ | ⟨undecided, -⟩
    · obtain ⟨-, same⟩ := List.append_inj' (taken.symm.trans taken') rfl
      obtain rfl := List.singleton_inj.mp same
      exact Option.some.inj (decided'.symm.trans decided)
    · have none := undecided a (by rw [taken]; exact List.mem_append_right _ (.head _))
      cases decided.symm.trans none

/-- A call that sends and succeeds has taken the `ok` that decided it, and nothing behind it. -/
theorem taken_of_confirmed (send : q.request.isSend = true) (confirmed : q.result = .ok none) :
    ∃ front ok, q.taken = front ++ [ok] ∧ ok.frame.isToken Token.ok = true := by
  rcases q.settled with ⟨front, ok, taken, -, decided⟩ | ⟨-, is_open⟩
  · rw [confirmed] at decided
    exact ⟨front, ok, taken, Request.decision_confirmed send decided⟩
  · rw [confirmed, Request.isOpen_confirmed send] at is_open
    cases is_open

/-- A frame that is returned is the last that was taken. -/
theorem taken_of_found {f : Frame} (found : q.result = .ok (some f)) :
    ∃ front a, q.taken = front ++ [a] ∧ a.frame = f := by
  rcases q.settled with ⟨front, a, taken, -, decided⟩ | ⟨-, is_open⟩
  · rw [found] at decided
    exact ⟨front, a, taken, Request.decision_found decided⟩
  · rw [found, Request.isOpen_found] at is_open
    cases is_open

end Query

end Session

end LightLink
