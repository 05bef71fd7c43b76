import LightLink.Proofs.Session.Kept
import LightLink.Session.StandIn

/-!
# What a session writes

A session writes to its far end where it sends, once for each call, and nowhere else. A wait changes
nothing at the far end.

* `WriteLog`: what a far end knows of the writes to it; `StandIn.writeLog`: what a stand-in knows;
* `WriteLog.of_getDataMessage`, `WriteLog.of_sendAndConfirm`: what is written by a request for data
  and by a call that sends.
-/

namespace LightLink

/-- A far end knows the writes to it that have succeeded, and sending does not change that. -/
structure WriteLog (σ : Type) [FarEnd σ] where
  written : σ → List Bytes
  write (far : σ) (now : Nat) (bytes : Bytes) : written (FarEnd.write far now bytes).2 =
    written far ++ if (FarEnd.write far now bytes).1.isOk then [bytes] else []
  send (far : σ) : written (FarEnd.send far).2 = written far

/-- A call failed because its write did. -/
def TransportError.isWriteFailed : TransportError → Bool
  | linkLost (.writeFailed ..) => true
  | _ => false

/-- A call did not even get as far as having written. -/
def Session.unwritten {α : Type} : Except TransportError α → Bool
  | .ok _ => false
  | .error e => e.isWriteFailed

theorem Session.unwritten_map {α β : Type} (f : α → β) (r : Except TransportError α) :
    unwritten (r.map f) = unwritten r := by
  cases r <;> rfl

/-! ## Stand-ins -/

namespace StandIn

theorem log_reply (m : StandIn) (payload : Bytes) : (m.reply payload).log = m.log := by
  unfold reply
  split <;> rfl

theorem written_write (m : StandIn) (now : Nat) (bytes : Bytes) :
    (FarEnd.write m now bytes).2.written =
      m.written ++ if (FarEnd.write m now bytes).1.isOk then [bytes] else [] := by
  have e : FarEnd.write m now bytes = if m.unplugged then (.error unpluggedFault, m)
    else (.ok (), reply { m with log := bytes :: m.log } bytes) := rfl
  rw [e]
  split
  · exact (List.append_nil _).symm
  · show (reply _ bytes).log.reverse = _
    rw [log_reply]
    exact List.reverse_cons

theorem written_send (m : StandIn) : (FarEnd.send m).2.written = m.written := by
  have e : FarEnd.send m = if m.unplugged || m.hung then ([(0, .failure)], m)
    else ([(0, .chunk m.unread), (0, .pause)], { m with unread := [] }) := rfl
  rw [e]
  split <;> rfl

/-- A stand-in's log. -/
def writeLog : WriteLog StandIn := ⟨written, written_write, written_send⟩

end StandIn

/-! ## Waiting -/

namespace Link

variable {σ : Type}

theorem far_take (l : Link σ) (wait : Nat) : (l.take wait).2.far = l.far := by
  show (l.await wait).far = l.far
  unfold await
  split <;> rfl

end Link

namespace Session

variable {σ α : Type} {s s' : Session σ}

theorem far_getMessage (wait : Nat) (s : Session σ) :
    (getMessage wait s).2.link.far = s.link.far := by
  rw [link_getMessage, Link.far_take]

/-- Nothing is written while waiting. -/
theorem far_awaitUntil (deadline poll : Nat) (verdict : Frame → Option α) (s : Session σ) :
    (awaitUntil deadline poll verdict s).2.link.far = s.link.far :=
  awaitUntil_keeps (P := fun s' => s'.link.far = s.link.far)
    (fun s' wait h => (s'.far_getMessage wait).trans h) deadline poll verdict rfl

end Session

/-! ## Calls -/

namespace WriteLog

variable {σ : Type} [FarEnd σ] (log : WriteLog σ)

/-- What a session has written. -/
def of (s : Session σ) : List Bytes := log.written s.link.far

theorem of_getDataMessage (wait : Nat) (s : Session σ) :
    log.of (s.getDataMessage wait).2 = log.of s := by
  unfold of
  rw [Session.getDataMessage_eq, Session.far_awaitUntil]

theorem of_write {s s' : Session σ} {bytes : Bytes} {result : Except TransportError Unit}
    (h : Session.write bytes s = (result, s')) :
    log.of s' = log.of s ++ if result.isOk then [bytes] else [] := by
  have far : log.of s' = log.written s.link.far ++
      if (s.link.write bytes).1.isOk then [bytes] else [] := by
    have link := Session.link_write bytes s
    rw [h] at link
    unfold of
    rw [link]
    exact (log.send _).trans (log.write s.link.far s.link.now bytes)
  rw [far]
  unfold Session.write at h
  generalize s.link.write bytes = outcome at h ⊢
  rcases outcome with ⟨e | _, link⟩ <;> cases h <;> rfl

/-- A call that sends writes its payload, unless just that fails. -/
theorem of_sendAndConfirm {payload : Bytes} {terminated : Bool} {timeout : Nat} {s s' : Session σ}
    {result : Except TransportError Unit}
    (h : Session.sendAndConfirm payload terminated timeout s = (result, s')) :
    log.of s' = log.of s ++
      if Session.unwritten result then [] else [Session.outgoing payload terminated] := by
  rw [Session.sendAndConfirm_eq] at h
  cases wrote : Session.write (Session.outgoing payload terminated) s with
  | mk outcome s₁ =>
  have written := log.of_write wrote
  rw [wrote] at h
  cases outcome with
  | error e =>
    cases h
    obtain ⟨name, cause, rfl⟩ := Session.error_of_write wrote
    exact written
  | ok =>
    dsimp only at h
    have waited : log.of s' = log.of s₁ := by
      have after : (Session.confirmed timeout _).2 = s' := congrArg Prod.snd h
      unfold of
      rw [← after, Session.confirmed_snd, Session.far_awaitUntil]
    have no_blame : Session.unwritten result = false := by
      generalize awaited : Session.awaitUntil (s₁.link.now + timeout) s₁.config.ackPoll
        Frame.verdict? s₁ = r at h
      rcases r with ⟨e | ⟨_ | _ | _⟩, s₂⟩
      · obtain ⟨name, rfl⟩ := Session.error_of_awaitUntil awaited
        cases h
        rfl
      all_goals cases h; rfl
    rw [waited, written, no_blame]
    rfl

end WriteLog

end LightLink
