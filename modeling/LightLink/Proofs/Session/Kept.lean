import LightLink.Proofs.Session.Calls

/-!
# What a session keeps

The reader of a session changes where it reads and where a frame is taken from it, and nowhere else.
So what reading and taking keep is kept by whatever is done with the session.

* `Session.awaitUntil_keeps`, `Session.look_of_awaitUntil`: what looks for a frame keep and find;
* `Reader.Kept`: what reading and taking keep;
* `Reader.Kept.takeIn` up to `Reader.Kept.event`: what keeps it, from a reader to a session;
* `Session.after_keeps`: what every event keeps holds after any events.
-/

namespace LightLink

/-- Reading and taking keep what holds of a reader. -/
structure Reader.Kept (P : Reader → Prop) : Prop where
  read {r : Reader} : P r → ∀ time x, P (r.read time x)
  take {r : Reader} : P r → P r.take.2

namespace Session

variable {σ α : Type} {P : Session σ → Prop} {s s' : Session σ}

theorem getMessage_keeps (look : ∀ s wait, P s → P (getMessage wait s).2) {wait : Nat}
    {found : Except TransportError (Option Frame)} (h : getMessage wait s = (found, s'))
    (holds : P s) : P s' := by
  have kept := look s wait holds
  rwa [h] at kept

/-- What every look for a frame keeps is kept by a wait. -/
theorem awaitUntil_keeps (look : ∀ s wait, P s → P (getMessage wait s).2) (deadline poll : Nat)
    (verdict : Frame → Option α) (holds : P s) : P (awaitUntil deadline poll verdict s).2 := by
  fun_induction awaitUntil deadline poll verdict s with
  | case1 s late => exact holds
  | case2 s within e s' looked => exact getMessage_keeps look looked holds
  | case3 s within s' looked ih => exact ih (getMessage_keeps look looked holds)
  | case4 s within f s' looked v decided => exact getMessage_keeps look looked holds
  | case5 s within f s' looked undecided ih => exact ih (getMessage_keeps look looked holds)

/-- What decides a wait is a frame that one of its looks has found. -/
theorem look_of_awaitUntil (look : ∀ s wait, P s → P (getMessage wait s).2) {deadline poll : Nat}
    {verdict : Frame → Option α} {v : α} (holds : P s)
    (h : awaitUntil deadline poll verdict s = (.ok (some v), s')) :
    ∃ t t' wait f, P t ∧ getMessage wait t = (.ok (some f), t') ∧ verdict f = some v := by
  fun_induction awaitUntil deadline poll verdict s with
  | case1 s late => cases h
  | case2 s within e s₁ looked => cases h
  | case3 s within s₁ looked ih => exact ih (getMessage_keeps look looked holds) h
  | case4 s within f s₁ looked v decided =>
    cases h
    exact ⟨s, _, _, f, holds, looked, decided⟩
  | case5 s within f s₁ looked undecided ih => exact ih (getMessage_keeps look looked holds) h

/-- What every event keeps holds after any events. -/
theorem after_keeps [FarEnd σ] (step : ∀ s e, P s → P (Event.next s e)) (holds : P s)
    (events : List (Event σ)) : P (s.after events) := by
  induction events generalizing s with
  | nil => exact holds
  | cons e events ih => exact ih (step s e holds)

end Session

namespace Reader.Kept

variable {P : Reader → Prop} (kept : Kept P) {σ : Type}

include kept

/-! ## Links -/

theorem takeIn {r : Reader} (h : P r) (now : Nat) (coming : List (Nat × Reading)) :
    P (Link.takeIn now r coming).1 := by
  induction coming generalizing r with
  | nil => exact h
  | cons c coming ih =>
    rw [Link.takeIn]
    split
    · exact ih (kept.read h c.1 c.2)
    · exact h

variable {l : Link σ} (h : P l.reader)

include h

theorem settle : P l.settle.reader := kept.takeIn h l.now l.coming

theorem await (wait : Nat) : P (l.await wait).reader := by
  unfold Link.await
  split
  · exact kept.settle (l := { l.settle with now := l.settle.wakeTime (l.now + wait) })
      (kept.settle h)
  · exact kept.settle h

theorem takeFrom (wait : Nat) : P (l.take wait).2.reader := kept.take (kept.await h wait)

variable [FarEnd σ]

theorem exchange : P l.exchange.reader := kept.takeIn h ..

theorem write (bytes : Bytes) : P (l.write bytes).2.reader := kept.takeIn (kept.settle h) ..

end Reader.Kept

/-! ## Sessions -/

namespace Reader.Kept

variable {P : Reader → Prop} (kept : Kept P) {σ α : Type} {s : Session σ} (h : P s.link.reader)

include kept h

theorem getMessage (wait : Nat) : P (s.getMessage wait).2.link.reader := by
  rw [Session.link_getMessage]
  exact kept.takeFrom h _

theorem awaitUntil (deadline poll : Nat) (verdict : Frame → Option α) :
    P (Session.awaitUntil deadline poll verdict s).2.link.reader :=
  Session.awaitUntil_keeps (P := fun s => P s.link.reader)
    (fun _ wait h => kept.getMessage h wait) deadline poll verdict h

variable [FarEnd σ]

theorem sendAndConfirm (payload : Bytes) (terminated : Bool) (timeout : Nat) :
    P (Session.sendAndConfirm payload terminated timeout s).2.link.reader := by
  have written : P (Session.write (Session.outgoing payload terminated) s).2.link.reader := by
    rw [Session.link_write]
    exact kept.write h _
  rw [Session.sendAndConfirm_eq]
  generalize Session.write (Session.outgoing payload terminated) s = result at written ⊢
  rcases result with ⟨e | _, s'⟩
  · exact written
  · dsimp only
    rw [Session.confirmed_snd]
    exact kept.awaitUntil written ..

theorem event (e : Session.Event σ) : P (e.next s).link.reader := by
  cases e with
  | send payload terminated timeout => exact kept.sendAndConfirm h payload terminated timeout
  | getMessage wait => exact kept.getMessage h wait
  | getDataMessage wait =>
    rw [Session.Event.next, Session.getDataMessage_eq]
    exact kept.awaitUntil h ..
  | waitReady =>
    rw [Session.Event.next, Session.waitReady_snd]
    exact kept.awaitUntil h ..
  | pass time => exact kept.settle (l := { s.link with now := s.link.now + time }) h
  | act f => exact kept.exchange (l := { s.link with far := f s.link.far }) h

omit h in
/-- What a reader that has just started has, it has whatever is done with its session. -/
theorem after (name : String) (config : SessionConfig) (far : σ)
    (h : P (.start config.capacity)) (events : List (Session.Event σ)) :
    P ((Session.attach name config far).after events).link.reader :=
  Session.after_keeps (P := fun s => P s.link.reader) (fun _ e h => kept.event h e)
    (kept.exchange (l := ⟨0, .start config.capacity, [], far⟩) h) events

end Reader.Kept

end LightLink
