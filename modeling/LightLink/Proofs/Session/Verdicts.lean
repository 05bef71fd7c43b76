import LightLink.Proofs.Session.Flow
import LightLink.Session.StandIn

/-!
# What decides a call

A verdict carries no number, and a call that sends does not look at what is waiting before it
writes. If a verdict is waiting that nobody has taken, one that came too late for an earlier call or
that nobody asked for, then it decides the call; otherwise one decides that comes after the write.

* `Call.decider?`: the frame that decides a call;
* `Call.waiting`, `Call.arrived`: the frames that wait when a call begins, and how many had come;
* `Call.decided`: what decides a call, `calls_decided`: the same for every call of a run;
* `not_calls_fresh`: a verdict that was there before can decide a call.
-/

namespace LightLink

/-- A verdict with the frame that it is. -/
def Frame.deciding? (f : Frame) : Option (Frame × Verdict) := f.verdict?.map (f, ·)

namespace Session

variable {σ α β : Type}

/-- What is made of a verdict makes no difference to the wait for it. -/
theorem awaitUntil_map (g : α → β) (deadline poll : Nat) (verdict : Frame → Option α)
    (s : Session σ) : awaitUntil deadline poll (fun f => (verdict f).map g) s =
      ((awaitUntil deadline poll verdict s).1.map (Option.map g),
        (awaitUntil deadline poll verdict s).2) := by
  fun_induction awaitUntil deadline poll verdict s with
  | case1 s late => rw [awaitUntil_eq, if_pos late]; rfl
  | case2 s within e s' look => rw [awaitUntil_eq, if_neg within, look]; rfl
  | case3 s within s' look ih => rw [awaitUntil_eq, if_neg within, look]; exact ih
  | case4 s within f s' look v decided =>
    rw [awaitUntil_eq, if_neg within, look]
    dsimp only
    rw [decided]
    rfl
  | case5 s within f s' look undecided ih =>
    rw [awaitUntil_eq, if_neg within, look]
    dsimp only
    rw [undecided]
    exact ih

/-- What a wait finds is what one of the frames decides. -/
theorem decided_of_awaitUntil {deadline poll : Nat} {verdict : Frame → Option α}
    {s s' : Session σ} {a : α}
    (h : awaitUntil deadline poll verdict s = (.ok (some a), s')) : ∃ f, verdict f = some a := by
  obtain ⟨_, _, _, f, -, -, decided⟩ :=
    look_of_awaitUntil (P := fun _ => True) (fun _ _ _ => trivial) trivial h
  exact ⟨f, decided⟩

variable [FarEnd σ]

namespace Call

variable (c : Call σ)

/-- The session once a call has written. -/
def written : Session σ := (write (outgoing c.payload c.terminated) c.before).2

/-- How many frames had come when a call began. -/
def arrived : Nat := c.before.link.settle.reader.received

/-- The frames that were waiting when a call began, but for those that had to make way for what came
at once. -/
def waiting : List Frame :=
  c.before.link.settle.reader.frames.drop
    (c.written.reader.gone - c.before.link.settle.reader.gone)

/-- The frame that decides a call once it has written. -/
def decider? : Option Frame :=
  match (awaitUntil (c.written.link.now + c.timeout) c.written.config.ackPoll Frame.deciding?
    c.written).1 with
  | .ok (some (f, _)) => some f
  | _ => none

variable {c} {v : Verdict}

/-- A call that returns a verdict has written, and has found that verdict. -/
theorem awaitUntil_of_verdict? (h : c.verdict? = some v) :
    awaitUntil (c.written.link.now + c.timeout) c.written.config.ackPoll Frame.verdict? c.written =
      (.ok (some v), c.after) := by
  have e := sendAndConfirm_eq c.payload c.terminated c.timeout c.before
  unfold verdict? result at h
  unfold after written
  rw [e] at h ⊢
  clear e
  cases wrote : write (outgoing c.payload c.terminated) c.before with
  | mk outcome s =>
  rw [wrote] at h
  cases outcome with
  | error e =>
    -- Neither a write nor a wait fails with an error that would pass for a verdict.
    obtain ⟨name, cause, rfl⟩ := error_of_write wrote
    cases h
  | ok =>
    dsimp only at h ⊢
    generalize awaited : awaitUntil (s.link.now + c.timeout) s.config.ackPoll Frame.verdict? s =
      r at h
    match r, h, awaited with
    | (.error e, s'), h, awaited =>
      obtain ⟨name, rfl⟩ := error_of_awaitUntil awaited
      cases h
    | (.ok (some .accepted), s'), h, _ => cases h; rfl
    | (.ok (some .rejected), s'), h, _ => cases h; rfl

/-- The frame that decides a call says what the call returns. -/
theorem exists_decider (h : c.verdict? = some v) :
    ∃ f, c.decider? = some f ∧ f.verdict? = some v ∧
      awaitUntil (c.written.link.now + c.timeout) c.written.config.ackPoll Frame.deciding?
        c.written = (.ok (some (f, v)), c.after) := by
  have found := awaitUntil_of_verdict? h
  have same : (fun f : Frame => f.deciding?.map Prod.snd) = Frame.verdict? := by
    funext f
    simp [Frame.deciding?, Function.comp_def]
  rw [← same, awaitUntil_map] at found
  unfold decider?
  generalize awaited : awaitUntil (c.written.link.now + c.timeout) c.written.config.ackPoll
    Frame.deciding? c.written = r at found ⊢
  obtain ⟨outcome, s'⟩ := r
  obtain ⟨found, after⟩ := Prod.mk.inj found
  match outcome, found, awaited with
  | .ok (some (f, w)), found, awaited =>
    obtain ⟨g, decided⟩ := decided_of_awaitUntil awaited
    obtain ⟨u, verdict, e⟩ := Option.map_eq_some_iff.mp decided
    cases e
    cases found
    exact ⟨_, rfl, verdict, by rw [← after]⟩

theorem upToDate_written : c.written.link.UpToDate := by
  unfold written
  rw [link_write]
  exact Link.upToDate_write ..

/-- Once a call has written, what is waiting comes first in the ring. -/
theorem ring_written (counted : c.before.link.settle.reader.Counted) : ∃ k new,
    c.written.reader.gone = c.before.link.settle.reader.gone + k ∧
    c.written.reader.ring.toList = c.before.link.settle.reader.ring.toList.drop k ++ new := by
  obtain ⟨out, new, flow⟩ := flows_write (outgoing c.payload c.terminated) c.before
  refine ⟨out.length, new.drop (out.length - c.before.link.settle.reader.ring.toList.length),
    flow.gone_eq counted, ?_⟩
  rw [← List.drop_append, flow.entries, List.drop_left]
  rfl

/-- A call that returns a verdict has had time to look. -/
theorem within_of_verdict? (h : c.verdict? = some v) :
    c.written.link.now < c.written.link.now + c.timeout := by
  refine Nat.lt_of_not_le fun late => ?_
  have found := awaitUntil_of_verdict? h
  rw [awaitUntil_eq, if_pos late] at found
  cases found

section Ring

variable (counted : c.written.reader.Counted) (h : c.verdict? = some v) {as rest : List Arrival}
  {a : Arrival}

include counted h

/-- If there is a verdict in the ring once a call has written, the first one decides it. -/
theorem decided_of_ring (ring : c.written.reader.ring.toList = as ++ a :: rest)
    (others : ∀ b ∈ as, b.frame.verdict? = none) (is_verdict : a.frame.verdict?.isSome = true) :
    c.decider? = some a.frame ∧ a.frame.verdict? = some v ∧
      c.after.reader.gone = c.written.reader.gone + as.length + 1 := by
  obtain ⟨f, decider, verdict, awaited⟩ := exists_decider h
  obtain ⟨w, verdict'⟩ := Option.isSome_iff_exists.mp is_verdict
  have undecided : ∀ b ∈ as, b.frame.deciding? = none := by
    intro b mem
    rw [Frame.deciding?, others b mem, Option.map_none]
  have decided : a.frame.deciding? = some (a.frame, w) := by
    rw [Frame.deciding?, verdict', Option.map_some]
  have taken := awaitUntil_ring c.written.config.ackPoll upToDate_written (within_of_verdict? h)
    ring undecided decided
  rw [awaited, Prod.mk.injEq, Except.ok.injEq, Option.some.injEq, Prod.mk.injEq] at taken
  obtain ⟨⟨rfl, rfl⟩, after⟩ := taken
  have ring' : c.written.reader.ring.toList = (as ++ [a]) ++ rest := by
    rw [ring, List.append_assoc, List.singleton_append]
  have gone := (flow_drain ring').1.gone_eq counted
  rw [← after, List.length_append, List.length_singleton, ← Nat.add_assoc] at gone
  exact ⟨decider, verdict, gone⟩

/-- A call is decided by a frame behind those that are no verdicts. -/
theorem gone_lt_of_ring (ring : c.written.reader.ring.toList = as ++ rest)
    (others : ∀ b ∈ as, b.frame.verdict? = none) :
    c.written.reader.gone + as.length < c.after.reader.gone := by
  have found := awaitUntil_of_verdict? h
  have drained := (flow_drain ring).1
  rw [awaitUntil_drain _ upToDate_written (within_of_verdict? h) ring others] at found
  have lt := gone_lt_awaitUntil (drained.counted counted) found
  rwa [drained.gone_eq counted] at lt

end Ring

/-- If a verdict is waiting, the first that is decides a call, otherwise one that comes later. -/
theorem decided (counted : c.before.reader.Counted) (h : c.verdict? = some v) :
    ∃ f n, c.decider? = some f ∧ f.verdict? = some v ∧ c.after.reader.gone = n + 1 ∧
      match c.waiting.find? (·.verdict?.isSome) with
      | some g => f = g ∧ n < c.arrived
      | none => c.arrived ≤ n := by
  have begun := c.before.link.flows_settle.counted counted
  have counted : c.written.reader.Counted :=
    (c.before.flows_write (outgoing c.payload c.terminated)).counted begun
  obtain ⟨k, new, gone, ring⟩ := ring_written begun
  have arrived : c.arrived = c.before.link.settle.reader.gone +
      c.before.link.settle.reader.ring.toList.length := (Nat.sub_add_cancel begun).symm
  have length := c.before.link.settle.reader.ring.toList.length_drop (i := k)
  have waiting : c.waiting =
      (c.before.link.settle.reader.ring.toList.drop k).map Arrival.frame := by
    unfold Call.waiting Reader.frames
    rw [gone, Nat.add_sub_cancel_left, List.map_drop]
  generalize c.before.link.settle.reader.ring.toList.drop k = there at *
  rw [waiting, List.find?_map]
  -- What came with the write stands behind `there`, so a verdict in `there` is met first.
  cases first : there.find? ((·.verdict?.isSome) ∘ Arrival.frame) with
  | some a =>
    obtain ⟨is_verdict, as, bs, rfl, others⟩ := List.find?_eq_some_iff_append.mp first
    rw [List.append_assoc, List.cons_append] at ring
    obtain ⟨decider, verdict, taken⟩ :=
      decided_of_ring counted h ring (by simpa using others) is_verdict
    rw [List.length_append, List.length_cons] at length
    refine ⟨a.frame, c.written.reader.gone + as.length, decider, verdict, taken, rfl, ?_⟩
    omega
  | none =>
    obtain ⟨f, decider, verdict, -⟩ := exists_decider h
    have others : ∀ b ∈ there, b.frame.verdict? = none := by
      simpa using List.find?_eq_none.mp first
    have lt := gone_lt_of_ring counted h ring others
    refine ⟨f, c.after.reader.gone - 1, decider, verdict, by omega, ?_⟩
    show c.arrived ≤ _
    omega

end Call

/-- Whatever is done with a session and whatever comes meanwhile, a call that returns a verdict is
decided by the first verdict that was waiting when it began or, if none was, by one that came after
the call had written. -/
theorem calls_decided (name : String) (config : SessionConfig) (far : σ)
    (events : List (Event σ)) :
    ∀ c ∈ (attach name config far).calls events, ∀ v, c.verdict? = some v →
      ∃ f n, c.decider? = some f ∧ f.verdict? = some v ∧ c.after.reader.gone = n + 1 ∧
        match c.waiting.find? (·.verdict?.isSome) with
        | some g => f = g ∧ n < c.arrived
        | none => c.arrived ≤ n := by
  intro c mem v h
  have counted : c.before.reader.Counted :=
    before_of_mem_calls (fun s e counted => (s.flows_event e).counted counted)
      (counted_attach name config far) c mem
  exact Call.decided counted h

/-! ### A verdict that comes too late -/

/-- A module says `ok` only once the call that it answers has given up; another call follows. -/
def tooLate : List (Event StandIn) :=
  [.act fun m => { m with answer := .silent }, .send [0x78] false (millis 60),
    .act (·.sendLine Token.ok), .send [0x79] false (millis 60)]

/-- The call that follows, to which the module says nothing. -/
def unanswered : Call StandIn where
  before := (tooLate.take 3).foldl Event.next (attach "" {} {})
  payload := [0x79]
  terminated := false
  timeout := millis 60

theorem unanswered_mem_calls : unanswered ∈ (attach "" {} ({} : StandIn)).calls tooLate :=
  .tail _ (.head _)

/-- The call that follows returns `ok`. -/
theorem verdict?_unanswered : unanswered.verdict? = some .accepted := by decide +kernel

/-- The `ok` that was waiting is the one that decides the call that follows. -/
theorem calls_decided_tooLate : unanswered ∈ (attach "" {} ({} : StandIn)).calls tooLate ∧
    unanswered.verdict? = some .accepted ∧ unanswered.decider? = unanswered.waiting.head? := by
  refine ⟨unanswered_mem_calls, verdict?_unanswered, ?_⟩
  obtain ⟨f, n, decider, -, -, first⟩ :=
    calls_decided "" {} ({} : StandIn) tooLate unanswered unanswered_mem_calls _
      verdict?_unanswered
  have waiting : unanswered.waiting = [⟨[0x6F, 0x6B], false⟩] := by decide +kernel
  rw [waiting] at first ⊢
  rw [decider]
  exact congrArg some first.1

/-- A verdict that came before a call can decide it. -/
theorem not_calls_fresh : ¬ ∀ (name : String) (config : SessionConfig)
    (events : List (Event StandIn)), ∀ c ∈ (attach name config ({} : StandIn)).calls events,
      ∀ v, c.verdict? = some v → c.arrived < c.after.reader.gone := by
  intro all
  have fresh := all "" {} tooLate unanswered unanswered_mem_calls _ verdict?_unanswered
  have arrived : unanswered.arrived = 1 := by decide +kernel
  have gone : unanswered.after.reader.gone = 1 := by decide +kernel
  rw [arrived, gone] at fresh
  exact Nat.lt_irrefl _ fresh

end Session

end LightLink
