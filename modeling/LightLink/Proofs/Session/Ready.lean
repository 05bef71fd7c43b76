import LightLink.Proofs.Session.Calls
import LightLink.Proofs.Session.Responder

/-!
# A session with a module that answers in turn

Verdicts carry no number. That a session takes the right one rests on what is left on the link: once
a write has been answered `ok`, only the messages behind that answer can come before the next.

* `Session.Steady`: a session that misses nothing of what comes;
* `Session.Ready`: a session whose writes have all been answered `ok`, and the messages of the last
  answer that nobody has taken;
* `Session.sendAndConfirm_ok`, `Session.sendAndConfirm_not_ok`: a write is confirmed if and only if
  it is answered `ok`, and then the session is ready again;
* `Session.getDataMessage_ready`: a request for data takes the first message that is left, if any;
* `Session.Serving`: a ready session with all that has been written on it, and what each of these
  does to it.
-/

namespace LightLink

/-! ## Verdicts -/

theorem Frame.eq_of_isToken {f : Frame} {a b : String} (ha : f.isToken a = true)
    (hb : f.isToken b = true) : a = b := by
  rw [isToken, Bool.and_eq_true] at ha hb
  obtain ⟨-, ha⟩ := ha
  obtain ⟨-, hb⟩ := hb
  unfold Token.isLine at ha hb
  cases text : Utf8.decode? f.data with
  | none => rw [text] at ha; cases ha
  | some cs =>
    rw [text] at ha hb
    simp only [Option.any_some, beq_iff_eq] at ha hb
    exact String.toList_inj.mp (ha.symm.trans hb)

theorem Frame.verdict?_ok {f : Frame} (h : f.isToken Token.ok = true) :
    f.verdict? = some .accepted := if_pos h

theorem Frame.verdict?_fail {f : Frame} (h : f.isToken Token.fail = true) :
    f.verdict? = some .rejected := by
  rw [verdict?, if_neg, if_pos h]
  intro h'
  exact absurd (Frame.eq_of_isToken h h') (by decide)

@[simp] theorem Packet.verdict?_frame (p : Packet) : p.frame.verdict? = none := rfl

@[simp] theorem Packet.data?_frame (p : Packet) : p.frame.data? = some p.frame := rfl

theorem verdict?_of_mem_packets {packets : List Packet} {f : Frame}
    (h : f ∈ packets.map Packet.frame) : f.verdict? = none := by
  obtain ⟨p, -, rfl⟩ := List.mem_map.mp h
  exact p.verdict?_frame

/-- The first entry of a list that decides is found in one way. -/
theorem append_cons_inj_of_decides {α β : Type} {p : α → Option β}
    {front front' rest rest' : List α} {a a' : α}
    (h : front ++ a :: rest = front' ++ a' :: rest') (others : ∀ x ∈ front, p x = none)
    (others' : ∀ x ∈ front', p x = none) (decided : p a ≠ none) (decided' : p a' ≠ none) :
    front = front' ∧ a = a' ∧ rest = rest' := by
  induction front generalizing front' with
  | nil =>
    cases front' with
    | nil => exact ⟨rfl, List.cons.inj h⟩
    | cons x front' => exact absurd (others' _ (.head _)) ((List.cons.inj h).1 ▸ decided)
  | cons x front ih =>
    cases front' with
    | nil => exact absurd (others _ (.head _)) ((List.cons.inj h).1 ▸ decided')
    | cons y front' =>
      obtain ⟨rfl, tail⟩ := List.cons.inj h
      obtain ⟨rfl, rest⟩ := ih tail (fun z mem => others z (.tail _ mem))
        (fun z mem => others' z (.tail _ mem))
      exact ⟨rfl, rest⟩

/-- The module once it has been written to and has sent its answer. -/
def Responder.after (m : Responder) (now : Nat) (bytes : Bytes) : Responder where
  reactions := m.reactions
  written := m.written ++ [bytes]
  busyUntil := max now m.busyUntil + span (m.reactions m.written.length).readings

namespace Session

/-! ## Readiness -/

/-- A session that misses nothing of what is on its link, whose module has sent all that it has to
send so far. -/
structure Steady (s : Session Responder) : Prop where
  fit : s.link.Fit
  settled : s.link.Settled
  idle : s.link.rest = .idle
  quiet : s.link.far.outgoing = []
  coming : ∀ c ∈ s.link.coming, c.1 ≤ s.link.far.busyUntil

/-- All that has been written has been answered `ok`, and these messages are left of what the module
has sent. -/
structure Ready (s : Session Responder) (left : List Packet) : Prop extends Steady s where
  soon : s.link.far.busyUntil ≤ s.link.now +
    Responder.trailingBefore s.link.far.reactions s.link.far.written.length
  pending : s.link.pending = left.map Packet.frame

variable {s s' : Session Responder} {left : List Packet}

theorem Steady.gives {taken : List Frame} (steady : Steady s) (gives : s.Gives taken s') :
    Steady s' := by
  have far := gives.link.far
  refine ⟨gives.link.fit, gives.link.settled, gives.link.rest.trans steady.idle, ?_, ?_⟩
  · rw [far]
    exact steady.quiet
  · intro c mem
    rw [far]
    exact steady.coming c (gives.link.coming c mem)

/-- A wait that takes the first messages leaves the others. -/
theorem Ready.gives {taken : List Packet} (ready : Ready s (taken ++ left))
    (gives : s.Gives (taken.map Packet.frame) s') : Ready s' left := by
  refine ⟨ready.toSteady.gives gives, ?_, ?_⟩
  · rw [gives.link.far]
    exact Nat.le_trans ready.soon (Nat.add_le_add_right gives.link.now_le _)
  · have e := gives.link.pending
    rw [ready.pending, List.map_append] at e
    exact (List.append_cancel_left e).symm

/-- Time passes. -/
theorem Ready.pass (ready : Ready s left) (time : Nat) :
    Ready { s with link := s.link.pass time } left :=
  Ready.gives (show Ready s ([] ++ left) from ready)
    ⟨Link.gives_pass ready.fit ready.settled time, rfl⟩

/-! ## Writes -/

/-- A write lets the answer to it come behind all that comes. -/
theorem write_responder {l : Link Responder} (quiet : l.far.outgoing = [])
    (coming : ∀ c ∈ l.coming, c.1 ≤ l.far.busyUntil) (fit : l.Fit) (bytes : Bytes) :
    l.write bytes = (.ok (), Link.settle
      { l.settle.extend (schedule (max l.now l.far.busyUntil)
          (l.far.reactions l.far.written.length).readings) with
        far := l.far.after l.now bytes }) := by
  generalize hs : max l.now l.far.busyUntil = start
  generalize hr : (l.far.reactions l.far.written.length).readings = readings
  have gives := Link.gives_settle fit
  have sent : (l.far.outgoing ++ schedule (start - l.now) readings).map
      (fun s => (l.now + s.1, s.2)) = schedule start readings := by
    rw [quiet, List.nil_append, schedule_map_add, ← hs, Nat.add_sub_cancel' (Nat.le_max_left ..)]
  have merged : Link.byTime l.settle.coming (schedule start readings) =
      l.settle.coming ++ schedule start readings := by
    rw [Link.byTime_eq_merge]
    refine List.merge_of_le fun c d mem mem' => ?_
    have le := coming c (gives.coming c mem)
    have le' := (mem_schedule mem').1
    rw [decide_eq_true_eq]
    omega
  unfold Link.extend
  rw [← merged, ← sent, ← hs, ← hr]
  rfl

/-- What a ready session has before it once it has written: the messages that are left and the
answer, which is not there before it comes. -/
structure Asked (s : Session Responder) (left : List Packet) (reaction : Reaction)
    (start : Nat) : Prop extends Steady s where
  busyUntil : s.link.far.busyUntil = start + span reaction.readings
  pending : s.link.pending =
    left.map Packet.frame ++ reaction.segments.flatMap Segment.frames
  le_of_length_lt : ∀ t, left.length < (s.link.availableBy t).length →
    start + reaction.delay ≤ max s.link.now t
  there_of_le : ∀ f fs t, reaction.segments.flatMap Segment.frames = f :: fs →
    start + reaction.delay ≤ t → left.map Packet.frame ++ [f] <+: s.link.availableBy t

theorem Ready.write (ready : Ready s left)
    (room : left.length + (s.link.far.reactions s.link.far.written.length).size ≤
      s.link.reader.ring.capacity) (bytes : Bytes) :
    ∃ s', Session.write bytes s = (.ok (), s') ∧
      Asked s' left (s.link.far.reactions s.link.far.written.length)
        (max s.link.now s.link.far.busyUntil) ∧
      s'.link.far = s.link.far.after s.link.now bytes ∧ s'.link.now = s.link.now ∧
      s'.link.reader.ring.capacity = s.link.reader.ring.capacity ∧ s'.config = s.config := by
  have e := write_responder ready.quiet ready.coming ready.fit bytes
  generalize hr : s.link.far.reactions s.link.far.written.length = reaction at *
  generalize hs : max s.link.now s.link.far.busyUntil = start at *
  generalize hf : s.link.far.after s.link.now bytes = far at *
  have busy : far.busyUntil = start + span reaction.readings := by
    rw [← hf, ← hs, ← hr]
    rfl
  have before := Link.gives_settle ready.fit
  have idle : s.link.settle.rest = .idle := before.rest.trans ready.idle
  have pending : s.link.settle.pending = left.map Packet.frame :=
    before.pending.symm.trans ready.pending
  have early : ∀ c ∈ s.link.settle.coming, c.1 ≤ start := by
    intro c mem
    have le := ready.coming c (before.coming c mem)
    omega
  have frames : (Assembler.idle.readAll (schedule start reaction.readings)).2 =
      reaction.segments.flatMap Segment.frames := by
    rw [reaction.readAll_schedule]
  have fit : (s.link.settle.extend (schedule start reaction.readings)).Fit := by
    refine Link.fit_extend idle before.fit (reaction.sound_schedule start) ?_
    rw [pending, frames, List.length_append, List.length_map, before.capacity]
    exact room
  have fit' : Link.Fit { s.link.settle.extend (schedule start reaction.readings) with far } :=
    ⟨fit.running, fit.sound, fit.room⟩
  have after := Link.gives_settle fit'
  have available : ∀ t,
      (s.link.settle.extend (schedule start reaction.readings)).availableBy (max s.link.now t) =
        Link.availableBy (Link.settle
          { s.link.settle.extend (schedule start reaction.readings) with far }) t :=
    after.availableBy
  refine ⟨⟨s.name, s.config, Link.settle
    { s.link.settle.extend (schedule start reaction.readings) with far }, s.lastReceived⟩, ?_, ?_,
    after.far, rfl, after.capacity.trans before.capacity, rfl⟩
  · unfold Session.write
    rw [e]
  · refine ⟨⟨after.fit, after.settled, ?_, ?_, ?_⟩, ?_, ?_, ?_, ?_⟩
    · refine after.rest.trans ((Link.rest_extend idle).trans ?_)
      rw [reaction.readAll_schedule]
    · rw [after.far, ← hf]
      rfl
    · intro c mem
      rw [after.far]
      show c.1 ≤ far.busyUntil
      rw [busy]
      rcases List.mem_append.mp (after.coming c mem) with mem | mem
      · exact Nat.le_trans (early c mem) (Nat.le_add_right ..)
      · exact (mem_schedule mem).2.1
    · rw [after.far]
      exact busy
    · refine after.pending.symm.trans ((Link.pending_extend idle).trans ?_)
      rw [pending, frames]
    · intro t more
      rw [← available t] at more
      refine reaction.le_of_length_lt idle early ?_
      rw [pending, List.length_map]
      exact more
    · intro f fs t first le
      rw [← available t, ← pending]
      refine reaction.there_of_le idle early first ?_
      omega

/-- A wait for the verdict on a write takes the messages that are left and the `ok`. -/
theorem Asked.awaitUntil_ok {reaction : Reaction} {start : Nat}
    (asked : Asked s left reaction start) (ok : reaction.answer = .ok) {deadline : Nat}
    (prompt : start + reaction.delay < deadline) (within : s.link.now < deadline) (poll : Nat) :
    ∃ s', awaitUntil deadline poll Frame.verdict? s = (.ok (some .accepted), s') ∧
      (∃ f, s.Gives (left.map Packet.frame ++ [f]) s') ∧
      s'.link.pending = reaction.packets.map Packet.frame ∧
      start + reaction.delay ≤ s'.link.now := by
  have answer := reaction.frames
  rw [ok] at answer
  obtain ⟨f, is_ok, frames⟩ := answer
  have accepted := Frame.verdict?_ok is_ok
  obtain ⟨taken, gives, decides⟩ :=
    awaitUntil_gives asked.fit asked.settled deadline poll Frame.verdict?
  generalize awaitUntil deadline poll Frame.verdict? s = result at *
  obtain ⟨found, s'⟩ := result
  have pending := gives.link.pending
  rw [asked.pending, frames] at pending
  match found, decides with
  | .ok none, ⟨undecided, all⟩ =>
    have there := (asked.there_of_le f _ _ frames (Nat.le_refl _)).trans (all within _ prompt)
    have undecided := undecided f (there.subset (List.mem_append_right _ (.head _)))
    rw [accepted] at undecided
    cases undecided
  | .ok (some v), ⟨front, g, taken_eq, others, decided⟩ =>
    rw [taken_eq, List.append_assoc, List.singleton_append] at pending
    obtain ⟨rfl, rfl, rest⟩ := append_cons_inj_of_decides pending
      (fun x mem => verdict?_of_mem_packets mem) others (by rw [accepted]; nofun)
      (by rw [decided]; nofun)
    rw [accepted, Option.some.injEq] at decided
    subst decided taken_eq
    refine ⟨s', rfl, ⟨f, gives⟩, rest.symm, ?_⟩
    have more := gives.link.prefix_availableBy.length_le
    rw [List.length_append, List.length_map, List.length_singleton] at more
    have le := asked.le_of_length_lt _ more
    rwa [Nat.max_eq_right gives.link.now_le] at le

/-- A wait for the verdict on a write that is not answered `ok` does not end with one. -/
theorem Asked.awaitUntil_ne_accepted {reaction : Reaction} {start : Nat}
    (asked : Asked s left reaction start) (not_ok : reaction.answer ≠ .ok) (deadline poll : Nat) :
    (awaitUntil deadline poll Frame.verdict? s).1 ≠ .ok (some .accepted) := by
  intro h
  obtain ⟨taken, gives, decides⟩ :=
    awaitUntil_gives asked.fit asked.settled deadline poll Frame.verdict?
  rw [h] at decides
  obtain ⟨front, g, rfl, -, accepted⟩ := decides
  have mem : g ∈ s.link.pending := by
    rw [gives.link.pending]
    exact List.mem_append_left _ (List.mem_append_right _ (.head _))
  rw [asked.pending, List.mem_append] at mem
  rcases mem with mem | mem
  · rw [verdict?_of_mem_packets mem] at accepted
    cases accepted
  · have answer := reaction.frames
    cases kind : reaction.answer with
    | ok => exact not_ok kind
    | fail =>
      rw [kind] at answer
      obtain ⟨-, f, is_fail, frames⟩ := answer
      rw [frames, List.mem_singleton] at mem
      rw [mem, Frame.verdict?_fail is_fail] at accepted
      cases accepted
    | silent =>
      rw [kind] at answer
      rw [answer.2] at mem
      cases mem

/-- A write that is answered `ok` in time is confirmed, and then only the messages behind that
answer are left. -/
theorem sendAndConfirm_ok (ready : Ready s left)
    (room : left.length + (s.link.far.reactions s.link.far.written.length).size ≤
      s.link.reader.ring.capacity)
    (ok : (s.link.far.reactions s.link.far.written.length).answer = .ok) {timeout : Nat}
    (prompt : Responder.trailingBefore s.link.far.reactions s.link.far.written.length +
      (s.link.far.reactions s.link.far.written.length).delay < timeout) (bytes : Bytes) :
    ∃ s', sendAndConfirm bytes false timeout s = (.ok (), s') ∧
      Ready s' (s.link.far.reactions s.link.far.written.length).packets ∧
      s'.link.far = s.link.far.after s.link.now bytes ∧
      s.link.now ≤ s'.link.now ∧ s'.link.now ≤ s.link.now + timeout ∧
      s'.link.reader.ring.capacity = s.link.reader.ring.capacity := by
  have soon := ready.soon
  obtain ⟨s₁, written, asked, far, now, capacity, config⟩ := ready.write room bytes
  rw [sendAndConfirm_of_write (show write (outgoing bytes false) s = _ from written)]
  obtain ⟨s₂, e, ⟨f, gives⟩, pending, late⟩ := asked.awaitUntil_ok ok
    (show _ < s₁.link.now + timeout by rw [now]; omega) (by omega) s₁.config.ackPoll
  have le := now_awaitUntil_le (s₁.link.now + timeout) s₁.config.ackPoll Frame.verdict? s₁
  have le' := gives.link.now_le
  rw [e] at le ⊢
  dsimp only at le
  refine ⟨s₂, rfl, ⟨asked.toSteady.gives gives, ?_, pending⟩, gives.link.far.trans far, by omega,
    by omega, gives.link.capacity.trans capacity⟩
  rw [gives.link.far, asked.busyUntil, far]
  show _ ≤ _ + Responder.trailingBefore s.link.far.reactions
    (s.link.far.written ++ [bytes]).length
  rw [List.length_append, List.length_singleton, Responder.trailingBefore,
    ← Reaction.delay_add_trailing]
  omega

/-- A write that is not answered `ok` is not confirmed. -/
theorem sendAndConfirm_not_ok (ready : Ready s left)
    (room : left.length + (s.link.far.reactions s.link.far.written.length).size ≤
      s.link.reader.ring.capacity)
    (not_ok : (s.link.far.reactions s.link.far.written.length).answer ≠ .ok) (timeout : Nat)
    (bytes : Bytes) : ∃ e s', sendAndConfirm bytes false timeout s = (.error e, s') ∧
      s'.link.far = s.link.far.after s.link.now bytes := by
  obtain ⟨s₁, written, asked, far, -, -, -⟩ := ready.write room bytes
  rw [sendAndConfirm_of_write (show write (outgoing bytes false) s = _ from written)]
  have ne := asked.awaitUntil_ne_accepted not_ok (s₁.link.now + timeout) s₁.config.ackPoll
  obtain ⟨taken, gives, -⟩ := awaitUntil_gives asked.fit asked.settled (s₁.link.now + timeout)
    s₁.config.ackPoll Frame.verdict?
  generalize awaitUntil (s₁.link.now + timeout) s₁.config.ackPoll Frame.verdict? s₁ = result at *
  have far := gives.link.far.trans far
  rcases result with ⟨e | ⟨_ | (_ | _)⟩, s₂⟩
  case ok.some.accepted => exact absurd rfl ne
  all_goals exact ⟨_, s₂, rfl, far⟩

/-! ## Data -/

/-- Of what is left a request for data takes the first message or none. -/
theorem getDataMessage_ready (ready : Ready s left) (wait : Nat) :
    ∃ s', s'.link.far = s.link.far ∧
      s'.link.reader.ring.capacity = s.link.reader.ring.capacity ∧
      (getDataMessage wait s = (.ok none, s') ∧ Ready s' left ∨
        ∃ p ps, left = p :: ps ∧ getDataMessage wait s = (.ok (some p.frame), s') ∧
          Ready s' ps) := by
  rw [getDataMessage_eq]
  obtain ⟨taken, gives, decides⟩ :=
    awaitUntil_gives ready.fit ready.settled (s.link.now + wait) s.config.dataPoll Frame.data?
  generalize awaitUntil (s.link.now + wait) s.config.dataPoll Frame.data? s = result at *
  obtain ⟨found, s'⟩ := result
  have pending := gives.link.pending
  rw [ready.pending] at pending
  -- Every frame that is left is a message, so the first that is taken decides.
  have binary : ∀ f ∈ taken, f.data? ≠ none := by
    intro f mem
    have mem : f ∈ left.map Packet.frame := pending ▸ List.mem_append_left _ mem
    obtain ⟨p, -, rfl⟩ := List.mem_map.mp mem
    rw [Packet.data?_frame]
    nofun
  refine ⟨s', gives.link.far, gives.link.capacity, ?_⟩
  match found, decides with
  | .ok none, ⟨undecided, _⟩ =>
    obtain rfl : taken = [] := List.eq_nil_iff_forall_not_mem.mpr fun f mem =>
      binary f mem (undecided f mem)
    exact .inl ⟨rfl, Ready.gives (show Ready s ([] ++ left) from ready) gives⟩
  | .ok (some v), ⟨front, g, taken_eq, others, decided⟩ =>
    obtain rfl : front = [] := List.eq_nil_iff_forall_not_mem.mpr fun f mem =>
      binary f (by rw [taken_eq]; exact List.mem_append_left _ mem) (others f mem)
    subst taken_eq
    obtain ⟨p, ps, rfl, rfl, rest⟩ := List.map_eq_cons_iff.mp pending
    rw [Packet.data?_frame, Option.some.injEq] at decided
    subst decided
    exact .inr ⟨p, ps, rfl, rfl, Ready.gives (show Ready s ([p] ++ ps) from ready) gives⟩

/-- A request for data that waits for as long as the module may take finds what is left. -/
theorem getDataMessage_ne_none (ready : Ready s left) (some_left : left ≠ []) {wait : Nat}
    (in_time : Responder.trailingBefore s.link.far.reactions s.link.far.written.length < wait) :
    (getDataMessage wait s).1 ≠ .ok none := by
  intro none_found
  rw [getDataMessage_eq] at none_found
  obtain ⟨taken, -, decides⟩ :=
    awaitUntil_gives ready.fit ready.settled (s.link.now + wait) s.config.dataPoll Frame.data?
  rw [none_found] at decides
  obtain ⟨undecided, all⟩ := decides
  have soon := ready.soon
  have due : Link.due s.link.far.busyUntil (s.link.coming ++ []) = s.link.coming ++ [] :=
    Link.due_append_of_le ready.coming
  rw [List.append_nil] at due
  have there : left.map Packet.frame <+: taken := by
    have there := all (by omega) s.link.far.busyUntil (by omega)
    rwa [Link.availableBy, due, ← Link.pending, ready.pending] at there
  obtain ⟨p, ps, rfl⟩ := List.exists_cons_of_ne_nil some_left
  have none := undecided p.frame (there.subset (.head _))
  rw [Packet.data?_frame] at none
  cases none

/-! ## A module that is served -/

/-- A ready session, what has been written on it and how much it keeps. -/
structure Serving (reactions : Nat → Reaction) (capacity : Nat) (s : Session Responder)
    (log : List Bytes) (left : List Packet) : Prop where
  ready : Ready s left
  few : left.length ≤ (Responder.packetsBefore reactions log.length).length
  reactions : s.link.far.reactions = reactions
  written : s.link.far.written = log
  capacity : s.link.reader.ring.capacity = capacity

namespace Serving

variable {reactions : Nat → Reaction} {capacity : Nat} {log : List Bytes}

/-- Time passes. -/
theorem pass (serving : Serving reactions capacity s log left) (time : Nat) :
    Serving reactions capacity { s with link := s.link.pass time } log left where
  ready := serving.ready.pass time
  reactions := serving.reactions
  written := serving.written
  capacity := (Link.gives_pass serving.ready.fit serving.ready.settled time).capacity.trans
    serving.capacity
  few := serving.few

variable (room : ∀ n, (Responder.packetsBefore reactions n).length + (reactions n).size ≤ capacity)

include room

/-- A write that is answered `ok` in time is confirmed. -/
theorem sendAndConfirm_ok (serving : Serving reactions capacity s log left)
    (ok : (reactions log.length).answer = .ok) {timeout : Nat}
    (prompt : Responder.trailingBefore reactions log.length + (reactions log.length).delay <
      timeout) (bytes : Bytes) :
    ∃ s', sendAndConfirm bytes false timeout s = (.ok (), s') ∧
      Serving reactions capacity s' (log ++ [bytes]) (reactions log.length).packets ∧
      s.link.now ≤ s'.link.now ∧ s'.link.now ≤ s.link.now + timeout := by
  obtain ⟨ready, few, rfl, rfl, rfl⟩ := serving
  have room := room s.link.far.written.length
  obtain ⟨s', confirmed, ready', far, le, le', capacity⟩ :=
    Session.sendAndConfirm_ok ready (by omega) ok prompt bytes
  refine ⟨s', confirmed, ⟨ready', ?_, ?_, ?_, capacity⟩, le, le'⟩
  · rw [List.length_append]
    exact Nat.le_refl _
  · rw [far]
    rfl
  · rw [far]
    rfl

/-- A write that is not answered `ok` is not confirmed. -/
theorem sendAndConfirm_not_ok (serving : Serving reactions capacity s log left)
    (not_ok : (reactions log.length).answer ≠ .ok) (timeout : Nat) (bytes : Bytes) :
    ∃ e s', sendAndConfirm bytes false timeout s = (.error e, s') ∧
      s'.link.far.written = log ++ [bytes] := by
  obtain ⟨ready, few, rfl, rfl, rfl⟩ := serving
  have room := room s.link.far.written.length
  obtain ⟨e, s', refused, far⟩ :=
    Session.sendAndConfirm_not_ok ready (by omega) not_ok timeout bytes
  exact ⟨e, s', refused, by rw [far]; rfl⟩

omit room

/-- Of what is left a request for data takes the first message or none. -/
theorem getDataMessage (serving : Serving reactions capacity s log left) (wait : Nat) :
    ∃ s', Session.getDataMessage wait s = (.ok none, s') ∧
        Serving reactions capacity s' log left ∨
      ∃ p ps, left = p :: ps ∧ Session.getDataMessage wait s = (.ok (some p.frame), s') ∧
        Serving reactions capacity s' log ps := by
  obtain ⟨ready, few, rfl, rfl, rfl⟩ := serving
  obtain ⟨s', far, capacity, ⟨e, ready⟩ | ⟨p, ps, rfl, e, ready⟩⟩ :=
    getDataMessage_ready ready wait
  · exact ⟨s', .inl ⟨e, ready, few, by rw [far], by rw [far], capacity⟩⟩
  · exact ⟨s', .inr ⟨p, ps, rfl, e, ready, Nat.le_of_succ_le few, by rw [far], by rw [far],
      capacity⟩⟩

/-- A request for data that waits for as long as the module may take gets the first message that is
left. -/
theorem getDataMessage_head? (serving : Serving reactions capacity s log left) {wait : Nat}
    (in_time : Responder.trailingBefore reactions log.length < wait) :
    ∃ s', Session.getDataMessage wait s = (.ok (left.head?.map Packet.frame), s') ∧
      Serving reactions capacity s' log left.tail := by
  obtain ⟨s', ⟨e, serving'⟩ | ⟨p, ps, rfl, e, serving'⟩⟩ := serving.getDataMessage wait
  · cases left with
    | nil => exact ⟨s', e, serving'⟩
    | cons p ps =>
      obtain ⟨ready, few, rfl, rfl, rfl⟩ := serving
      exact absurd (congrArg Prod.fst e) (getDataMessage_ne_none ready (List.cons_ne_nil p ps) in_time)
  · exact ⟨s', e, serving'⟩

end Serving

theorem connect_responder (capacity : Nat) (reactions : Nat → Reaction) :
    Link.connect capacity ({ reactions } : Responder) =
      ⟨0, .start capacity, [], { reactions }⟩ :=
  rfl

/-- A session that has just been set up. -/
theorem serving_attach (name : String) (config : SessionConfig) (reactions : Nat → Reaction) :
    Serving reactions (max config.capacity 1) (attach name config ({ reactions } : Responder))
      [] [] := by
  unfold attach
  rw [connect_responder]
  exact ⟨⟨⟨⟨rfl, nofun, Nat.zero_le _⟩, fun t => rfl, rfl, rfl, nofun⟩, Nat.zero_le _, rfl⟩,
    Nat.zero_le _, rfl, rfl, rfl⟩

end Session

end LightLink
