import LightLink.Proofs.Session.Pending
import LightLink.Session.StandIn

/-!
# A module that answers in turn

A `Responder` is a module that answers each write as it comes to it: with `ok` and messages behind
it, with `fail`, or not at all. What it sends may come in any pieces and take its time, but it sends
the answer to one write behind the answer to the write before.

* `Carries`: readings that are parts of a stream cut in any way;
* `Reaction`: an answer, how it reads on the link and when;
* `Reaction.le_of_length_lt`, `Reaction.there_of_le`: the first frame of an answer is there from a
  certain time on.
-/

namespace LightLink

/-! ## Readings in time -/

/-- Readings that follow one another, each after its time, the first counted from `start`. -/
def schedule (start : Nat) : List (Nat × Reading) → List (Nat × Reading)
  | [] => []
  | (gap, x) :: rs => (start + gap, x) :: schedule (start + gap) rs

/-- How long readings take that follow one another. -/
def span : List (Nat × Reading) → Nat
  | [] => 0
  | (gap, _) :: rs => gap + span rs

/-- When the first frame is complete of readings that follow one another. -/
def firstFrame (a : Assembler) : List (Nat × Reading) → Nat
  | [] => 0
  | (gap, x) :: rs => if (a.read x).2 = [] then gap + firstFrame (a.read x).1 rs else gap

theorem schedule_map_add (now start : Nat) (rs : List (Nat × Reading)) :
    (schedule start rs).map (fun s => (now + s.1, s.2)) = schedule (now + start) rs := by
  induction rs generalizing start with
  | nil => rfl
  | cons r rs ih => rw [schedule, schedule, List.map_cons, ih, Nat.add_assoc]

theorem readAll_schedule (a : Assembler) (start : Nat) (rs : List (Nat × Reading)) :
    a.readAll (schedule start rs) = a.readAll rs := by
  induction rs generalizing a start with
  | nil => rfl
  | cons r rs ih => rw [schedule, Assembler.readAll, Assembler.readAll, ih]

theorem mem_schedule {start : Nat} {rs : List (Nat × Reading)} {c : Nat × Reading}
    (h : c ∈ schedule start rs) :
    start ≤ c.1 ∧ c.1 ≤ start + span rs ∧ ∃ r ∈ rs, r.2 = c.2 := by
  induction rs generalizing start with
  | nil => cases h
  | cons r rs ih =>
    rw [schedule, List.mem_cons] at h
    rw [span]
    rcases h with rfl | h
    · exact ⟨Nat.le_add_right .., by dsimp only; omega, r, .head _, rfl⟩
    · obtain ⟨le, le', x, mem, e⟩ := ih h
      exact ⟨by omega, by omega, x, .tail _ mem, e⟩

theorem due_schedule_cons (time start gap : Nat) (x : Reading) (rs : List (Nat × Reading)) :
    Link.due time (schedule start ((gap, x) :: rs)) =
      if start + gap ≤ time then (start + gap, x) :: Link.due time (schedule (start + gap) rs)
      else [] := by
  rw [schedule, Link.due, List.takeWhile_cons]
  simp only [decide_eq_true_eq]
  rfl

theorem prefix_readAll_due (a : Assembler) (start time : Nat) (rs : List (Nat × Reading)) :
    (a.readAll (Link.due time (schedule start rs))).2 <+: (a.readAll rs).2 := by
  have e := a.readAll_append (Link.due time (schedule start rs))
    (Link.notDue time (schedule start rs))
  rw [Link.due_append_notDue, readAll_schedule] at e
  rw [e]
  exact List.prefix_append ..

/-- Readings have completed a frame once they have come as far as the first. -/
theorem readAll_due_schedule {a : Assembler} {rs : List (Nat × Reading)} (start time : Nat)
    (there : (a.readAll rs).2 ≠ []) :
    (a.readAll (Link.due time (schedule start rs))).2 ≠ [] ↔ start + firstFrame a rs ≤ time := by
  induction rs generalizing a start with
  | nil => exact absurd rfl there
  | cons r rs ih =>
    obtain ⟨gap, x⟩ := r
    rw [due_schedule_cons, firstFrame]
    rw [Assembler.readAll] at there
    dsimp only at there
    by_cases first : (a.read x).2 = []
    · rw [first, List.nil_append] at there
      rw [if_pos first, ← Nat.add_assoc, ← ih (start + gap) there]
      by_cases le : start + gap ≤ time
      · rw [if_pos le, Assembler.readAll, first, List.nil_append]
      · have late : ¬ start + gap + firstFrame (a.read x).1 rs ≤ time := by omega
        rw [if_neg le, ih (start + gap) there]
        exact iff_of_false (fun h => h rfl) late
    · rw [if_neg first]
      by_cases le : start + gap ≤ time
      · rw [if_pos le, Assembler.readAll]
        refine iff_of_true (fun none => first ?_) le
        exact (List.append_eq_nil_iff.mp none).1
      · rw [if_neg le]
        exact iff_of_false (fun h => h rfl) le

/-! ## Readings of a stream -/

/-- Readings are parts of a stream, cut in any way; there are pauses at most where one part ends
and the next begins. -/
inductive Carries : List (Nat × Reading) → List Segment → Prop where
  | nil : Carries [] []
  | pause (gap : Nat) {rs : List (Nat × Reading)} {segments : List Segment} :
    Carries rs segments → Carries ((gap, .pause) :: rs) segments
  | chunks (pieces : List (Nat × Bytes)) (cut : List Segment) {rs : List (Nat × Reading)}
    {segments : List Segment} : pieces.flatMap Prod.snd = cut.flatMap Segment.bytes →
    Carries rs segments →
    Carries (pieces.map (fun p => (p.1, .chunk p.2)) ++ rs) (cut ++ segments)

theorem readAll_chunks (a : Assembler) (pieces : List (Nat × Bytes)) :
    a.readAll (pieces.map fun p => (p.1, .chunk p.2)) = a.feed (pieces.flatMap Prod.snd) := by
  induction pieces generalizing a with
  | nil => rfl
  | cons p pieces ih =>
    rw [List.map_cons, Assembler.readAll, List.flatMap_cons, Assembler.feed_append, ih]
    rfl

namespace Carries

variable {rs : List (Nat × Reading)} {segments : List Segment}

/-- However a stream is cut, the frames of its parts are cut off. -/
theorem readAll_eq (h : Carries rs segments) :
    Assembler.idle.readAll rs = (.idle, segments.flatMap Segment.frames) := by
  induction h with
  | nil => rfl
  | pause gap h ih => exact ih
  | chunks pieces cut e h ih =>
    rw [Assembler.readAll_append, readAll_chunks, e, Segment.feed_flatMap, ih, List.flatMap_append]

theorem sound (h : Carries rs segments) : ∀ r ∈ rs, r.2 ≠ .failure := by
  induction h with
  | nil => nofun
  | pause gap h ih =>
    intro r mem
    rcases List.mem_cons.mp mem with rfl | mem
    · nofun
    · exact ih r mem
  | chunks pieces cut e h ih =>
    intro r mem
    rcases List.mem_append.mp mem with mem | mem
    · obtain ⟨p, -, rfl⟩ := List.mem_map.mp mem
      nofun
    · exact ih r mem

end Carries

/-! ## Reactions -/

/-- The frames are an answer, with messages behind it if it is `ok`. -/
def Answer.Frames (packets : List Packet) : Answer → List Frame → Prop
  | .ok, fs => ∃ f, f.isToken Token.ok = true ∧ fs = f :: packets.map Packet.frame
  | .fail, fs => packets = [] ∧ ∃ f, f.isToken Token.fail = true ∧ fs = [f]
  | .silent, fs => packets = [] ∧ fs = []

/-- How a module answers a write: what it sends, and in which readings that comes. -/
structure Reaction where
  answer : Answer
  /-- What it sends behind an `ok`. -/
  packets : List Packet
  segments : List Segment
  readings : List (Nat × Reading)
  frames : answer.Frames packets (segments.flatMap Segment.frames)
  carries : Carries readings segments

namespace Reaction

/-- How many frames are sent. -/
def size (r : Reaction) : Nat := (r.segments.flatMap Segment.frames).length

/-- How long the answer takes that is a line. -/
def delay (r : Reaction) : Nat := firstFrame .idle r.readings

/-- How long what follows the answer takes. -/
def trailing (r : Reaction) : Nat := span r.readings - r.delay

end Reaction

/-- A module that answers one write after the other. -/
structure Responder where
  /-- How each write is answered. -/
  reactions : Nat → Reaction
  /-- What has been written to it. -/
  written : List Bytes := []
  /-- When it has sent all that it has to send so far. -/
  busyUntil : Nat := 0
  /-- What it has not sent. -/
  outgoing : List (Nat × Reading) := []

instance : FarEnd Responder where
  write m now bytes :=
    let reaction := m.reactions m.written.length
    let start := max now m.busyUntil
    (.ok (),
      { m with
        written := m.written ++ [bytes]
        busyUntil := start + span reaction.readings
        outgoing := m.outgoing ++ schedule (start - now) reaction.readings })
  send m := (m.outgoing, { m with outgoing := [] })

namespace Responder

/-- The messages behind the answer to the write before. -/
def packetsBefore (reactions : Nat → Reaction) : Nat → List Packet
  | 0 => []
  | n + 1 => (reactions n).packets

/-- How long what follows the answer to the write before takes. -/
def trailingBefore (reactions : Nat → Reaction) : Nat → Nat
  | 0 => 0
  | n + 1 => (reactions n).trailing

end Responder

/-! ## What is there to be taken -/

theorem firstFrame_le_span (a : Assembler) (rs : List (Nat × Reading)) :
    firstFrame a rs ≤ span rs := by
  induction rs generalizing a with
  | nil => exact Nat.le_refl _
  | cons r rs ih =>
    rw [firstFrame, span]
    have le := ih (a.read r.2).1
    split <;> omega

namespace Reaction

variable (r : Reaction)

theorem readAll_readings :
    Assembler.idle.readAll r.readings = (.idle, r.segments.flatMap Segment.frames) :=
  r.carries.readAll_eq

/-- From whenever the answer comes, its frames are cut off. -/
theorem readAll_schedule (start : Nat) : Assembler.idle.readAll (schedule start r.readings) =
    (.idle, r.segments.flatMap Segment.frames) := by
  rw [LightLink.readAll_schedule, r.readAll_readings]

theorem sound_schedule (start : Nat) : ∀ c ∈ schedule start r.readings, c.2 ≠ .failure := by
  intro c mem
  obtain ⟨-, -, x, mem, e⟩ := mem_schedule mem
  rw [← e]
  exact r.carries.sound x mem

theorem delay_add_trailing : r.delay + r.trailing = span r.readings := by
  have le := firstFrame_le_span .idle r.readings
  unfold trailing delay
  omega

variable {σ : Type} {l : Link σ} {start : Nat}

/-- Before the first frame of an answer is complete there is no more than before. -/
theorem le_of_length_lt (idle : l.rest = .idle) (coming : ∀ c ∈ l.coming, c.1 ≤ start) {t : Nat}
    (more : l.pending.length < ((l.extend (schedule start r.readings)).availableBy t).length) :
    start + r.delay ≤ t := by
  by_cases early : t < start
  · have part : (l.extend (schedule start r.readings)).availableBy t <+: l.pending :=
      Link.availableBy_extend_of_lt fun d mem => Nat.lt_of_lt_of_le early (mem_schedule mem).1
    have le := part.length_le
    omega
  · rw [Link.availableBy_extend_of_le idle fun c mem => Nat.le_trans (coming c mem)
      (Nat.le_of_not_lt early), List.length_append] at more
    have some_due : (Assembler.idle.readAll (Link.due t (schedule start r.readings))).2 ≠ [] := by
      intro none
      rw [none] at more
      exact Nat.lt_irrefl _ more
    have there : (Assembler.idle.readAll r.readings).2 ≠ [] := by
      intro none
      have part := prefix_readAll_due .idle start t r.readings
      rw [none] at part
      exact some_due (List.prefix_nil.mp part)
    exact (readAll_due_schedule start t there).mp some_due

/-- Once the first frame of an answer is complete it is there. -/
theorem there_of_le (idle : l.rest = .idle) (coming : ∀ c ∈ l.coming, c.1 ≤ start)
    {f : Frame} {fs : List Frame} (frames : r.segments.flatMap Segment.frames = f :: fs) {t : Nat}
    (le : start + r.delay ≤ t) :
    l.pending ++ [f] <+: (l.extend (schedule start r.readings)).availableBy t := by
  rw [Link.availableBy_extend_of_le idle fun c mem => Nat.le_trans (coming c mem) (by omega)]
  have all : (Assembler.idle.readAll r.readings).2 = f :: fs := by
    rw [r.readAll_readings, frames]
  have some_due := (readAll_due_schedule start t (by rw [all]; nofun)).mpr le
  have part := prefix_readAll_due .idle start t r.readings
  rw [all] at part
  rw [List.prefix_append_right_inj]
  match (Assembler.idle.readAll (Link.due t (schedule start r.readings))).2, some_due, part with
  | g :: gs, _, part =>
    obtain ⟨rfl, -⟩ := List.cons_prefix_cons.mp part
    exact List.prefix_append [g] gs

end Reaction

end LightLink
