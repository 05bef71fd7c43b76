import Mathlib.Data.List.Basic
import Mathlib.Data.List.Induction
import LightLink.Proofs.Ring.Shared
import LightLink.Proofs.Session.AtHand

/-!
# A look for a frame while the reader goes on

A look is made of three steps: it reads the mark by which the reader says that it runs, takes a
frame from the ring or waits for one, and if there was none reads the mark again. Between any two of
them, and while it waits, the reader may have turns: it puts frames in, and at last it stops. So
`Session.getMessage`, in which nothing comes between the steps but what is due, is only one way in
which a look can go.

* `Look.step`, `Look.run`: the turns of a look and of the reader;
* `Look.Sound.step_look`: what a look does in its turn;
* `Look.misses_of_run`: since a look has found no frame only the reader has had turns;
* `Look.answers_error_iff`: so which runs end with an error;
* `Look.newest_run`: what the reader's turns leave in the ring;
* `Session.exists_run_getMessage`: `getMessage` is such a run;
* `Session.lost_iff`: when a link is reported lost, and what is in the ring by then.
-/

namespace LightLink

/-! ## Turns -/

/-- Those who share the ring of a link. -/
inductive Look.Party where
  | reader
  | user
  deriving DecidableEq, Repr

/-- How far a look for a frame has come. -/
inductive Look.Stage where
  | asked (wait : Nat)
  /-- By the mark it may wait for so long. -/
  | marked (patience : Nat)
  | waiting
  /-- There was no frame. -/
  | missed
  | answered (answer : Except TransportError (Option Frame))

/-- A turn of the reader or of a look. -/
inductive Look.Turn where
  | put (a : Arrival)
  | stop
  | look (now : Nat)
  deriving DecidableEq, Repr

/-- A look for a frame, and what it shares with the reader. -/
structure Look where
  name : String
  shared : Ring.Shared Look.Party Arrival
  /-- The reader's mark. -/
  running : Bool
  lastReceived : Option Nat
  stage : Look.Stage

/-- A look of a session begins. -/
def Session.ask {σ : Type} (s : Session σ) (wait : Nat) : Look :=
  ⟨s.name, { ring := s.reader.ring }, s.isAlive, s.lastReceived, .asked wait⟩

namespace Look

/-- The turn is the reader's. -/
def Turn.isReader : Turn → Bool
  | look _ => false
  | _ => true

/-- The frame that is put in. -/
def Turn.frame? : Turn → Option Arrival
  | put a => some a
  | _ => none

/-- What comes of taking a frame from the ring. -/
def took (l : Look) (taken : Ring.Outcome Arrival × Ring.Shared Party Arrival) : Look :=
  match taken.1 with
  | .got a =>
    { l with
      shared := taken.2
      lastReceived := some a.time
      stage := .answered (.ok (some a.frame)) }
  | .waits => { l with shared := taken.2, stage := .waiting }
  | _ => { l with shared := taken.2, stage := .missed }

/-- A turn. A reader that has stopped puts nothing in. -/
def step (l : Look) : Turn → Look
  | .put a =>
    if l.running then { l with shared := (l.shared.step ⟨.reader, a.time, .put a⟩).2 } else l
  | .stop => { l with running := false }
  | .look now =>
    match l.stage with
    | .asked wait => { l with stage := .marked (if l.running then wait else 0) }
    | .marked patience => l.took (l.shared.step ⟨.user, now, .get patience⟩)
    | .waiting => l.took (l.shared.step ⟨.user, now, .wake⟩)
    | .missed =>
      let answer := if l.running then .ok none else .error (.linkLost (.readerStopped l.name))
      { l with stage := .answered answer }
    | .answered _ => l

/-- Any number of turns. -/
def run (l : Look) (turns : List Turn) : Look := turns.foldl step l

/-- The frames in the ring, oldest first. -/
def frames (l : Look) : List Arrival := l.shared.ring.toList

/-- The last one of these turns ends the look with an answer. -/
def Answers (l : Look) (turns : List Turn) (answer : Except TransportError (Option Frame)) :
    Prop :=
  (l.run turns).stage = .answered answer ∧ ∀ early, (l.run turns.dropLast).stage ≠ .answered early

/-- The next look. -/
def again (l : Look) (wait : Nat) : Look := { l with stage := .asked wait }

/-- What a reader puts in in its turns: all until it stops. -/
def brought (running : Bool) (turns : List Turn) : List Arrival :=
  if running then (turns.takeWhile (· ≠ .stop)).filterMap Turn.frame? else []

/-- A look at the ring at `now` finds no frame and waits no longer, and before its next turn the
reader has turns in which it stops, if it had not stopped before. -/
structure Loses (l : Look) (before : List Turn) (now : Nat) (between : List Turn) : Prop where
  looks : (l.run before).stage ≠ .missed
  missed : ((l.run before).step (.look now)).stage = .missed
  reading : ∀ t ∈ between, t.isReader
  stopped : (l.run (before ++ .look now :: between)).running = false

variable {l : Look} {before between turns ts : List Turn} {t : Turn} {now deadline patience : Nat}
  {a : Arrival} {as : List Arrival}

@[simp] theorem run_nil (l : Look) : l.run [] = l := rfl

@[simp] theorem run_cons (l : Look) (t : Turn) (ts : List Turn) :
    l.run (t :: ts) = (l.step t).run ts := rfl

@[simp] theorem run_append (l : Look) (ts ts' : List Turn) :
    l.run (ts ++ ts') = (l.run ts).run ts' := List.foldl_append

/-! ### The reader's turns -/

theorem stage_step_reader (h : t.isReader) (l : Look) : (l.step t).stage = l.stage := by
  cases t with
  | put a =>
    rw [step]
    split <;> rfl
  | stop => rfl
  | look now => cases h

theorem stage_run_reader (h : ∀ t ∈ ts, t.isReader) (l : Look) : (l.run ts).stage = l.stage := by
  induction ts generalizing l with
  | nil => rfl
  | cons t ts ih =>
    rw [run_cons, ih (fun t mem => h t (.tail _ mem)), stage_step_reader (h t (.head _))]

/-! ### Looking at the ring -/

theorem took_found (found : l.frames = a :: as) (now deadline : Nat) :
    l.took (l.shared.look .user now deadline) =
      { l with
        shared := (l.shared.look .user now deadline).2
        lastReceived := some a.time
        stage := .answered (.ok (some a.frame)) } := by
  have got : (l.shared.look .user now deadline).1 = .got a := by
    have first : l.shared.ring.take.1 = some a := congrArg List.head? found
    simp [Ring.Shared.look, first, Ring.Outcome.ofTaken]
  rw [took, got]

theorem took_late (none : l.frames = []) (late : deadline ≤ now) :
    l.took (l.shared.look .user now deadline) =
      { l with shared := (l.shared.look .user now deadline).2, stage := .missed } := by
  have nothing : (l.shared.look .user now deadline).1 = .nothing := by
    have first : l.shared.ring.take.1 = .none := congrArg List.head? none
    simp [Ring.Shared.look, first, Ring.Outcome.ofTaken, late]
  rw [took, nothing]

theorem took_early (none : l.frames = []) (early : ¬ deadline ≤ now) :
    l.took (l.shared.look .user now deadline) =
      { l with shared := (l.shared.look .user now deadline).2, stage := .waiting } := by
  have waits : (l.shared.look .user now deadline).1 = .waits := by
    have first : l.shared.ring.take.1 = .none := congrArg List.head? none
    simp [Ring.Shared.look, first, Ring.Outcome.ofTaken, early]
  rw [took, waits]

/-- A look at the ring finds a frame, or there is none and it misses or waits. -/
theorem stage_took (l : Look) (now deadline : Nat) :
    let l' := l.took (l.shared.look .user now deadline)
    (∃ a as, l.frames = a :: as ∧ l'.stage = .answered (.ok (some a.frame))) ∨
      l.frames = [] ∧
        (deadline ≤ now ∧ l'.stage = .missed ∨ ¬ deadline ≤ now ∧ l'.stage = .waiting) := by
  cases frames : l.frames with
  | cons a as => exact .inl ⟨a, as, rfl, by rw [took_found frames]⟩
  | nil =>
    by_cases late : deadline ≤ now
    · exact .inr ⟨rfl, .inl ⟨late, by rw [took_late frames late]⟩⟩
    · exact .inr ⟨rfl, .inr ⟨late, by rw [took_early frames late]⟩⟩

theorem shared_took (l : Look) (now deadline : Nat) :
    (l.took (l.shared.look .user now deadline)).shared =
      (l.shared.look .user now deadline).2 := by
  unfold took
  split <;> rfl

theorem frames_took (l : Look) (now deadline : Nat) :
    (l.took (l.shared.look .user now deadline)).frames = l.frames.tail := by
  rw [frames, shared_took]
  rfl

/-- The reader never waits for a frame, and a look has a deadline as long as it waits. -/
structure Sound (l : Look) : Prop where
  reader : l.shared.waiting .reader = none
  user : (l.shared.waiting .user).isSome ↔ l.stage = .waiting

theorem sound_ask {σ : Type} (s : Session σ) (wait : Nat) : (s.ask wait).Sound :=
  ⟨rfl, by simp [Session.ask]⟩

namespace Sound

variable (sound : l.Sound)

include sound

theorem step_put (running : l.running = true) (a : Arrival) :
    l.step (.put a) = { l with shared := { l.shared with ring := (l.shared.ring.put a).1 } } := by
  rw [step, if_pos running]
  simp [Ring.Shared.step, sound.reader]

theorem step_marked (stage : l.stage = .marked patience) (now : Nat) :
    l.step (.look now) = l.took (l.shared.look .user now (now + patience)) := by
  have free : l.shared.waiting .user = none := by
    have user := sound.user
    rw [stage] at user
    simpa using user
  simp [step, stage, Ring.Shared.step, free]

omit sound in
theorem step_waiting (stage : l.stage = .waiting)
    (waits : l.shared.waiting .user = some deadline) (now : Nat) :
    l.step (.look now) = l.took (l.shared.look .user now deadline) := by
  simp [step, stage, Ring.Shared.step, waits]

/-- What a look does in its turn. -/
theorem step_look (now : Nat) :
    (∃ wait, l.stage = .asked wait ∧
      l.step (.look now) = { l with stage := .marked (if l.running then wait else 0) }) ∨
    (l.stage ≠ .missed ∧
      ∃ deadline, l.step (.look now) = l.took (l.shared.look .user now deadline)) ∨
    (l.stage = .missed ∧
      let answer := if l.running then .ok none else .error (.linkLost (.readerStopped l.name))
      l.step (.look now) = { l with stage := .answered answer }) ∨
    ∃ answer, l.stage = .answered answer ∧ l.step (.look now) = l := by
  cases stage : l.stage with
  | asked wait => exact .inl ⟨wait, rfl, by rw [step, stage]⟩
  | marked patience =>
    exact .inr (.inl ⟨nofun, now + patience, sound.step_marked stage now⟩)
  | waiting =>
    obtain ⟨deadline, waits⟩ := Option.isSome_iff_exists.mp (sound.user.mpr stage)
    exact .inr (.inl ⟨nofun, deadline, step_waiting stage waits now⟩)
  | missed => exact .inr (.inr (.inl ⟨rfl, by rw [step, stage]⟩))
  | answered answer => exact .inr (.inr (.inr ⟨answer, rfl, by rw [step, stage]⟩))

/-- What a turn at the ring does to those who wait. -/
theorem took (now deadline : Nat) : (l.took (l.shared.look .user now deadline)).Sound where
  reader := by
    rw [shared_took]
    exact sound.reader
  user := by
    have empty : l.shared.ring.isEmpty = l.frames.isEmpty := rfl
    rw [shared_took, Ring.Shared.waiting_look, empty]
    rcases l.stage_took now deadline with
      ⟨a, as, found, stage⟩ | ⟨none, ⟨late, stage⟩ | ⟨early, stage⟩⟩
    · simp [stage, found]
    · simp [stage, late]
    · simp [stage, none, Nat.lt_of_not_le early]

theorem step (t : Turn) : (l.step t).Sound := by
  cases t with
  | put a =>
    by_cases running : l.running = true
    · rw [sound.step_put running]
      exact ⟨sound.reader, sound.user⟩
    · rw [Look.step, if_neg running]
      exact sound
  | stop => exact ⟨sound.reader, sound.user⟩
  | look now =>
    rcases sound.step_look now with
      ⟨wait, stage, e⟩ | ⟨-, deadline, e⟩ | ⟨stage, e⟩ | ⟨answer, stage, e⟩
    · rw [e]
      exact ⟨sound.reader, by simpa [stage] using sound.user⟩
    · rw [e]
      exact sound.took now deadline
    · rw [e]
      exact ⟨sound.reader, by simpa [stage] using sound.user⟩
    · rw [e]
      exact sound

theorem run (ts : List Turn) : (l.run ts).Sound := by
  induction ts generalizing l with
  | nil => exact sound
  | cons t ts ih => exact ih (sound.step t)

end Sound

/-! ### Turns of a look -/

/-- Only a look at the ring misses, and there is no frame in it then. -/
theorem missed_of_step (sound : l.Sound) (missed : (l.step t).stage = .missed) :
    t.isReader ∧ l.stage = .missed ∨
      (∃ now, t = .look now) ∧ l.stage ≠ .missed ∧ (l.step t).frames = [] := by
  cases t with
  | put a => exact .inl ⟨rfl, (stage_step_reader rfl l).symm.trans missed⟩
  | stop => exact .inl ⟨rfl, missed⟩
  | look now =>
    refine .inr ⟨⟨now, rfl⟩, ?_⟩
    rcases sound.step_look now with
      ⟨wait, stage, e⟩ | ⟨looks, deadline, e⟩ | ⟨stage, e⟩ | ⟨answer, stage, e⟩
    · rw [e] at missed
      cases missed
    · rw [e] at missed ⊢
      rcases l.stage_took now deadline with ⟨a, as, -, found⟩ | ⟨none, -⟩
      · rw [found] at missed
        cases missed
      · exact ⟨looks, by rw [frames_took, none, List.tail_nil]⟩
    · rw [e] at missed
      cases missed
    · rw [e, stage] at missed
      cases missed

/-- Only the last turn of a look that has missed ends it with an error, if the reader has stopped by
then. -/
theorem error_of_step (sound : l.Sound) {e : TransportError}
    (failed : (l.step t).stage = .answered (.error e)) :
    l.stage = .answered (.error e) ∨
      (∃ now, t = .look now) ∧ l.stage = .missed ∧ l.running = false ∧
        e = .linkLost (.readerStopped l.name) := by
  cases t with
  | put a => exact .inl ((stage_step_reader rfl l).symm.trans failed)
  | stop => exact .inl failed
  | look now =>
    rcases sound.step_look now with
      ⟨wait, stage, e⟩ | ⟨-, deadline, e⟩ | ⟨stage, e⟩ | ⟨answer, stage, e⟩
    · rw [e] at failed
      cases failed
    · rw [e] at failed
      rcases l.stage_took now deadline with
        ⟨a, as, -, found⟩ | ⟨-, ⟨-, missed⟩ | ⟨-, waits⟩⟩
      · rw [found] at failed
        cases failed
      · rw [missed] at failed
        cases failed
      · rw [waits] at failed
        cases failed
    · cases running : l.running with
      | true =>
        rw [e, running] at failed
        cases failed
      | false =>
        rw [e, running] at failed
        cases failed
        exact .inr ⟨⟨now, rfl⟩, stage, rfl, rfl⟩
    · rw [e] at failed
      exact .inl failed

/-! ### Any number of turns -/

@[simp] theorem name_step (l : Look) (t : Turn) : (l.step t).name = l.name := by
  have took : ∀ taken, (l.took taken).name = l.name := by
    intro taken
    unfold took
    split <;> rfl
  cases t with
  | put a =>
    rw [step]
    split <;> rfl
  | stop => rfl
  | look now =>
    rw [step]
    split
    · rfl
    · exact took _
    · exact took _
    · rfl
    · rfl

@[simp] theorem name_run (l : Look) (ts : List Turn) : (l.run ts).name = l.name := by
  induction ts generalizing l with
  | nil => rfl
  | cons t ts ih => rw [run_cons, ih, name_step]

/-- Since a look has missed, only the reader has had turns. -/
theorem misses_of_run (sound : l.Sound) (start : l.stage ≠ .missed)
    (missed : (l.run turns).stage = .missed) :
    ∃ before now between, turns = before ++ .look now :: between ∧
      (l.run before).stage ≠ .missed ∧ ((l.run before).step (.look now)).stage = .missed ∧
      ∀ t ∈ between, t.isReader := by
  -- From the back: either the last turn has missed, or it is the reader's and changes nothing.
  induction turns using List.reverseRecOn with
  | nil => exact absurd missed start
  | append_singleton turns t ih =>
    rw [run_append, run_cons, run_nil] at missed
    rcases missed_of_step (sound.run turns) missed with ⟨reader, missed'⟩ | ⟨⟨now, rfl⟩, looks, -⟩
    · obtain ⟨before, now, between, rfl, looks, missed, reading⟩ := ih missed'
      refine ⟨before, now, between ++ [t], by simp, looks, missed, fun t' mem => ?_⟩
      rcases List.mem_append.mp mem with mem | mem
      · exact reading t' mem
      · rwa [List.mem_singleton.mp mem]
    · exact ⟨turns, now, [], rfl, looks, missed, nofun⟩

theorem step_missed (missed : l.stage = .missed) (stopped : l.running = false) (now : Nat) :
    l.step (.look now) =
      { l with stage := .answered (.error (.linkLost (.readerStopped l.name))) } := by
  simp [step, missed, stopped]

theorem Loses.stage (h : l.Loses before now between) :
    (l.run (before ++ .look now :: between)).stage = .missed := by
  rw [run_append, run_cons, stage_run_reader h.reading]
  exact h.missed

theorem Loses.frames (h : l.Loses before now between) (sound : l.Sound) :
    (l.run (before ++ [.look now])).frames = [] := by
  rcases missed_of_step (sound.run before) h.missed with ⟨reader, -⟩ | ⟨-, -, none⟩
  · cases reader
  · rw [run_append]
    exact none

/-- A look ends with an error just if it has missed and the reader has stopped before the mark is
read again. -/
theorem answers_error_iff (sound : l.Sound) (start : ∃ wait, l.stage = .asked wait)
    {e : TransportError} : l.Answers turns (.error e) ↔
      e = .linkLost (.readerStopped l.name) ∧ ∃ before now between now',
        turns = before ++ .look now :: between ++ [.look now'] ∧ l.Loses before now between := by
  obtain ⟨wait, start⟩ := start
  constructor
  · rintro ⟨failed, early⟩
    rcases turns.eq_nil_or_concat' with rfl | ⟨turns, t, rfl⟩
    · rw [run_nil, start] at failed
      cases failed
    · rw [List.dropLast_concat] at early
      rw [run_append, run_cons, run_nil] at failed
      rcases error_of_step (sound.run turns) failed with
        before | ⟨⟨now', rfl⟩, missed, stopped, rfl⟩
      · exact absurd before (early _)
      · obtain ⟨before, now, between, rfl, looks, missed, reading⟩ :=
          misses_of_run sound (by rw [start]; nofun) missed
        rw [name_run]
        exact ⟨rfl, before, now, between, now', rfl, looks, missed, reading, stopped⟩
  · rintro ⟨rfl, before, now, between, now', rfl, loses⟩
    unfold Answers
    rw [List.dropLast_concat, run_append _ _ [_], loses.stage]
    refine ⟨?_, nofun⟩
    rw [run_cons, run_nil, step_missed loses.stage loses.stopped, name_run]

/-! ### What the reader puts in -/

theorem brought_stop (running : Bool) (ts : List Turn) : brought running (.stop :: ts) = [] := by
  simp [brought]

theorem brought_put (a : Arrival) (ts : List Turn) :
    brought true (.put a :: ts) = a :: brought true ts := by
  simp [brought, Turn.frame?]

/-- The reader's turns put frames in behind the others, and the oldest ones make way. -/
theorem newest_run (sound : l.Sound) (newest : l.shared.ring.Newest as)
    (reading : ∀ t ∈ ts, t.isReader) :
    (l.run ts).shared.ring.Newest (as ++ brought l.running ts) := by
  induction ts generalizing l as with
  | nil =>
    have none : brought l.running [] = [] := by simp [brought]
    rw [none, List.append_nil]
    exact newest
  | cons t ts ih =>
    have reading' : ∀ t ∈ ts, t.isReader := fun t mem => reading t (.tail _ mem)
    have rest := fun newest' : (l.step t).shared.ring.Newest as =>
      ih (sound.step t) newest' reading'
    rw [run_cons]
    cases t with
    | look now => cases reading _ (.head _)
    | stop =>
      rw [brought_stop]
      exact rest newest
    | put a =>
      cases running : l.running with
      | false =>
        have idle : l.step (.put a) = l := by simp [step, running]
        rw [idle, running] at rest
        rw [idle]
        exact rest newest
      | true =>
        have kept : (l.step (.put a)).running = true := by
          rw [sound.step_put running]
          exact running
        have put : (l.step (.put a)).shared.ring.Newest (as ++ [a]) := by
          rw [sound.step_put running]
          exact newest.put a
        have rest := ih (sound.step _) put reading'
        rwa [kept, ← List.append_cons, ← brought_put] at rest

/-- A look at a ring in which there are frames finds the oldest one. -/
theorem stage_again (sound : l.Sound) (idle : l.stage ≠ .waiting) (there : l.frames = a :: as)
    (wait now now' : Nat) :
    ((l.again wait).run [.look now, .look now']).stage = .answered (.ok (some a.frame)) := by
  have asked : (l.again wait).Sound := by
    refine ⟨sound.reader, ?_⟩
    have user := sound.user
    simpa [again, idle] using user
  have found := took_found (l := (l.again wait).step (.look now)) there
  rw [run_cons, run_cons, run_nil, (asked.step _).step_marked rfl, found]

/-! ### A look by itself -/

/-- The look beside a reader in this state. -/
def beside (l : Look) (r : Reader) : Look :=
  { l with shared := { l.shared with ring := r.ring }, running := r.running }

theorem beside_eq {r : Reader} (ring : l.shared.ring = r.ring) (running : l.running = r.running) :
    l.beside r = l := by
  rw [beside, ← ring, ← running]

/-- What a reader takes in is put in turn by turn. -/
theorem exists_run_keep (free : l.shared.waiting .reader = none) {r : Reader}
    (running : r.running = true) (time : Nat) (fs : List Frame) :
    ∃ ts, (l.beside r).run ts = l.beside (r.keep time fs) := by
  induction fs generalizing r with
  | nil => exact ⟨[], rfl⟩
  | cons f fs ih =>
    let kept : Reader := { r with ring := (r.ring.put ⟨f, time⟩).1, received := r.received + 1 }
    obtain ⟨ts, e⟩ := ih (r := kept) running
    refine ⟨.put ⟨f, time⟩ :: ts, ?_⟩
    have put : (l.beside r).step (.put ⟨f, time⟩) = l.beside kept := by
      simp [step, beside, running, Ring.Shared.step, free, kept]
    rw [run_cons, put, e]
    rfl

theorem exists_run_read (free : l.shared.waiting .reader = none) (r : Reader) (time : Nat)
    (x : Reading) : ∃ ts, (l.beside r).run ts = l.beside (r.read time x) := by
  cases running : r.running with
  | false =>
    rw [Reader.read_of_not_running running]
    exact ⟨[], rfl⟩
  | true =>
    unfold Reader.read
    rw [if_neg (by simp [running])]
    cases x with
    | chunk bytes =>
      exact exists_run_keep free (r := { r with assembler := (r.assembler.feed bytes).1 }) running
        time (r.assembler.feed bytes).2
    | pause => exact ⟨[], rfl⟩
    | failure => exact ⟨[.stop], rfl⟩

theorem exists_run_takeIn (free : l.shared.waiting .reader = none) (r : Reader) (now : Nat)
    (coming : List (Nat × Reading)) :
    ∃ ts, (l.beside r).run ts = l.beside (Link.takeIn now r coming).1 := by
  induction coming generalizing r with
  | nil => exact ⟨[], rfl⟩
  | cons c coming ih =>
    rw [Link.takeIn]
    split
    · obtain ⟨ts, read⟩ := exists_run_read free r c.1 c.2
      obtain ⟨ts', rest⟩ := ih (r.read c.1 c.2)
      exact ⟨ts ++ ts', by rw [run_append, read, rest]⟩
    · exact ⟨[], rfl⟩

end Look

/-- A wait of no time takes in what is due. -/
theorem Link.await_zero {σ : Type} (l : Link σ) : l.await 0 = l.settle := by
  have now : (l.await 0).now = l.now := Nat.le_antisymm (l.now_await_le 0) (l.now_le_await 0)
  unfold await at now ⊢
  split
  · rename_i empty
    rw [if_pos empty] at now
    rw [show l.settle.wakeTime (l.now + 0) = l.settle.now from now]
    exact UpToDate.settle_eq (upToDate_takeIn ..)
  · rfl

namespace Session

open Look

variable {σ : Type}

/-- A look that has read the mark, once all that is due has been put in. -/
def marked (s : Session σ) (wait : Nat) : Look :=
  ((s.ask wait).step (.look s.link.now)).beside s.link.settle.reader

theorem exists_run_marked (s : Session σ) (wait : Nat) :
    ∃ ts, (s.ask wait).run ts = s.marked wait := by
  obtain ⟨ts, settled⟩ := exists_run_takeIn (l := (s.ask wait).step (.look s.link.now)) rfl s.reader
    s.link.now s.link.coming
  exact ⟨.look s.link.now :: ts, settled⟩

theorem sound_marked (s : Session σ) (wait : Nat) : (s.marked wait).Sound :=
  ⟨rfl, by simp [marked, beside, ask, Look.step]⟩

theorem step_marked (s : Session σ) (wait : Nat) :
    (s.marked wait).step (.look s.link.now) = (s.marked wait).took
      ((s.marked wait).shared.look .user s.link.now (s.link.now + s.patience wait)) :=
  (s.sound_marked wait).step_marked rfl s.link.now

/-- If it has to wait, the reader goes on until the wait is over. -/
theorem exists_run_waiting (s : Session σ) (wait : Nat)
    (empty : s.link.settle.reader.ring.isEmpty = true) (pos : s.patience wait ≠ 0) :
    ∃ ts, let l := (s.marked wait).run ts
      let link := s.link.await (s.patience wait)
      l.lastReceived = s.lastReceived ∧ l.shared.ring = link.reader.ring ∧
        l.running = link.reader.running ∧ l.stage = .waiting ∧
        l.shared.waiting .user = some (s.link.now + s.patience wait) := by
  have none : s.link.settle.reader.ring.toList = [] := List.isEmpty_iff.mp empty
  have early : ¬ s.link.now + s.patience wait ≤ s.link.now := by omega
  let waits := (s.marked wait).step (.look s.link.now)
  have waits_eq : waits = _ := (s.step_marked wait).trans (took_early none early)
  have free : waits.shared.waiting .reader = .none := ((s.sound_marked wait).step _).reader
  have same : waits.beside s.link.settle.reader = waits := by
    refine beside_eq ?_ ?_
    · rw [waits_eq]
      exact congrArg Reader.ring (Link.take_of_nil none)
    · rw [waits_eq]
      rfl
  let wake := s.link.settle.wakeTime (s.link.now + s.patience wait)
  have awaited :
      s.link.await (s.patience wait) = Link.settle { s.link.settle with now := wake } := by
    rw [Link.await, if_pos empty]
  obtain ⟨ts, rest⟩ := exists_run_takeIn free s.link.settle.reader wake s.link.settle.coming
  have run_eq : (s.marked wait).run (.look s.link.now :: ts) = _ :=
    (congrArg (·.run ts) same.symm).trans rest
  refine ⟨.look s.link.now :: ts, ?_⟩
  rw [run_eq, awaited]
  refine ⟨?_, rfl, rfl, ?_, ?_⟩
  · rw [waits_eq]
    rfl
  · rw [waits_eq]
    rfl
  · rw [waits_eq]
    exact (Ring.Shared.waiting_look _ Party.user _ _).trans (if_pos ⟨empty, early⟩)

/-- A look comes to where a wait for a frame ends. -/
theorem exists_run_await (s : Session σ) (wait : Nat) :
    ∃ ts, let l := (s.ask wait).run ts
      let link := s.link.await (s.patience wait)
      l.lastReceived = s.lastReceived ∧ l.shared.ring = link.reader.ring ∧
        l.running = link.reader.running ∧ (∀ answer, l.stage ≠ .answered answer) ∧
        l.step (.look link.now) =
          l.took (l.shared.look .user link.now (s.link.now + s.patience wait)) := by
  obtain ⟨ts, marked⟩ := s.exists_run_marked wait
  by_cases at_once : s.link.settle.reader.ring.isEmpty = false ∨ s.patience wait = 0
  · have awaited : s.link.await (s.patience wait) = s.link.settle := by
      rcases at_once with there | zero
      · rw [Link.await, if_neg (by simp [there])]
      · rw [zero, Link.await_zero]
    refine ⟨ts, ?_⟩
    rw [marked, awaited]
    refine ⟨rfl, rfl, rfl, ?_, s.step_marked wait⟩
    intro answer same
    cases same
  · obtain ⟨empty, pos⟩ := not_or.mp at_once
    obtain ⟨ts', last, ring, running, stage, deadline⟩ :=
      s.exists_run_waiting wait (by simpa using empty) pos
    refine ⟨ts ++ ts', ?_⟩
    rw [run_append, marked]
    refine ⟨last, ring, running, ?_, Sound.step_waiting stage deadline _⟩
    intro answer same
    rw [stage] at same
    cases same

theorem getMessage_found {s : Session σ} {wait : Nat} {a : Arrival} {as : List Arrival}
    (found : (s.link.await (s.patience wait)).reader.ring.toList = a :: as) :
    getMessage wait s = (.ok (some a.frame),
      { s with
        link := { s.link.await (s.patience wait) with
          reader := (s.link.await (s.patience wait)).reader.take.2 }
        lastReceived := some a.time }) := by
  simp [getMessage, Link.take, Reader.take, Ring.take, found]

theorem getMessage_missed {s : Session σ} {wait : Nat}
    (none : (s.link.await (s.patience wait)).reader.ring.toList = []) :
    let s' : Session σ := { s with link := s.link.await (s.patience wait) }
    getMessage wait s =
      (if s'.isAlive then .ok .none else .error (.linkLost (.readerStopped s.name)), s') := by
  have taken : s.link.take (s.patience wait) = (.none, s.link.await (s.patience wait)) := by
    show ((s.link.await (s.patience wait)).reader.ring.toList.head?,
      { s.link.await (s.patience wait) with
        reader := (s.link.await (s.patience wait)).reader.take.2 }) = _
    rw [none, Link.take_of_nil none]
    rfl
  intro s'
  unfold getMessage
  rw [taken]
  show (if s'.isAlive then _ else _) = _
  split <;> rfl

/-- In a look in which nothing comes between the steps but what is due, the answer and all that is
left are those of `getMessage`. -/
theorem exists_run_getMessage (s : Session σ) (wait : Nat) :
    ∃ turns, let l := (s.ask wait).run turns
      (s.ask wait).Answers turns (getMessage wait s).1 ∧
        l.frames = (getMessage wait s).2.reader.ring.toList ∧
        l.running = (getMessage wait s).2.isAlive ∧
        l.lastReceived = (getMessage wait s).2.lastReceived := by
  obtain ⟨ts, last, ring, running, going_on, looks⟩ := s.exists_run_await wait
  have frames_eq : ((s.ask wait).run ts).frames = _ := congrArg Ring.toList ring
  cases frames : (s.link.await (s.patience wait)).reader.ring.toList with
  | cons a as =>
    have found := looks.trans (took_found (frames_eq.trans frames) _ _)
    refine ⟨ts ++ [.look (s.link.await (s.patience wait)).now], ?_⟩
    rw [getMessage_found frames]
    unfold Answers
    rw [List.dropLast_concat, run_append, run_cons, run_nil, found]
    exact ⟨⟨rfl, going_on⟩, congrArg List.tail frames_eq, running, rfl⟩
  | nil =>
    have none := frames_eq.trans frames
    have late : s.link.now + s.patience wait = (s.link.await (s.patience wait)).now :=
      (Link.take_none (Prod.ext (congrArg List.head? frames) rfl)).symm
    have missed := looks.trans (took_late none (Nat.le_of_eq late))
    refine ⟨ts ++ [.look (s.link.await (s.patience wait)).now] ++
      [.look (s.link.await (s.patience wait)).now], ?_⟩
    rw [getMessage_missed frames]
    unfold Answers
    rw [List.dropLast_concat, run_append, run_append, run_cons, run_nil, run_cons, run_nil, missed]
    refine ⟨⟨?_, nofun⟩, (congrArg List.tail none).trans frames.symm, running, last⟩
    have name : ((s.ask wait).run ts).name = s.name := name_run (s.ask wait) ts
    rw [Look.step, running, name]
    rfl

/-! ### Links that are reported lost -/

/-- However the turns of a look and of the reader fall: the link is reported lost just if the look
has found no frame in the ring and the reader has stopped by the time the mark is read again. All
that was in the ring had been taken by then, but what the reader has put in since, before it
stopped, is there, the newest of it as far as there is room: it is hidden behind the report, and
only the next look finds it. So nothing is left just if the reader has put nothing in since. A look
by itself is one of these: nothing comes between its steps but what is due. -/
theorem lost_iff (s : Session σ) (wait : Nat) :
    (∀ turns e, (s.ask wait).Answers turns (.error e) ↔ e = .linkLost (.readerStopped s.name) ∧
      ∃ before now between now', turns = before ++ .look now :: between ++ [.look now'] ∧
        (s.ask wait).Loses before now between) ∧
    (∀ before now between now', (s.ask wait).Loses before now between →
      let missed := (s.ask wait).run (before ++ [.look now])
      let l := (s.ask wait).run (before ++ .look now :: between ++ [.look now'])
      missed.frames = [] ∧ l.running = false ∧
        l.shared.ring.Newest (brought missed.running between) ∧
        (l.frames = [] ↔ brought missed.running between = []) ∧
        ∀ a as, l.frames = a :: as → ∀ wait t t',
          ((l.again wait).run [.look t, .look t']).stage = .answered (.ok (some a.frame))) ∧
    ∃ turns, let l := (s.ask wait).run turns
      (s.ask wait).Answers turns (getMessage wait s).1 ∧
        l.frames = (getMessage wait s).2.reader.ring.toList ∧
        l.running = (getMessage wait s).2.isAlive ∧
        l.lastReceived = (getMessage wait s).2.lastReceived := by
  refine ⟨fun turns e => answers_error_iff (sound_ask s wait) ⟨wait, rfl⟩, ?_,
    s.exists_run_getMessage wait⟩
  intro before now between now' loses missed l
  have sound := sound_ask s wait
  have none : missed.frames = [] := loses.frames sound
  have newest := newest_run (sound.run _) (.of_empty none) loses.reading
  have until_last : (s.ask wait).run (before ++ .look now :: between) = missed.run between := by
    rw [List.append_cons, run_append]
  have last : l = _ := (run_append ..).trans (step_missed loses.stage loses.stopped now')
  rw [until_last] at last
  have ring : l.shared.ring.Newest (brought missed.running between) := by
    rw [last]
    exact newest
  refine ⟨none, ?_, ring, ring.eq_nil_iff, fun a as there => stage_again (sound.run _) ?_ there⟩
  · rw [last, ← until_last]
    exact loses.stopped
  · show l.stage ≠ .waiting
    rw [last]
    nofun

/-- Nothing has come yet. -/
def quiet : Session StandIn := attach "bench" {} {}

/-- A line that says `ok`, as it comes in behind the end of a wait. -/
def okArrival : Arrival := ⟨⟨Utf8.ofString Token.ok, false⟩, millis 20⟩

/-- The reader puts the line in and stops between the two last steps of a look. -/
def race : List Turn :=
  [.look 0, .look 0] ++ .look (millis 20) :: [.put okArrival, .stop] ++ [.look (millis 20)]

theorem ask_quiet (wait : Nat) : quiet.ask wait =
    ⟨"bench", { ring := .empty defaultCapacity }, true, none, .asked wait⟩ := by
  unfold quiet ask reader isAlive attach Link.connect
  rw [StandIn.AtRest.exchange_eq rfl rfl rfl]
  rfl

theorem quiet_loses :
    (quiet.ask (millis 20)).Loses [.look 0, .look 0] (millis 20) [.put okArrival, .stop] := by
  rw [ask_quiet]
  refine ⟨?_, rfl, by decide, rfl⟩
  show Stage.waiting ≠ .missed
  intro same
  cases same

theorem frames_race : ((quiet.ask (millis 20)).run race).frames = [okArrival] := by
  rw [ask_quiet]
  rfl

/-- The link is reported lost while the line is in the ring, and the next look finds the line. -/
theorem lost_iff_race :
    (quiet.ask (millis 20)).Answers race (.error (.linkLost (.readerStopped "bench"))) ∧
      ((quiet.ask (millis 20)).run race).frames = [okArrival] ∧
      okArrival.frame.verdict? = some .accepted ∧
      let l := ((quiet.ask (millis 20)).run race).again 0
      (l.run [.look (millis 20), .look (millis 20)]).stage =
        .answered (.ok (some okArrival.frame)) := by
  obtain ⟨lost, left, -⟩ := lost_iff quiet (millis 20)
  obtain ⟨-, -, -, -, found⟩ := left _ _ _ (millis 20) quiet_loses
  exact ⟨(lost race _).mpr ⟨rfl, _, _, _, _, rfl, quiet_loses⟩, frames_race, by decide,
    found _ _ frames_race 0 _ _⟩

/-- That a link is reported lost does not mean that nothing is left. -/
theorem not_empty_of_lost : ¬ ∀ (s : Session StandIn) (wait : Nat) (turns : List Turn)
    (cause : LinkLoss), (s.ask wait).Answers turns (.error (.linkLost cause)) →
      ((s.ask wait).run turns).frames = [] ∧ ((s.ask wait).run turns).running = false := by
  intro all
  have lost : (quiet.ask (millis 20)).Answers race (.error (.linkLost (.readerStopped "bench"))) :=
    (answers_error_iff (sound_ask ..) ⟨_, rfl⟩).mpr ⟨rfl, _, _, _, _, rfl, quiet_loses⟩
  have empty := (all quiet _ race _ lost).1
  rw [frames_race] at empty
  cases empty

end Session

end LightLink
