import Mathlib.Data.List.Basic
import LightLink.Proofs.Frame.Fates
import LightLink.Proofs.Ring.Shared
import LightLink.Proofs.Session.Pending

/-!
# A reader without a consumer

A reader that nobody takes frames from has completed what an assembler completes that is fed the
same bytes and is reset at every read that brings none, and it keeps the last frames of it.

* `Assembler.emitted`: the frames of a script, which is a list of reads; `Assembler.stretches`: the
  bytes of a script between its pauses;
* `Assembler.emitted_eq`: the frames of a script are those of its stretches, each one on its own;
* `Reader.Completed`: what a reader has counted and what it keeps;
* `Reader.readAll_script`: what a whole script leads to.
-/

namespace LightLink

namespace Assembler

/-! ## Scripts -/

/-- What a read makes of an assembler: its bytes are pushed, and if there are none it is reset. -/
def readSteps (bytes : Bytes) : List Step :=
  if bytes.isEmpty then [.reset] else bytes.map .push

/-- The frame that is returned, if there is one. -/
def Return.frame? : Return → Option Frame
  | .pushed frame => frame
  | .reset _ => none

/-- The frames that steps complete. -/
def completed (a : Assembler) (steps : List Step) : List Frame :=
  (a.run steps).2.filterMap Return.frame?

/-- The frames of a script. -/
def emitted (script : List Bytes) : List Frame := idle.completed (script.flatMap readSteps)

/-- The bytes of a script between its pauses. -/
def stretches (script : List Bytes) : List Bytes :=
  (script.splitOnP List.isEmpty).map List.flatten

theorem completed_append (a : Assembler) (steps steps' : List Step) :
    a.completed (steps ++ steps') = a.completed steps ++ (a.run steps).1.completed steps' := by
  rw [completed, run_append, List.filterMap_append]
  rfl

/-- Bytes that are pushed are fed. -/
theorem run_map_push (a : Assembler) (bytes : Bytes) :
    (a.run (bytes.map .push)).1 = (a.feed bytes).1 ∧
      a.completed (bytes.map .push) = (a.feed bytes).2 := by
  induction bytes generalizing a with
  | nil => exact ⟨rfl, rfl⟩
  | cons b bytes ih =>
    obtain ⟨state, frames⟩ := ih (a.push b).1
    rw [feed_cons, ← frames]
    refine ⟨state, ?_⟩
    rw [List.map_cons, completed, run, List.filterMap_cons]
    dsimp only [step, Return.frame?]
    cases (a.push b).2 <;> rfl

/-- A read does to an assembler what its steps do. -/
theorem read_ofRead (a : Assembler) (bytes : Bytes) : a.read (.ofRead (.ok bytes)) =
    ((a.run (readSteps bytes)).1, a.completed (readSteps bytes)) := by
  unfold Reading.ofRead readSteps
  dsimp only
  by_cases none : bytes.isEmpty = true
  · rw [if_pos none, if_pos none]
    rfl
  · rw [if_neg none, if_neg none, (a.run_map_push bytes).1, (a.run_map_push bytes).2]
    rfl

/-- A read that is split in two parts makes no difference. -/
theorem readSteps_append {bytes bytes' : Bytes} (some_byte : bytes ≠ [])
    (some_byte' : bytes' ≠ []) :
    readSteps (bytes ++ bytes') = readSteps bytes ++ readSteps bytes' := by
  simp [readSteps, some_byte, some_byte']

theorem emitted_split (front : List Bytes) {bytes bytes' : Bytes} (rest : List Bytes)
    (some_byte : bytes ≠ []) (some_byte' : bytes' ≠ []) :
    emitted (front ++ bytes :: bytes' :: rest) = emitted (front ++ (bytes ++ bytes') :: rest) := by
  unfold emitted
  simp only [List.flatMap_append, List.flatMap_cons, readSteps_append some_byte some_byte',
    List.append_assoc]

/-- Nothing before a pause makes a difference behind it. -/
theorem emitted_pause (front rest : List Bytes) :
    emitted (front ++ [] :: rest) = emitted front ++ emitted rest := by
  have steps : (front ++ [] :: rest).flatMap readSteps =
      front.flatMap readSteps ++ (.reset :: rest.flatMap readSteps) := List.flatMap_append
  unfold emitted
  rw [steps, completed_append]
  rfl

/-- The first stretch goes on where an assembler stands, and the others begin anew. -/
theorem completed_script (a : Assembler) (script : List Bytes) :
    ∃ first others, stretches script = first :: others ∧
      a.completed (script.flatMap readSteps) =
        (a.feed first).2 ++ others.flatMap fun bytes => (idle.feed bytes).2 := by
  induction script generalizing a with
  | nil => exact ⟨[], [], rfl, rfl⟩
  | cons bytes script ih =>
    have cons : stretches (bytes :: script) = if bytes.isEmpty then [] :: stretches script
        else (stretches script).modifyHead (bytes ++ ·) := by
      unfold stretches
      rw [List.splitOnP_cons_eq_if_modifyHead]
      split
      · rfl
      · cases script.splitOnP List.isEmpty <;> rfl
    rw [List.flatMap_cons, completed_append, cons]
    by_cases none : bytes = []
    · subst none
      obtain ⟨first, others, e, frames⟩ := ih idle
      refine ⟨[], first :: others, by rw [e]; rfl, ?_⟩
      rw [List.flatMap_cons, ← frames]
      rfl
    · obtain ⟨first, others, e, frames⟩ := ih (a.feed bytes).1
      have pushed : readSteps bytes = bytes.map .push := if_neg (by simpa using none)
      refine ⟨bytes ++ first, others, ?_, ?_⟩
      · rw [if_neg (by simpa using none), e]
        rfl
      · rw [pushed, (a.run_map_push bytes).1, (a.run_map_push bytes).2, frames, feed_append,
          List.append_assoc]

/-- The frames of a script are those of its stretches, each one on its own. -/
theorem emitted_eq (script : List Bytes) :
    emitted script = (stretches script).flatMap fun bytes => (idle.feed bytes).2 := by
  obtain ⟨first, others, e, frames⟩ := completed_script idle script
  rw [e, List.flatMap_cons]
  exact frames

end Assembler

/-! ## Readers -/

namespace Reader

/-- A reader has completed these frames, and nobody has taken any: it has counted them and keeps the
last of them, as many as there is room for. -/
structure Completed (r : Reader) (fs : List Frame) : Prop where
  received : r.received = fs.length
  frames : r.frames <:+ fs
  length : r.frames.length = min fs.length r.ring.capacity

theorem completed_start (capacity : Nat) : (start capacity).Completed [] :=
  ⟨rfl, List.suffix_rfl, (Nat.zero_min _).symm⟩

namespace Completed

variable {r : Reader} {fs : List Frame} (h : r.Completed fs)

include h

theorem put (f : Frame) (time : Nat) : Completed
    { r with ring := (r.ring.put ⟨f, time⟩).1, received := r.received + 1 } (fs ++ [f]) where
  received := by rw [h.received, List.length_append, List.length_singleton]
  frames := by
    obtain ⟨before, e⟩ := h.frames
    have put := congrArg (List.map Arrival.frame) (r.ring.toList_put ⟨f, time⟩)
    rw [List.map_append, List.map_append] at put
    refine ⟨before ++ (r.ring.put ⟨f, time⟩).2.toList.map Arrival.frame, ?_⟩
    rw [List.append_assoc, ← e, List.append_assoc]
    exact congrArg (before ++ ·) put
  length := by
    have length : r.ring.length = min fs.length r.ring.capacity := by
      rw [← h.length, Reader.frames, List.length_map]
      rfl
    have put := r.ring.length_put ⟨f, time⟩
    rw [length] at put
    rw [List.length_append, List.length_singleton, Ring.capacity_put]
    refine (List.length_map _).trans (put.trans ?_)
    omega

theorem keep (gs : List Frame) (time : Nat) : (r.keep time gs).Completed (fs ++ gs) := by
  induction gs generalizing r fs with
  | nil =>
    rw [List.append_nil]
    exact h
  | cons g gs ih =>
    rw [List.append_cons]
    exact ih (h.put g time)

theorem read (running : r.running = true) (time : Nat) (x : Reading) :
    (r.read time x).Completed (fs ++ (r.assembler.read x).2) := by
  unfold Reader.read
  rw [if_neg (by simp [running])]
  cases x with
  | chunk bytes =>
    exact keep (r := { r with assembler := (r.assembler.feed bytes).1 })
      ⟨h.received, h.frames, h.length⟩ _ time
  | _ =>
    show Completed _ (fs ++ [])
    rw [List.append_nil]
    exact ⟨h.received, h.frames, h.length⟩

/-- A running reader takes in a script and goes on behind it. -/
theorem readAll (running : r.running = true) (time : Nat) (script : List Bytes) :
    ∃ r' : Reader, (∀ reads, r.readAll time (script.map .ok ++ reads) = r'.readAll time reads) ∧
      r'.running = true ∧ r'.ring.capacity = r.ring.capacity ∧
      r'.Completed (fs ++ r.assembler.completed (script.flatMap Assembler.readSteps)) := by
  induction script generalizing r fs with
  | nil =>
    refine ⟨r, fun _ => rfl, running, rfl, ?_⟩
    show r.Completed (fs ++ [])
    rwa [List.append_nil]
  | cons bytes script ih =>
    have goes_on : Reading.ofRead (.ok bytes) ≠ .failure := by
      unfold Reading.ofRead
      dsimp only
      split <;> nofun
    have completed := h.read running time (.ofRead (.ok bytes))
    have assembler := r.assembler_read (x := .ofRead (.ok bytes)) running time
    rw [Assembler.read_ofRead] at completed assembler
    obtain ⟨r', reads_eq, running', capacity, completed'⟩ :=
      ih completed (running_read running goes_on time)
    refine ⟨r', fun reads => ?_, running', capacity.trans (capacity_read time), ?_⟩
    · rw [← reads_eq, List.map_cons, List.cons_append, Reader.readAll, if_pos running]
    · rw [assembler, List.append_assoc] at completed'
      rw [List.flatMap_cons, Assembler.completed_append]
      exact completed'

end Completed

/-- A reader that nobody takes frames from, once a script has ended in a failure: it has counted the
frames of the script and keeps the last of them, as many as there is room for; it has stopped and
makes no further read. The frames are those of the stretches between the pauses, so it makes no
difference how the bytes between two pauses are read, and what comes behind a pause is what a script
that begins there brings. -/
theorem readAll_script (capacity time : Nat) (script : List Bytes) (fault : Fault)
    (more : List (Except Fault Bytes)) :
    let (r, left) := (start capacity).readAll time (script.map .ok ++ .error fault :: more)
    let fs := Assembler.emitted script
    (r.received = fs.length ∧ r.frames <:+ fs ∧
      r.frames.length = min r.received (max capacity 1) ∧ r.running = false ∧ left = more) ∧
    fs = (Assembler.stretches script).flatMap (fun bytes => (Assembler.idle.feed bytes).2) ∧
    (∀ front bytes bytes' rest, script = front ++ (bytes ++ bytes') :: rest → bytes ≠ [] →
      bytes' ≠ [] → fs = Assembler.emitted (front ++ bytes :: bytes' :: rest)) ∧
    ∀ front rest, script = front ++ [] :: rest →
      fs = Assembler.emitted front ++ Assembler.emitted rest := by
  obtain ⟨r', reads_eq, running, capacity_eq, completed⟩ :=
    (completed_start capacity).readAll rfl time script
  have failed : r'.readAll time (.error fault :: more) = ({ r' with running := false }, more) := by
    have stopped : r'.read time (.ofRead (.error fault)) = { r' with running := false } := by
      unfold read
      rw [if_neg (by simp [running])]
      rfl
    rw [readAll, if_pos running, stopped]
    cases more <;> rfl
  rw [reads_eq, failed]
  refine ⟨⟨completed.received, completed.frames, ?_, rfl, rfl⟩, Assembler.emitted_eq script, ?_, ?_⟩
  · have length := completed.length
    rw [← completed.received, capacity_eq] at length
    exact length
  · rintro front bytes bytes' rest rfl some_byte some_byte'
    exact (Assembler.emitted_split front rest some_byte some_byte').symm
  · rintro front rest rfl
    exact Assembler.emitted_pause front rest

/-- A line in two reads, a message that a pause cuts off, a line behind it and one that does not
end; there is room for one frame. -/
theorem readAll_script_quiet :
    let script : List Bytes := [[0x6F], [0x6B, 10], [0xFC, 0], [], [0x78, 10], [0x79]]
    let (r, left) := (start 0).readAll 0 (script.map .ok ++ [.error .streamClosed, .ok [0x7A]])
    r.received = 2 ∧ r.frames <:+ [⟨[0x6F, 0x6B], false⟩, ⟨[0x78], false⟩] ∧ r.frames.length = 1 ∧
      left = [.ok [0x7A]] ∧
      Assembler.emitted script =
        Assembler.emitted [[0x6F], [0x6B], [10], [0xFC, 0], [], [0x78, 10], [0x79]] ∧
      Assembler.emitted script =
        Assembler.emitted [[0x6F], [0x6B, 10], [0xFC, 0]] ++
          Assembler.emitted [[0x78, 10], [0x79]] := by
  intro script
  have emitted : Assembler.emitted script = [⟨[0x6F, 0x6B], false⟩, ⟨[0x78], false⟩] := by decide
  obtain ⟨⟨received, frames, length, -, left⟩, -, split, pause⟩ :=
    readAll_script 0 0 script .streamClosed [.ok [0x7A]]
  rw [emitted] at received frames
  rw [received] at length
  exact ⟨received, frames, length, left, split [[0x6F]] [0x6B] [10] _ rfl (by decide) (by decide),
    pause [[0x6F], [0x6B, 10], [0xFC, 0]] [[0x78, 10], [0x79]] rfl⟩

end Reader

end LightLink
