import LightLink.Proofs.Frame.Segments
import LightLink.Session.Basic

/-!
# What a link has to give

What a link will give, and by when, is settled by what has been sent, however it is waited for.

* `Link.pending`: the frames that are there or come of what has been sent, in the order in which
  they are taken; `Link.availableBy`: those of them that are there by a time;
* `Link.Fit`: nothing that comes is lost;
* `Link.Gives`: what a wait changes, given the frames that it takes;
* `Session.awaitUntil_gives`: a wait for a verdict takes frames up to the first that decides, and
  misses none that is there before its deadline.
-/

namespace LightLink

/-! ## Readings -/

namespace Assembler

/-- What a reading that does not fail completes. -/
def read (a : Assembler) : Reading → Assembler × List Frame
  | .chunk bytes => a.feed bytes
  | .pause => (a.reset, [])
  | .failure => (a, [])

/-- What readings complete, one after the other. -/
def readAll (a : Assembler) : List (Nat × Reading) → Assembler × List Frame
  | [] => (a, [])
  | x :: xs => (((a.read x.2).1.readAll xs).1, (a.read x.2).2 ++ ((a.read x.2).1.readAll xs).2)

@[simp] theorem readAll_nil (a : Assembler) : a.readAll [] = (a, []) := rfl

theorem readAll_append (a : Assembler) (xs ys : List (Nat × Reading)) :
    a.readAll (xs ++ ys) =
      (((a.readAll xs).1.readAll ys).1, (a.readAll xs).2 ++ ((a.readAll xs).1.readAll ys).2) := by
  induction xs generalizing a with
  | nil => rfl
  | cons x xs ih =>
    rw [List.cons_append, readAll, readAll, ih, List.append_assoc]

end Assembler

/-! ## The ring -/

/-- The frames that a reader keeps. -/
def Reader.frames (r : Reader) : List Frame := r.ring.toList.map Arrival.frame

namespace Reader

@[simp] theorem capacity_keep (r : Reader) (time : Nat) (fs : List Frame) :
    (r.keep time fs).ring.capacity = r.ring.capacity := by
  induction fs generalizing r with
  | nil => rfl
  | cons f fs ih =>
    rw [keep, ih]
    unfold Ring.put
    split <;> rfl

@[simp] theorem assembler_keep (r : Reader) (time : Nat) (fs : List Frame) :
    (r.keep time fs).assembler = r.assembler := by
  induction fs generalizing r with
  | nil => rfl
  | cons f fs ih => rw [keep, ih]

/-- Frames that there is room for are all kept. -/
theorem frames_keep {r : Reader} {fs : List Frame}
    (room : r.frames.length + fs.length ≤ r.ring.capacity) (time : Nat) :
    (r.keep time fs).frames = r.frames ++ fs := by
  induction fs generalizing r with
  | nil => exact (List.append_nil _).symm
  | cons f fs ih =>
    rw [List.length_cons] at room
    have free : r.ring.toList.length < r.ring.capacity := by
      rw [frames, List.length_map] at room
      omega
    have put : (r.ring.put ⟨f, time⟩).1.toList = r.ring.toList ++ [⟨f, time⟩] := by
      rw [Ring.put, dif_pos free]
    have capacity : (r.ring.put ⟨f, time⟩).1.capacity = r.ring.capacity := by
      rw [Ring.put, dif_pos free]
    have kept : frames { r with ring := (r.ring.put ⟨f, time⟩).1, received := r.received + 1 } =
        r.frames ++ [f] := by
      simp [frames, put]
    rw [keep, ih, kept, List.append_assoc, List.singleton_append]
    rw [kept, capacity, List.length_append, List.length_singleton]
    omega

variable {r : Reader} {x : Reading}

theorem capacity_read (time : Nat) : (r.read time x).ring.capacity = r.ring.capacity := by
  unfold read
  split
  · rfl
  · cases x <;> simp

/-- A running reader goes on running unless a read fails. -/
theorem running_read (running : r.running = true) (sound : x ≠ .failure) (time : Nat) :
    (r.read time x).running = true := by
  unfold read
  cases x <;> simp_all

theorem assembler_read (running : r.running = true) (time : Nat) :
    (r.read time x).assembler = (r.assembler.read x).1 := by
  unfold read
  rw [if_neg (by simp [running])]
  cases x <;> simp [Assembler.read]

theorem frames_read (running : r.running = true)
    (room : r.frames.length + (r.assembler.read x).2.length ≤ r.ring.capacity) (time : Nat) :
    (r.read time x).frames = r.frames ++ (r.assembler.read x).2 := by
  unfold read
  rw [if_neg (by simp [running])]
  cases x with
  | chunk bytes =>
    exact frames_keep (r := { r with assembler := (r.assembler.feed bytes).1 }) room time
  | _ => exact (List.append_nil _).symm

end Reader

/-! ## Links -/

namespace Link

variable {σ : Type}

/-- Of readings that come one after the other, those that are due at a time. -/
def due (time : Nat) (coming : List (Nat × Reading)) : List (Nat × Reading) :=
  coming.takeWhile (·.1 ≤ time)

/-- The readings that are not due. -/
def notDue (time : Nat) (coming : List (Nat × Reading)) : List (Nat × Reading) :=
  coming.dropWhile (·.1 ≤ time)

theorem due_append_notDue (time : Nat) (coming : List (Nat × Reading)) :
    due time coming ++ notDue time coming = coming :=
  List.takeWhile_append_dropWhile

/-- What is due later is what is due now and what of the rest is due then. -/
theorem due_max (now time : Nat) (coming : List (Nat × Reading)) :
    due (max now time) coming = due now coming ++ due time (notDue now coming) := by
  induction coming with
  | nil => rfl
  | cons c coming ih =>
    unfold due notDue at ih ⊢
    by_cases h : c.1 ≤ now
    · have h' : c.1 ≤ max now time := by omega
      simp only [List.takeWhile_cons, List.dropWhile_cons, h, h', decide_true, if_true,
        List.cons_append, ih]
    · have iff : c.1 ≤ max now time ↔ c.1 ≤ time := by omega
      simp only [List.takeWhile_cons, List.dropWhile_cons, h, iff, decide_false, Bool.false_eq_true,
        if_false, List.nil_append]
      by_cases h' : c.1 ≤ time
      · simp only [h', decide_true, if_true, List.cons.injEq, true_and]
        rw [show max now time = time by omega]
      · simp [h']

theorem mem_of_mem_notDue {time : Nat} {coming : List (Nat × Reading)} {c : Nat × Reading}
    (h : c ∈ notDue time coming) : c ∈ coming :=
  (List.dropWhile_suffix _).subset h

/-- The frames that are there or come of what has been sent. -/
def pending (l : Link σ) : List Frame :=
  l.reader.frames ++ (l.reader.assembler.readAll l.coming).2

/-- The frames that are there by a time if none is taken. -/
def availableBy (l : Link σ) (time : Nat) : List Frame :=
  l.reader.frames ++ (l.reader.assembler.readAll (due time l.coming)).2

/-- What is left of a frame once all has come. -/
def rest (l : Link σ) : Assembler := (l.reader.assembler.readAll l.coming).1

/-- The reader runs, no read will fail, and there is room for all that comes. -/
structure Fit (l : Link σ) : Prop where
  running : l.reader.running = true
  sound : ∀ c ∈ l.coming, c.2 ≠ .failure
  room : l.pending.length ≤ l.reader.ring.capacity

theorem availableBy_append (l : Link σ) (time : Nat) : l.availableBy time ++
    ((l.reader.assembler.readAll (due time l.coming)).1.readAll (notDue time l.coming)).2 =
      l.pending := by
  rw [availableBy, pending, List.append_assoc]
  conv => rhs; rw [← due_append_notDue time l.coming, Assembler.readAll_append]

theorem Fit.length_availableBy_le {l : Link σ} (fit : l.Fit) (time : Nat) :
    (l.availableBy time).length ≤ l.reader.ring.capacity := by
  have le := fit.room
  rw [← l.availableBy_append time, List.length_append] at le
  omega

/-- Later there is more. -/
theorem availableBy_mono (l : Link σ) {s t : Nat} (h : s ≤ t) :
    l.availableBy s <+: l.availableBy t := by
  rw [← Nat.max_eq_right h]
  unfold availableBy
  rw [due_max, Assembler.readAll_append, ← List.append_assoc]
  exact List.prefix_append ..

/-- What a wait changes that takes these frames: they are the first, and they are there when it is
over. -/
structure Gives (l : Link σ) (taken : List Frame) (l' : Link σ) : Prop where
  fit : l'.Fit
  far : l'.far = l.far
  now_le : l.now ≤ l'.now
  rest : l'.rest = l.rest
  coming : ∀ c ∈ l'.coming, c ∈ l.coming
  capacity : l'.reader.ring.capacity = l.reader.ring.capacity
  pending : l.pending = taken ++ l'.pending
  availableBy : ∀ t, l.availableBy (max l'.now t) = taken ++ l'.availableBy t

/-- All that is due has been taken in. -/
def Settled (l : Link σ) : Prop := ∀ t, l.availableBy (max l.now t) = l.availableBy t

namespace Gives

variable {l l' l'' : Link σ} {fs gs : List Frame}

theorem refl (fit : l.Fit) (settled : l.Settled) : Gives l [] l :=
  ⟨fit, rfl, Nat.le_refl _, rfl, fun _ h => h, rfl, rfl, settled⟩

theorem settled (h : Gives l fs l') : l'.Settled := by
  intro t
  have e := h.availableBy (max l'.now t)
  rw [← Nat.max_assoc, Nat.max_self, h.availableBy t] at e
  exact (List.append_cancel_left e).symm

theorem trans (h : Gives l fs l') (h' : Gives l' gs l'') : Gives l (fs ++ gs) l'' where
  fit := h'.fit
  far := h'.far.trans h.far
  now_le := Nat.le_trans h.now_le h'.now_le
  rest := h'.rest.trans h.rest
  coming c mem := h.coming c (h'.coming c mem)
  capacity := h'.capacity.trans h.capacity
  pending := by rw [h.pending, h'.pending, List.append_assoc]
  availableBy t := by
    have le := h'.now_le
    rw [List.append_assoc, ← h'.availableBy t, ← h.availableBy]
    congr 1
    omega

/-- What is taken is there when the wait is over. -/
theorem prefix_availableBy (h : Gives l fs l') : fs <+: l.availableBy l'.now := by
  have e := h.availableBy l'.now
  rw [Nat.max_self] at e
  rw [e]
  exact List.prefix_append ..

end Gives

/-! ### Reading -/

/-- Taking in what is due keeps what it completes. -/
theorem takeIn_eq {r : Reader} {coming : List (Nat × Reading)} (running : r.running = true)
    (sound : ∀ c ∈ coming, c.2 ≠ .failure) (now : Nat)
    (room : (r.frames ++ (r.assembler.readAll (due now coming)).2).length ≤ r.ring.capacity) :
    (takeIn now r coming).2 = notDue now coming ∧
      (takeIn now r coming).1.running = true ∧
      (takeIn now r coming).1.ring.capacity = r.ring.capacity ∧
      (takeIn now r coming).1.assembler = (r.assembler.readAll (due now coming)).1 ∧
      (takeIn now r coming).1.frames = r.frames ++ (r.assembler.readAll (due now coming)).2 := by
  induction coming generalizing r with
  | nil => exact ⟨rfl, running, rfl, rfl, (List.append_nil _).symm⟩
  | cons c coming ih =>
    obtain ⟨t, x⟩ := c
    rw [takeIn]
    by_cases h : t ≤ now
    · have cons : due now ((t, x) :: coming) = (t, x) :: due now coming := by simp [due, h]
      rw [cons, Assembler.readAll] at room ⊢
      dsimp only at room ⊢
      rw [List.length_append, List.length_append] at room
      have assembler := r.assembler_read (x := x) running t
      have frames := Reader.frames_read (x := x) running (by omega) t
      have e := ih (Reader.running_read running (sound _ (.head _)) t)
        (fun c mem => sound c (.tail _ mem))
        (by rw [assembler, frames, Reader.capacity_read, List.length_append, List.length_append]
            omega)
      rw [assembler, frames, Reader.capacity_read, List.append_assoc] at e
      rw [if_pos h, notDue, List.dropWhile_cons, if_pos (by simpa using h)]
      exact e
    · rw [if_neg h]
      simp [due, notDue, h, running]

variable {l : Link σ}

theorem gives_settle (fit : l.Fit) : Gives l [] l.settle := by
  obtain ⟨coming, running, capacity, assembler, frames⟩ :=
    takeIn_eq fit.running fit.sound l.now (fit.length_availableBy_le l.now)
  have all := Assembler.readAll_append l.reader.assembler (due l.now l.coming)
    (notDue l.now l.coming)
  rw [due_append_notDue] at all
  have pending : l.settle.pending = l.pending := by
    rw [Link.pending, Link.pending, all, ← List.append_assoc, ← frames, ← assembler, ← coming]
    rfl
  have subset : ∀ c ∈ l.settle.coming, c ∈ l.coming := by
    intro c mem
    change c ∈ (takeIn l.now l.reader l.coming).2 at mem
    rw [coming] at mem
    exact mem_of_mem_notDue mem
  refine ⟨⟨running, ?_, ?_⟩, rfl, Nat.le_refl _, ?_, ?_, capacity, pending.symm, ?_⟩
  · intro c mem
    exact fit.sound c (subset c mem)
  · rw [pending]
    exact capacity ▸ fit.room
  · rw [Link.rest, Link.rest, all, ← assembler, ← coming]
    rfl
  · exact subset
  · intro t
    rw [Link.availableBy, Link.availableBy, now_settle, due_max, Assembler.readAll_append,
      ← List.append_assoc, ← frames, ← assembler, ← coming]
    rfl

/-- What is there once all that is due has been taken in. -/
theorem frames_settle (fit : l.Fit) : l.settle.reader.frames = l.availableBy l.now :=
  (takeIn_eq fit.running fit.sound l.now (fit.length_availableBy_le l.now)).2.2.2.2

/-! ### Waiting -/

theorem isEmpty_iff {r : Reader} : r.ring.isEmpty = true ↔ r.frames = [] := by
  rw [Reader.frames, List.map_eq_nil_iff, Ring.isEmpty, List.isEmpty_iff]

/-- A wait for a first arrival ends no later than any time by which a frame is there. -/
theorem firstArrival?_le {r : Reader} {coming : List (Nat × Reading)} (running : r.running = true)
    (sound : ∀ c ∈ coming, c.2 ≠ .failure) (empty : r.frames = [])
    (room : (r.assembler.readAll coming).2.length ≤ r.ring.capacity) (deadline now : Nat) {t : Nat}
    (there : (r.assembler.readAll (due t coming)).2 ≠ []) :
    (firstArrival? deadline now r coming).getD deadline ≤ max now t := by
  induction coming generalizing r now with
  | nil => exact absurd rfl there
  | cons c coming ih =>
    obtain ⟨u, x⟩ := c
    have le : u ≤ t := by
      refine Nat.le_of_not_lt fun h => there ?_
      rw [due, List.takeWhile_cons, if_neg (by simpa using h)]
      rfl
    rw [firstArrival?]
    by_cases due_in_time : u ≤ deadline
    · rw [if_pos due_in_time]
      rw [Assembler.readAll] at room
      dsimp only at room
      rw [List.length_append] at room
      have frames := Reader.frames_read (x := x) running (by rw [empty]; simp; omega) u
      have assembler := r.assembler_read (x := x) running u
      rw [empty, List.nil_append] at frames
      by_cases first : (r.read u x).frames = []
      · rw [if_pos (isEmpty_iff.mpr first)]
        rw [due, List.takeWhile_cons, if_pos (by simpa using le), Assembler.readAll] at there
        have ih := ih (Reader.running_read running (sound _ (.head _)) u)
          (fun c mem => sound c (.tail _ mem)) first
          (by rw [assembler, Reader.capacity_read]; omega) (max now u)
          (by rw [assembler]; intro none; exact there (by rw [← frames, first]; exact none))
        refine Nat.le_trans ih ?_
        omega
      · rw [if_neg (by rw [isEmpty_iff]; exact first)]
        show max now u ≤ max now t
        omega
    · rw [if_neg due_in_time]
      show deadline ≤ max now t
      omega

theorem firstArrival?_le_deadline {deadline now t : Nat} {r : Reader}
    {coming : List (Nat × Reading)} (h : firstArrival? deadline now r coming = some t) :
    t ≤ max now deadline := by
  induction coming generalizing r now with
  | nil => cases h
  | cons c coming ih =>
    rw [firstArrival?] at h
    split at h
    · split at h
      · have le := ih h
        omega
      · cases h
        omega
    · cases h

/-- A wait is no longer than it may be. -/
theorem now_await_le (l : Link σ) (wait : Nat) : (l.await wait).now ≤ l.now + wait := by
  unfold await
  split
  · rw [now_settle]
    show l.settle.wakeTime _ ≤ _
    unfold wakeTime
    cases h : firstArrival? (l.now + wait) l.settle.now l.settle.reader l.settle.coming with
    | none => exact Nat.le_refl _
    | some t =>
      have le := firstArrival?_le_deadline h
      rw [now_settle] at le
      show t ≤ _
      omega
  · exact Nat.le_add_right ..

theorem gives_await (fit : l.Fit) (wait : Nat) :
    Gives l [] (l.await wait) ∧
      (l.await wait).reader.frames = l.availableBy (l.await wait).now ∧
      ∀ t, l.availableBy t ≠ [] → (l.await wait).now ≤ max l.now t := by
  have settled := gives_settle fit
  unfold await
  by_cases empty : l.settle.reader.frames = []
  · rw [if_pos (isEmpty_iff.mpr empty)]
    let later : Link σ := { l.settle with now := l.settle.wakeTime (l.now + wait) }
    have le : l.now ≤ later.now := by
      have le := now_le_await l wait
      rwa [await, if_pos (isEmpty_iff.mpr empty)] at le
    have fit' : later.Fit := ⟨settled.fit.running, settled.fit.sound, settled.fit.room⟩
    have gives := gives_settle fit'
    have availableBy : ∀ t,
        l.availableBy (max later.now t) = later.availableBy (max later.now t) := by
      intro t
      have e := settled.availableBy (max later.now t)
      rw [now_settle, Nat.max_eq_right (by omega)] at e
      exact e
    refine ⟨⟨gives.fit, gives.far.trans settled.far, le, gives.rest.trans settled.rest, ?_,
      gives.capacity.trans settled.capacity, settled.pending.trans gives.pending, ?_⟩, ?_, ?_⟩
    · exact fun c mem => settled.coming c (gives.coming c mem)
    · intro t
      exact (availableBy t).trans (gives.availableBy t)
    · have e := availableBy later.now
      rw [Nat.max_self] at e
      exact (frames_settle fit').trans e.symm
    · intro t there
      have there' : l.settle.availableBy t ≠ [] := by
        have e := settled.availableBy t
        rw [List.nil_append] at e
        rw [← e]
        intro none
        have le := l.availableBy_mono (Nat.le_max_right l.now t)
        rw [now_settle] at none
        rw [none] at le
        exact there (List.prefix_nil.mp le)
      rw [Link.availableBy, empty, List.nil_append] at there'
      have room := settled.fit.room
      rw [Link.pending, empty, List.nil_append] at room
      exact firstArrival?_le settled.fit.running settled.fit.sound empty room _ _ there'
  · rw [if_neg (by rw [isEmpty_iff]; exact empty)]
    exact ⟨settled, frames_settle fit, fun t _ => Nat.le_max_left ..⟩

/-- Nothing is taken out of a reader that keeps nothing. -/
theorem take_of_nil {r : Reader} (h : r.ring.toList = []) : r.take.2 = r := by
  obtain ⟨assembler, ⟨capacity, entries, pos, le⟩, received, running⟩ := r
  obtain rfl : entries = [] := h
  rfl

/-- Taking out the oldest frame that is there. -/
theorem Gives.take {l' : Link σ} {fs : List Frame} (h : Gives l fs l') {a : Arrival}
    {as : List Arrival} (first : l'.reader.ring.toList = a :: as) :
    Gives l (fs ++ [a.frame]) { l' with reader := l'.reader.take.2 } := by
  have frames : l'.reader.frames = a.frame :: l'.reader.take.2.frames := by
    simp [Reader.frames, Reader.take, Ring.take, first]
  have pending : l'.pending =
      a.frame :: Link.pending { l' with reader := l'.reader.take.2 } := by
    rw [Link.pending, frames]
    rfl
  refine ⟨⟨h.fit.running, h.fit.sound, ?_⟩, h.far, h.now_le, h.rest, h.coming, h.capacity, ?_, ?_⟩
  · have room := h.fit.room
    rw [pending, List.length_cons] at room
    exact Nat.le_of_succ_le room
  · rw [h.pending, pending, List.append_assoc]
    rfl
  · intro t
    have e : l'.availableBy t =
        a.frame :: Link.availableBy { l' with reader := l'.reader.take.2 } t := by
      rw [Link.availableBy, frames]
      rfl
    rw [List.append_assoc]
    exact (h.availableBy t).trans (congrArg _ e)

theorem gives_take_some {l' : Link σ} (fit : l.Fit) {wait : Nat} {a : Arrival}
    (h : l.take wait = (some a, l')) : Gives l [a.frame] l' ∧
      ∀ t, l.availableBy t ≠ [] → l'.now ≤ max l.now t := by
  obtain ⟨gives, -, prompt⟩ := gives_await fit wait
  simp only [Link.take, Reader.take, Prod.mk.injEq] at h
  obtain ⟨taken, rfl⟩ := h
  obtain ⟨as, first⟩ := List.head?_eq_some_iff.mp taken
  exact ⟨gives.take first, prompt⟩

theorem gives_take_none {l' : Link σ} (fit : l.Fit) {wait : Nat}
    (h : l.take wait = (none, l')) :
    Gives l [] l' ∧ l'.now = l.now + wait ∧ l.availableBy l'.now = [] := by
  have now := take_none h
  obtain ⟨gives, frames, -⟩ := gives_await fit wait
  simp only [Link.take, Prod.mk.injEq] at h
  obtain ⟨taken, rfl⟩ := h
  have none : (l.await wait).reader.ring.toList = [] := List.head?_eq_none_iff.mp taken
  rw [take_of_nil none] at now ⊢
  refine ⟨gives, now, ?_⟩
  rw [← frames, Reader.frames, none]
  rfl

theorem gives_pass (fit : l.Fit) (settled : l.Settled) (time : Nat) : Gives l [] (l.pass time) := by
  have fit' : Fit { l with now := l.now + time } := ⟨fit.running, fit.sound, fit.room⟩
  have gives := gives_settle fit'
  refine ⟨gives.fit, gives.far, Nat.le_add_right .., gives.rest, gives.coming, gives.capacity,
    gives.pending, fun t => ?_⟩
  rw [← settled (max (l.pass time).now t)]
  exact (settled _).trans (gives.availableBy t)

/-! ### Sending -/

theorem due_append_of_le {coming sent : List (Nat × Reading)} {time : Nat}
    (h : ∀ c ∈ coming, c.1 ≤ time) : due time (coming ++ sent) = coming ++ due time sent :=
  List.takeWhile_append_of_pos (by simpa using h)

theorem due_append_of_lt {coming sent : List (Nat × Reading)} {time : Nat}
    (h : ∀ d ∈ sent, time < d.1) : due time (coming ++ sent) = due time coming := by
  induction coming with
  | nil =>
    cases sent with
    | nil => rfl
    | cons d sent =>
      have lt := h d (.head _)
      simp only [due, List.nil_append, List.takeWhile_cons, List.takeWhile_nil]
      rw [if_neg (by simpa using lt)]
  | cons c coming ih =>
    unfold due at ih ⊢
    rw [List.cons_append, List.takeWhile_cons, List.takeWhile_cons, ih]

/-- The link with more to come, behind all that comes. -/
def extend (l : Link σ) (sent : List (Nat × Reading)) : Link σ :=
  { l with coming := l.coming ++ sent }

section Extend

variable {sent : List (Nat × Reading)} (idle : l.rest = .idle)

include idle

theorem pending_extend :
    (l.extend sent).pending = l.pending ++ (Assembler.idle.readAll sent).2 := by
  unfold Link.rest at idle
  rw [Link.pending, Link.pending, extend, Assembler.readAll_append, idle, List.append_assoc]

theorem rest_extend : (l.extend sent).rest = (Assembler.idle.readAll sent).1 := by
  unfold Link.rest at idle
  rw [Link.rest, extend, Assembler.readAll_append, idle]

theorem fit_extend (fit : l.Fit) (sound : ∀ c ∈ sent, c.2 ≠ .failure)
    (room : (l.pending ++ (Assembler.idle.readAll sent).2).length ≤ l.reader.ring.capacity) :
    (l.extend sent).Fit := by
  refine ⟨fit.running, fun c mem => ?_, ?_⟩
  · exact (List.mem_append.mp mem).elim (fit.sound c) (sound c)
  · rw [pending_extend idle]
    exact room

/-- Once all has come that came before, what was sent comes. -/
theorem availableBy_extend_of_le {time : Nat} (h : ∀ c ∈ l.coming, c.1 ≤ time) :
    (l.extend sent).availableBy time =
      l.pending ++ (Assembler.idle.readAll (due time sent)).2 := by
  unfold Link.rest at idle
  rw [Link.availableBy, Link.pending, extend, due_append_of_le h, Assembler.readAll_append, idle,
    List.append_assoc]

omit idle in
/-- Before it comes it makes no difference. -/
theorem availableBy_extend_of_lt {time : Nat} (h : ∀ d ∈ sent, time < d.1) :
    (l.extend sent).availableBy time <+: l.pending := by
  have e : (l.extend sent).availableBy time = l.availableBy time := by
    rw [Link.availableBy, extend, due_append_of_lt h]
    rfl
  rw [e, ← l.availableBy_append time]
  exact List.prefix_append ..

end Extend

end Link

/-! ## Sessions -/

namespace Session

variable {σ α : Type} {s s' : Session σ}

/-- What a wait of a session changes that takes these frames. -/
structure Gives (s : Session σ) (taken : List Frame) (s' : Session σ) : Prop where
  link : s.link.Gives taken s'.link
  config : s'.config = s.config

theorem Gives.trans {s'' : Session σ} {fs gs : List Frame} (h : Gives s fs s')
    (h' : Gives s' gs s'') : Gives s (fs ++ gs) s'' :=
  ⟨h.link.trans h'.link, h'.config.trans h.config⟩

theorem gives_getMessage_some (fit : s.link.Fit) {wait : Nat} {f : Frame}
    (h : getMessage wait s = (.ok (some f), s')) : Gives s [f] s' ∧
      ∀ t, s.link.availableBy t ≠ [] → s'.link.now ≤ max s.link.now t := by
  have patience : s.patience wait = wait := if_pos fit.running
  simp only [getMessage, patience] at h
  cases taken : s.link.take wait with
  | mk a link =>
    rw [taken] at h
    cases a with
    | none => simp only at h; split at h <;> cases h
    | some a =>
      cases h
      obtain ⟨gives, prompt⟩ := Link.gives_take_some fit taken
      exact ⟨⟨gives, rfl⟩, prompt⟩

theorem gives_getMessage_none (fit : s.link.Fit) {wait : Nat}
    (h : getMessage wait s = (.ok none, s')) : Gives s [] s' ∧
      s'.link.now = s.link.now + wait ∧ s.link.availableBy s'.link.now = [] := by
  have patience : s.patience wait = wait := if_pos fit.running
  simp only [getMessage, patience] at h
  cases taken : s.link.take wait with
  | mk a link =>
    rw [taken] at h
    cases a with
    | some a => cases h
    | none =>
      simp only at h
      split at h
      · cases h
        obtain ⟨gives, now, none⟩ := Link.gives_take_none fit taken
        exact ⟨⟨gives, rfl⟩, now, none⟩
      · cases h

theorem getMessage_ne_error (fit : s.link.Fit) {wait : Nat} {e : TransportError} :
    getMessage wait s ≠ (.error e, s') := by
  intro h
  have patience : s.patience wait = wait := if_pos fit.running
  simp only [getMessage, patience] at h
  cases taken : s.link.take wait with
  | mk a link =>
    rw [taken] at h
    cases a with
    | some a => cases h
    | none =>
      have alive : isAlive { s with link } = true := (Link.gives_take_none fit taken).1.fit.running
      simp only [alive, if_true] at h
      cases h

theorem now_getMessage_le (wait : Nat) (s : Session σ) :
    (getMessage wait s).2.link.now ≤ s.link.now + wait := by
  have patience : s.patience wait ≤ wait := by
    unfold patience
    split <;> omega
  have le := s.link.now_await_le (s.patience wait)
  rw [← Link.now_take] at le
  unfold getMessage
  cases taken : s.link.take (s.patience wait) with
  | mk a link =>
    rw [taken] at le
    cases a with
    | some a => exact Nat.le_trans le (Nat.add_le_add_left patience _)
    | none =>
      dsimp only
      split <;> exact Nat.le_trans le (Nat.add_le_add_left patience _)

/-- A wait is over at its deadline. -/
theorem now_awaitUntil_le (deadline poll : Nat) (verdict : Frame → Option α) (s : Session σ) :
    (awaitUntil deadline poll verdict s).2.link.now ≤ max s.link.now deadline := by
  have look : ∀ {s s' : Session σ} {found}, ¬ deadline ≤ s.link.now →
      getMessage (slice poll (deadline - s.link.now)) s = (found, s') →
      s'.link.now ≤ deadline := by
    intro s s' found within h
    have le := now_getMessage_le (slice poll (deadline - s.link.now)) s
    have le' := slice_le poll (deadline - s.link.now)
    rw [h] at le
    dsimp only at le
    omega
  fun_induction awaitUntil deadline poll verdict s with
  | case1 s late => exact Nat.le_max_left ..
  | case2 s within e s' h => exact Nat.le_trans (look within h) (Nat.le_max_right ..)
  | case3 s within s' h ih =>
    have le := look within h
    omega
  | case4 s within f s' h v decided => exact Nat.le_trans (look within h) (Nat.le_max_right ..)
  | case5 s within f s' h undecided ih =>
    have le := look within h
    omega

/-- What the frames that a wait has taken have to do with its result: the last one has decided, or
none has and all that is there before the deadline has been taken. -/
def Decides (verdict : Frame → Option α) (deadline : Nat) (l : Link σ) (taken : List Frame) :
    Except TransportError (Option α) → Prop
  | .error _ => False
  | .ok none => (∀ f ∈ taken, verdict f = none) ∧
      (l.now < deadline → ∀ t < deadline, l.availableBy t <+: taken)
  | .ok (some v) => ∃ front f, taken = front ++ [f] ∧ (∀ g ∈ front, verdict g = none) ∧
      verdict f = some v

/-- A look that has taken frames that do not decide comes before a wait that goes on. -/
theorem Decides.append {verdict : Frame → Option α} {deadline : Nat} {fs taken : List Frame}
    {result : Except TransportError (Option α)} (gives : Gives s fs s')
    (undecided : ∀ f ∈ fs, verdict f = none)
    (within : ∀ t < deadline, s.link.availableBy t ≠ [] → s'.link.now < deadline)
    (h : Decides verdict deadline s'.link taken result) :
    Decides verdict deadline s.link (fs ++ taken) result := by
  match result, h with
  | .ok none, ⟨others, all⟩ =>
    refine ⟨fun f mem => (List.mem_append.mp mem).elim (undecided f) (others f), fun _ t lt => ?_⟩
    by_cases there : s.link.availableBy t = []
    · rw [there]
      exact List.nil_prefix
    · have later := (s.link).availableBy_mono (Nat.le_max_right s'.link.now t)
      rw [gives.link.availableBy t] at later
      exact later.trans ((List.prefix_append_right_inj fs).mpr (all (within t lt there) t lt))
  | .ok (some v), ⟨front, f, e, others, decided⟩ =>
    refine ⟨fs ++ front, f, by rw [e, List.append_assoc], ?_, decided⟩
    exact fun g mem => (List.mem_append.mp mem).elim (undecided g) (others g)

/-- A wait takes frames up to the first that decides, and misses none that is there before its
deadline. -/
theorem awaitUntil_gives (fit : s.link.Fit) (settled : s.link.Settled) (deadline poll : Nat)
    (verdict : Frame → Option α) : ∃ taken,
      Gives s taken (awaitUntil deadline poll verdict s).2 ∧
      Decides verdict deadline s.link taken (awaitUntil deadline poll verdict s).1 := by
  fun_induction awaitUntil deadline poll verdict s with
  | case1 s late =>
    refine ⟨[], ⟨.refl fit settled, rfl⟩, nofun, fun h => ?_⟩
    omega
  | case2 s within e s' h => exact absurd h (getMessage_ne_error fit)
  | case3 s within s' h ih =>
    obtain ⟨gives, -, none⟩ := gives_getMessage_none fit h
    obtain ⟨taken, gives', decides⟩ := ih gives.link.fit gives.link.settled
    refine ⟨_, gives.trans gives', decides.append gives nofun fun t lt there => ?_⟩
    refine Nat.lt_of_not_le fun le => there ?_
    have earlier := s.link.availableBy_mono (Nat.le_of_lt (Nat.lt_of_lt_of_le lt le))
    rw [none] at earlier
    exact List.prefix_nil.mp earlier
  | case4 s within f s' h v decided =>
    exact ⟨[f], (gives_getMessage_some fit h).1, [], f, rfl, nofun, decided⟩
  | case5 s within f s' h undecided ih =>
    obtain ⟨gives, prompt⟩ := gives_getMessage_some fit h
    obtain ⟨taken, gives', decides⟩ := ih gives.link.fit gives.link.settled
    refine ⟨_, gives.trans gives', decides.append gives ?_ fun t lt there => ?_⟩
    · intro g mem
      rw [List.mem_singleton.mp mem]
      exact undecided
    · have le := prompt t there
      omega

end Session

end LightLink
