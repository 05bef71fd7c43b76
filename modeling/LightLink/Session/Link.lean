import LightLink.Device.Fault
import LightLink.Frame.Reader

/-!
# Links

A `Link` is a clock, the reader of what comes in, what is still to come with its time, and whatever
is at the far end. Nothing is simulated between two points in time: waiting moves the clock to the
next reading that completes a frame, or to the end of the wait.

* `Link.take`: the next frame, waited for no longer than a given time;
* `Link.byTime`: what is coming and what is sent, in the order in which reads yield it;
* `load_take_some`, `take_none`: a frame that is taken lessens what can still be taken; if none is
  taken, the whole wait has passed.
-/

namespace LightLink

/-- What is at the far end of a link. -/
class FarEnd (σ : Type) where
  /-- It is written to at a time. -/
  write : σ → Nat → Bytes → Except Fault Unit × σ
  /-- What it sends now: what successive reads yield, and after which time. -/
  send : σ → List (Nat × Reading) × σ

/-- A link to a far end. -/
structure Link (σ : Type) where
  now : Nat
  reader : Reader
  /-- What reads will yield, with the time at which they do. -/
  coming : List (Nat × Reading)
  far : σ

namespace Link

variable {σ : Type}

/-- How many frames there are or can come. -/
def comingLoad : List (Nat × Reading) → Nat
  | [] => 0
  | c :: rest => c.2.load + comingLoad rest

/-- A bound on the frames that are there or can still come of what has been sent. -/
def load (l : Link σ) : Nat := l.reader.ring.length + comingLoad l.coming

/-! ## Reading -/

/-- Takes in the readings that are due at a time. -/
def takeIn (now : Nat) (r : Reader) : List (Nat × Reading) → Reader × List (Nat × Reading)
  | [] => (r, [])
  | (t, x) :: rest => if t ≤ now then takeIn now (r.read t x) rest else (r, (t, x) :: rest)

/-- The link after all that is due has been taken in. -/
def settle (l : Link σ) : Link σ :=
  let taken := takeIn l.now l.reader l.coming
  { l with reader := taken.1, coming := taken.2 }

/-- The first time, not before `now` and not behind `deadline`, at which a frame is there. -/
def firstArrival? (deadline : Nat) (now : Nat) (r : Reader) : List (Nat × Reading) → Option Nat
  | [] => none
  | (t, x) :: rest =>
    if t ≤ deadline then
      if (r.read t x).ring.isEmpty then firstArrival? deadline (max now t) (r.read t x) rest
      else some (max now t)
    else none

/-- When a wait is over that begins now, without a frame, and ends at `deadline`. -/
def wakeTime (l : Link σ) (deadline : Nat) : Nat :=
  (firstArrival? deadline l.now l.reader l.coming).getD deadline

/-- The link once a frame is there or the wait is over. -/
def await (l : Link σ) (wait : Nat) : Link σ :=
  if l.settle.reader.ring.isEmpty then
    settle { l.settle with now := l.settle.wakeTime (l.now + wait) }
  else l.settle

/-- The next frame, waited for no longer than `wait`. -/
def take (l : Link σ) (wait : Nat) : Option Arrival × Link σ :=
  let l := l.await wait
  let (a, reader) := l.reader.take
  (a, { l with reader })

/-- Lets time pass. -/
def pass (l : Link σ) (time : Nat) : Link σ := settle { l with now := l.now + time }

/-! ## Writing -/

/-- What is coming and what is sent in order of time, at one time first what was coming. -/
def byTime : List (Nat × Reading) → List (Nat × Reading) → List (Nat × Reading)
  | [], sent => sent
  | c :: coming, sent =>
    sent.takeWhile (·.1 < c.1) ++ c :: byTime coming (sent.dropWhile (·.1 < c.1))

/-- The library's merge comes to the same, but recurses on the length of both lists, so that a link
could not be evaluated. -/
theorem byTime_eq_merge (coming sent : List (Nat × Reading)) :
    byTime coming sent = coming.merge sent fun a b => a.1 ≤ b.1 := by
  induction coming generalizing sent with
  | nil => rw [byTime, List.nil_merge]
  | cons c coming ih =>
    induction sent with
    | nil =>
      rw [byTime, List.takeWhile_nil, List.dropWhile_nil, ih, List.merge_right, List.merge_right,
        List.nil_append]
    | cons d sent later =>
      rw [List.cons_merge_cons, ← later, ← ih, byTime, byTime, List.takeWhile_cons,
        List.dropWhile_cons]
      by_cases first : c.1 ≤ d.1
      · simp [first, Nat.not_lt_of_le first]
      · simp [first, Nat.lt_of_not_le first]

variable [FarEnd σ]

/-- Lets the far end send what it has to send. -/
def exchange (l : Link σ) : Link σ :=
  let (sent, far) := FarEnd.send l.far
  let sent := sent.map fun s => (l.now + s.1, s.2)
  settle { l with far, coming := byTime l.coming sent }

/-- A link to `far` that has just been set up. -/
def connect (capacity : Nat) (far : σ) : Link σ := exchange ⟨0, .start capacity, [], far⟩

/-- Writes to the far end. -/
def write (l : Link σ) (bytes : Bytes) : Except Fault Unit × Link σ :=
  let l := l.settle
  let (outcome, far) := FarEnd.write l.far l.now bytes
  (outcome, exchange { l with far })

/-- The far end does something of its own accord. -/
def act (l : Link σ) (f : σ → σ) : Link σ := exchange { l with far := f l.far }

omit [FarEnd σ]

/-! ## The load -/

theorem load_takeIn_le (now : Nat) (r : Reader) (coming : List (Nat × Reading)) :
    (takeIn now r coming).1.ring.length + comingLoad (takeIn now r coming).2 ≤
      r.ring.length + comingLoad coming := by
  induction coming generalizing r with
  | nil => simp [takeIn]
  | cons c rest ih =>
    obtain ⟨t, x⟩ := c
    unfold takeIn
    split
    · have := r.load_read t x
      have := ih (r.read t x)
      simp only [comingLoad] at *
      omega
    · exact Nat.le_refl _

/-- Taking in what is due brings nothing that was not there or to come. -/
theorem load_settle_le (l : Link σ) : l.settle.load ≤ l.load :=
  load_takeIn_le l.now l.reader l.coming

theorem load_await_le (l : Link σ) (wait : Nat) : (l.await wait).load ≤ l.load := by
  unfold await
  split
  · exact Nat.le_trans (load_settle_le _) (load_settle_le l)
  · exact load_settle_le l

/-- A frame that is taken can not be taken again. -/
theorem load_take_some {l l' : Link σ} {wait : Nat} {a : Arrival}
    (h : l.take wait = (some a, l')) : l'.load < l.load := by
  have le := load_await_le l wait
  simp only [take, Reader.take, Prod.mk.injEq] at h
  obtain ⟨taken, rfl⟩ := h
  have := (l.await wait).reader.ring.length_take
  have : (l.await wait).reader.ring.length ≠ 0 := by
    intro h0
    simp [Ring.take, List.length_eq_zero_iff.mp h0] at taken
  simp only [load] at *
  omega

theorem load_take_le (l : Link σ) (wait : Nat) : (l.take wait).2.load ≤ l.load := by
  have le := load_await_le l wait
  have := (l.await wait).reader.ring.length_take
  simp only [take, Reader.take, load] at *
  omega

/-! ## Time -/

theorem takeIn_not_empty (now : Nat) {r : Reader} (h : r.ring.isEmpty = false)
    (coming : List (Nat × Reading)) : (takeIn now r coming).1.ring.isEmpty = false := by
  induction coming generalizing r with
  | nil => exact h
  | cons c rest ih =>
    unfold takeIn
    split
    · exact ih (r.isEmpty_read h _ _)
    · exact h

theorem firstArrival?_some {deadline now t : Nat} {r : Reader} {coming : List (Nat × Reading)}
    (h : firstArrival? deadline now r coming = some t) :
    now ≤ t ∧ (takeIn t r coming).1.ring.isEmpty = false := by
  induction coming generalizing now r with
  | nil => simp [firstArrival?] at h
  | cons c rest ih =>
    obtain ⟨u, x⟩ := c
    unfold firstArrival? at h
    split at h
    · split at h
      · have ⟨le, ne⟩ := ih h
        refine ⟨by omega, ?_⟩
        unfold takeIn
        rw [if_pos (by omega)]
        exact ne
      · rename_i ne
        obtain rfl := Option.some.inj h
        refine ⟨by omega, ?_⟩
        unfold takeIn
        rw [if_pos (by omega)]
        exact takeIn_not_empty _ (by simpa using ne) _
    · simp at h

@[simp] theorem now_settle (l : Link σ) : l.settle.now = l.now := rfl

theorem now_take (l : Link σ) (wait : Nat) : (l.take wait).2.now = (l.await wait).now := rfl

theorem now_le_await (l : Link σ) (wait : Nat) : l.now ≤ (l.await wait).now := by
  unfold await
  split
  · simp only [now_settle, wakeTime]
    cases h : firstArrival? (l.now + wait) l.now l.settle.reader l.settle.coming with
    | none => simp
    | some t => exact (firstArrival?_some h).1
  · exact Nat.le_refl _

/-- No frame is taken only if the whole wait has passed. -/
theorem take_none {l l' : Link σ} {wait : Nat} (h : l.take wait = (none, l')) :
    l'.now = l.now + wait := by
  simp only [take, Reader.take, Prod.mk.injEq] at h
  obtain ⟨taken, rfl⟩ := h
  have empty : (l.await wait).reader.ring.isEmpty = true := by
    simpa [Ring.take, Ring.isEmpty] using taken
  show (l.await wait).now = l.now + wait
  unfold await at empty ⊢
  split
  · rename_i e
    simp only [now_settle, wakeTime]
    rw [if_pos e] at empty
    cases h : firstArrival? (l.now + wait) l.now l.settle.reader l.settle.coming with
    | none => rfl
    | some t =>
      have := (firstArrival?_some h).2
      simp only [settle, wakeTime] at empty h this
      simp [h, this] at empty
  · rename_i e
    rw [if_neg e] at empty
    exact absurd empty e

/-! ## The reader -/

theorem running_takeIn (now : Nat) {r : Reader} (h : r.running = false)
    (coming : List (Nat × Reading)) : (takeIn now r coming).1.running = false := by
  induction coming generalizing r with
  | nil => exact h
  | cons c rest ih =>
    unfold takeIn
    split
    · exact ih (by rw [Reader.read_of_not_running h]; exact h)
    · exact h

/-- A reader that has stopped is not running after a wait. -/
theorem running_take (l : Link σ) (h : l.reader.running = false) (wait : Nat) :
    (l.take wait).2.reader.running = false := by
  show (l.await wait).reader.running = false
  unfold await
  split
  · exact running_takeIn _ (running_takeIn _ h _) _
  · exact running_takeIn _ h _

end Link

end LightLink
