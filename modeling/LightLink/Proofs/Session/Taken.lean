import LightLink.Proofs.Ring.Shared
import LightLink.Proofs.Session.Flow

/-!
# What a wait takes

Which frames come of readings is settled by the readings alone. What is taken out of a ring is some
of what has come, in the same order, and it is all that has left the ring unless something had to
make way.

* `Assembler.arrivals`: the frames that readings complete;
* `Reader.Course`: which readings were taken in and which frames were taken between two states of a
  reader;
* `Session.takenUntil`: the frames that a wait takes;
* `Session.takes_awaitUntil`, `Session.decidedBy_awaitUntil`: what they have to do with the link and
  with the result of the wait.
-/

namespace LightLink

/-! ## Readings -/

namespace Assembler

/-- Where an assembler stands after a reading, unless that was the last one. -/
def resume (a : Assembler) (x : Reading) : Option Assembler :=
  if x = .failure then none else some (a.read x).1

/-- Where an assembler stands after readings, one after the other. -/
def resumeAll (a : Option Assembler) (xs : List (Nat × Reading)) : Option Assembler :=
  xs.foldl (fun a x => a.bind (·.resume x.2)) a

/-- The frames that readings complete, one after the other, as long as none has failed. -/
def arrivals (a : Option Assembler) : List (Nat × Reading) → List Arrival
  | [] => []
  | x :: xs =>
    (a.elim [] fun a => (a.read x.2).2.map (⟨·, x.1⟩)) ++ arrivals (a.bind (·.resume x.2)) xs

theorem arrivals_append (a : Option Assembler) (xs ys : List (Nat × Reading)) :
    arrivals a (xs ++ ys) = arrivals a xs ++ arrivals (resumeAll a xs) ys := by
  induction xs generalizing a with
  | nil => rfl
  | cons x xs ih =>
    rw [List.cons_append, arrivals, ih, arrivals, List.append_assoc]
    rfl

theorem resumeAll_append (a : Option Assembler) (xs ys : List (Nat × Reading)) :
    resumeAll a (xs ++ ys) = resumeAll (resumeAll a xs) ys := List.foldl_append

end Assembler

/-! ## Readers -/

namespace Reader

/-- Where a reader stands in a frame, if it runs. -/
def standing (r : Reader) : Option Assembler := if r.running then some r.assembler else none

/-- Between two states of a reader these readings were taken in and these frames taken. What has
left the ring is what was taken, and more only if there was no room for all that came. -/
structure Course (r : Reader) (xs : List (Nat × Reading)) (taken : List Arrival) (r' : Reader) :
    Prop where
  standing : r'.standing = Assembler.resumeAll r.standing xs
  capacity : r'.ring.capacity = r.ring.capacity
  flow : ∃ out, Flow r out (Assembler.arrivals r.standing xs) r' ∧ taken.Sublist out ∧
    (r.ring.length + (Assembler.arrivals r.standing xs).length ≤ r.ring.capacity → out = taken)

variable {r r' r'' : Reader} {xs ys : List (Nat × Reading)} {taken taken' : List Arrival}

theorem flow_keep (r : Reader) (time : Nat) (fs : List Frame) :
    ∃ out, Flow r out (fs.map (⟨·, time⟩)) (r.keep time fs) ∧
      (r.ring.length + fs.length ≤ r.ring.capacity → out = []) := by
  induction fs generalizing r with
  | nil => exact ⟨[], .refl r, fun _ => rfl⟩
  | cons f fs ih =>
    have length := r.ring.length_put ⟨f, time⟩
    obtain ⟨out, flow, room⟩ :=
      ih { r with ring := (r.ring.put ⟨f, time⟩).1, received := r.received + 1 }
    dsimp only at room
    rw [Ring.capacity_put, length] at room
    refine ⟨_, (r.flow_put ⟨f, time⟩).trans flow, fun fits => ?_⟩
    rw [List.length_cons] at fits
    rw [Ring.evicted_put, if_neg (by omega), room (by omega)]
    rfl

namespace Course

theorem refl (r : Reader) : Course r [] [] r :=
  ⟨rfl, rfl, [], .refl r, .slnil, fun _ => rfl⟩

theorem trans (h : Course r xs taken r') (h' : Course r' ys taken' r'') :
    Course r (xs ++ ys) (taken ++ taken') r'' := by
  obtain ⟨out, flow, sub, room⟩ := h.flow
  obtain ⟨out', flow', sub', room'⟩ := h'.flow
  rw [h.standing] at flow' room'
  refine ⟨?_, h'.capacity.trans h.capacity, out ++ out', ?_, sub.append sub', fun fits => ?_⟩
  · rw [Assembler.resumeAll_append, ← h.standing, h'.standing]
  · rw [Assembler.arrivals_append]
    exact flow.trans flow'
  · have moved := flow.length_add
    have capacity := h.capacity
    rw [Assembler.arrivals_append, List.length_append] at fits
    rw [room (by omega), room' (by omega)]

theorem read (r : Reader) (time : Nat) (x : Reading) :
    Course r [(time, x)] [] (r.read time x) := by
  cases running : r.running with
  | false =>
    have standing : r.standing = none := by simp [Reader.standing, running]
    rw [read_of_not_running running]
    refine ⟨by rw [standing]; rfl, rfl, [], ?_, .slnil, fun _ => rfl⟩
    rw [standing]
    exact .refl r
  | true =>
    have standing : r.standing = some r.assembler := by simp [Reader.standing, running]
    have one : Assembler.arrivals r.standing [(time, x)] =
        (r.assembler.read x).2.map (⟨·, time⟩) := by
      rw [standing, Assembler.arrivals, Assembler.arrivals, List.append_nil]
      rfl
    refine ⟨?_, r.capacity_read time, ?_⟩
    · rw [standing]
      cases x <;> simp [Reader.read, Reader.standing, running, Assembler.resumeAll,
        Assembler.resume, Assembler.read]
    · rw [one, List.length_map]
      unfold Reader.read
      rw [if_neg (by simp [running])]
      cases x with
      | chunk bytes =>
        obtain ⟨out, flow, room⟩ := flow_keep { r with assembler := (r.assembler.feed bytes).1 }
          time (r.assembler.feed bytes).2
        exact ⟨out, ⟨flow.entries, flow.received⟩, List.nil_sublist _, room⟩
      | _ => exact ⟨[], ⟨List.append_nil _, rfl⟩, .slnil, fun _ => rfl⟩

theorem take (r : Reader) : Course r [] r.take.1.toList r.take.2 :=
  ⟨rfl, rfl, r.take.1.toList, r.flow_take, List.Sublist.refl _, fun _ => rfl⟩

variable (h : Course r xs taken r')

include h

/-- What is taken is some of what was there and of what came, in the same order. -/
theorem sublist : taken.Sublist (r.ring.toList ++ Assembler.arrivals r.standing xs) := by
  obtain ⟨out, flow, sub, -⟩ := h.flow
  rw [flow.entries]
  exact sub.trans (List.sublist_append_left ..)

theorem counted (counted : r.Counted) : r'.Counted := by
  obtain ⟨out, flow, -⟩ := h.flow
  exact flow.counted counted

/-- What is taken has left the ring. -/
theorem gone_le (counted : r.Counted) : r.gone + taken.length ≤ r'.gone := by
  obtain ⟨out, flow, sub, -⟩ := h.flow
  rw [flow.gone_eq counted]
  exact Nat.add_le_add_left sub.length_le _

/-- Nothing has to make way where there is room for all that comes. -/
theorem gone_eq (counted : r.Counted)
    (room : r.ring.length + (Assembler.arrivals r.standing xs).length ≤ r.ring.capacity) :
    r'.gone = r.gone + taken.length := by
  obtain ⟨out, flow, -, all⟩ := h.flow
  rw [flow.gone_eq counted, all room]

/-- Where nothing has left the ring but what was taken, that is the first of what was there and of
what came, and the rest is there now. -/
theorem entries (counted : r.Counted) (gone : r'.gone = r.gone + taken.length) :
    r.ring.toList ++ Assembler.arrivals r.standing xs = taken ++ r'.ring.toList := by
  obtain ⟨out, flow, sub, -⟩ := h.flow
  have length := flow.gone_eq counted
  rw [sub.eq_of_length (by omega)]
  exact flow.entries

end Course

end Reader

/-! ## Links -/

namespace Link

variable {σ : Type}

/-- Between two states of a link these frames were taken, and nothing was sent. -/
def Takes (l : Link σ) (taken : List Arrival) (l' : Link σ) : Prop :=
  ∃ xs, l.reader.Course xs taken l'.reader ∧ l.coming = xs ++ l'.coming

/-- The readings that were to come and do not come any more. -/
def readSince (l l' : Link σ) : List (Nat × Reading) :=
  l.coming.take (l.coming.length - l'.coming.length)

namespace Takes

variable {l l' l'' : Link σ} {taken taken' : List Arrival}

theorem refl (l : Link σ) : l.Takes [] l := ⟨[], .refl _, rfl⟩

theorem trans (h : l.Takes taken l') (h' : l'.Takes taken' l'') :
    l.Takes (taken ++ taken') l'' := by
  obtain ⟨xs, course, coming⟩ := h
  obtain ⟨ys, course', coming'⟩ := h'
  exact ⟨_, course.trans course', by rw [coming, coming', List.append_assoc]⟩

theorem course (h : l.Takes taken l') : l.reader.Course (l.readSince l') taken l'.reader := by
  obtain ⟨xs, course, coming⟩ := h
  have since : l.readSince l' = xs := by
    rw [readSince, coming, List.length_append, Nat.add_sub_cancel, List.take_left]
  rwa [since]

end Takes

variable (l : Link σ)

theorem takes_takeIn (now : Nat) (r : Reader) (coming : List (Nat × Reading)) :
    ∃ xs, r.Course xs [] (takeIn now r coming).1 ∧ coming = xs ++ (takeIn now r coming).2 := by
  induction coming generalizing r with
  | nil => exact ⟨[], .refl r, rfl⟩
  | cons c coming ih =>
    obtain ⟨t, x⟩ := c
    rw [takeIn]
    split
    · obtain ⟨xs, course, rest⟩ := ih (r.read t x)
      exact ⟨(t, x) :: xs, (Reader.Course.read r t x).trans course, congrArg ((t, x) :: ·) rest⟩
    · exact ⟨[], .refl r, rfl⟩

theorem takes_settle : l.Takes [] l.settle := takes_takeIn ..

theorem takes_await (wait : Nat) : l.Takes [] (l.await wait) := by
  unfold await
  split
  · exact l.takes_settle.trans
      (takes_settle { l.settle with now := l.settle.wakeTime (l.now + wait) })
  · exact l.takes_settle

theorem takes_take (wait : Nat) : l.Takes (l.take wait).1.toList (l.take wait).2 :=
  (l.takes_await wait).trans ⟨[], .take _, rfl⟩

theorem takes_pass (time : Nat) : l.Takes [] (l.pass time) :=
  takes_settle { l with now := l.now + time }

end Link

/-! ## Sessions -/

namespace Session

variable {σ α : Type} {s s' s'' : Session σ} {taken taken' : List Arrival}

/-- Between two states of a session these frames were taken, and nothing was sent. -/
structure Takes (s : Session σ) (taken : List Arrival) (s' : Session σ) : Prop where
  link : s.link.Takes taken s'.link
  lastReceived : s'.lastReceived = (taken.getLast?.map Arrival.time).or s.lastReceived

theorem Takes.refl (s : Session σ) : s.Takes [] s := ⟨.refl _, rfl⟩

theorem or_getLast?_append (taken taken' : List Arrival) (last : Option Nat) :
    ((taken ++ taken').getLast?.map Arrival.time).or last =
      (taken'.getLast?.map Arrival.time).or ((taken.getLast?.map Arrival.time).or last) := by
  rw [List.getLast?_append]
  cases taken'.getLast? <;> rfl

theorem Takes.trans (h : s.Takes taken s') (h' : s'.Takes taken' s'') :
    s.Takes (taken ++ taken') s'' where
  link := h.link.trans h'.link
  lastReceived := by rw [h'.lastReceived, h.lastReceived, or_getLast?_append]

/-! ### Looks -/

/-- The frame that a look finds, with the time at which it was complete. -/
def look (wait : Nat) (s : Session σ) : Option Arrival := (s.link.take (s.patience wait)).1

theorem takes_getMessage (wait : Nat) (s : Session σ) :
    s.Takes (s.look wait).toList (getMessage wait s).2 := by
  have link := s.link.takes_take (s.patience wait)
  unfold look getMessage
  generalize s.link.take (s.patience wait) = taken at link ⊢
  rcases taken with ⟨_ | a, link'⟩
  · dsimp only
    split <;> exact ⟨link, rfl⟩
  · exact ⟨link, rfl⟩

theorem look_eq_some {wait : Nat} {f : Frame} (h : getMessage wait s = (.ok (some f), s')) :
    ∃ a, s.look wait = some a ∧ a.frame = f := by
  obtain ⟨a, taken, frame⟩ := take_of_getMessage h
  exact ⟨a, congrArg Prod.fst taken, frame⟩

theorem look_eq_none {wait : Nat} {found : Except TransportError (Option Frame)}
    (h : getMessage wait s = (found, s')) (none : ∀ f, found ≠ .ok (some f)) :
    s.look wait = .none := by
  unfold getMessage at h
  unfold look
  cases taken : s.link.take (s.patience wait) with
  | mk first link =>
    rw [taken] at h
    cases first with
    | none => rfl
    | some a =>
      cases h
      exact absurd rfl (none _)

/-! ### Waits -/

/-- The frames that a wait takes. -/
def takenUntil (deadline poll : Nat) (verdict : Frame → Option α) (s : Session σ) : List Arrival :=
  if deadline ≤ s.link.now then []
  else
    (s.look (slice poll (deadline - s.link.now))).toList ++
      match _looked : getMessage (slice poll (deadline - s.link.now)) s with
      | (.error _, _) => []
      | (.ok none, s') => takenUntil deadline poll verdict s'
      | (.ok (some f), s') =>
        if (verdict f).isSome then [] else takenUntil deadline poll verdict s'
termination_by s.link.load + (deadline - s.link.now)
decreasing_by
  · have := getMessage_none _looked
    have := @slice_pos poll (deadline - s.link.now) (by omega)
    omega
  · have := load_getMessage_some _looked
    omega

theorem takenUntil_eq (deadline poll : Nat) (verdict : Frame → Option α) (s : Session σ) :
    takenUntil deadline poll verdict s =
      if deadline ≤ s.link.now then []
      else
        (s.look (slice poll (deadline - s.link.now))).toList ++
          match getMessage (slice poll (deadline - s.link.now)) s with
          | (.error _, _) => []
          | (.ok none, s') => takenUntil deadline poll verdict s'
          | (.ok (some f), s') =>
            if (verdict f).isSome then [] else takenUntil deadline poll verdict s' := by
  rw [takenUntil]
  split
  · rfl
  · congr 1
    split
    · rename_i looked; rw [looked]
    · rename_i looked; rw [looked]
    · rename_i looked; rw [looked]

/-- How the frames that a wait has taken bear on its result: the last one has decided it, or none of
them decides. -/
def DecidedBy (verdict : Frame → Option α) (taken : List Arrival) :
    Except TransportError (Option α) → Prop
  | .ok (some v) => ∃ front a, taken = front ++ [a] ∧ (∀ b ∈ front, verdict b.frame = none) ∧
      verdict a.frame = some v
  | _ => ∀ b ∈ taken, verdict b.frame = none

theorem DecidedBy.cons {verdict : Frame → Option α} {a : Arrival}
    {result : Except TransportError (Option α)} (undecided : verdict a.frame = none)
    (h : DecidedBy verdict taken result) : DecidedBy verdict (a :: taken) result := by
  match result, h with
  | .ok (some v), ⟨front, b, e, others, decided⟩ =>
    exact ⟨a :: front, b, by rw [e]; rfl, List.forall_mem_cons.mpr ⟨undecided, others⟩, decided⟩
  | .ok none, others => exact List.forall_mem_cons.mpr ⟨undecided, others⟩
  | .error e, others => exact List.forall_mem_cons.mpr ⟨undecided, others⟩

/-- A wait takes frames up to the first that decides, and none after it. -/
theorem awaitUntil_taken (deadline poll : Nat) (verdict : Frame → Option α) (s : Session σ) :
    s.Takes (takenUntil deadline poll verdict s) (awaitUntil deadline poll verdict s).2 ∧
      DecidedBy verdict (takenUntil deadline poll verdict s)
        (awaitUntil deadline poll verdict s).1 := by
  fun_induction awaitUntil deadline poll verdict s with
  | case1 s late =>
    rw [takenUntil_eq, if_pos late]
    exact ⟨.refl s, List.forall_mem_nil _⟩
  | case2 s within e s' looked =>
    have nothing := look_eq_none looked (by simp)
    have takes := s.takes_getMessage (slice poll (deadline - s.link.now))
    rw [looked, nothing] at takes
    rw [takenUntil_eq, if_neg within, looked, nothing]
    exact ⟨takes, List.forall_mem_nil _⟩
  | case3 s within s' looked ih =>
    have nothing := look_eq_none looked (by simp)
    have takes := s.takes_getMessage (slice poll (deadline - s.link.now))
    rw [looked, nothing] at takes
    rw [takenUntil_eq, if_neg within, looked, nothing]
    exact ⟨takes.trans ih.1, ih.2⟩
  | case4 s within f s' looked v decided =>
    obtain ⟨a, found, rfl⟩ := look_eq_some looked
    have takes := s.takes_getMessage (slice poll (deadline - s.link.now))
    rw [looked, found] at takes
    rw [takenUntil_eq, if_neg within, looked, found]
    dsimp only
    rw [decided]
    exact ⟨takes, [], a, rfl, List.forall_mem_nil _, decided⟩
  | case5 s within f s' looked undecided ih =>
    obtain ⟨a, found, rfl⟩ := look_eq_some looked
    have takes := s.takes_getMessage (slice poll (deadline - s.link.now))
    rw [looked, found] at takes
    rw [takenUntil_eq, if_neg within, looked, found]
    dsimp only
    rw [undecided]
    exact ⟨takes.trans ih.1, ih.2.cons undecided⟩

end Session

end LightLink
