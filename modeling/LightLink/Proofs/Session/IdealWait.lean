import Mathlib.Data.List.TakeWhile
import LightLink.Proofs.Session.Ready
import LightLink.Proofs.Session.Requests
import LightLink.Proofs.Text.Number
import LightLink.Session.StandIn

/-!
# Waits that are cut into looks

A wait looks for a frame for a short while, again and again, and asks between two looks how much
time is left and whether the link still lives. None of this shows in what it comes to: the first
frame that decides among those that are there before the deadline, and otherwise the loss of the
link if the reader stops before the deadline, or nothing.

* `Frame.Says`, `Frame.isToken_iff`: what a line says, and so which frames decide;
* `Link.arrivedBefore`, `Link.stopsBefore`: what has come before a deadline, and whether the reader
  has stopped by then;
* `Link.idealWait`: what a wait comes to that knows just this;
* `Link.Roomy`: nothing has to make way as long as a wait takes what comes;
* `Link.Yields`: what a look takes, where nothing has to make way;
* `Session.awaitUntil_ideal`: a wait that looks again and again is an ideal one;
* `Session.waits_ideal`: so are the three waits of a session, whatever the time between two looks.
-/

namespace LightLink

/-! ## Frames that decide -/

namespace Frame

/-- A line of text with this word in it and nothing else but blanks. -/
def Says (f : Frame) (word : String) : Prop :=
  f.isBinary = false ∧ ∃ before after, AllBlank before ∧ AllBlank after ∧
    Utf8.decode? f.data = some (before ++ word.toList ++ after)

variable {f : Frame}

/-- A line is a token, a word without blanks, just if it says it. -/
theorem isToken_iff {word : String} (some_char : word.toList ≠ [])
    (bare : word.toList.any isBlank = false) : f.isToken word = true ↔ f.Says word := by
  rw [isToken, Bool.and_eq_true, Bool.not_eq_true']
  refine and_congr_right fun _ => ⟨fun line => ?_, ?_⟩
  · unfold Token.isLine at line
    obtain ⟨cs, text, trimmed⟩ := (Option.any_eq_true ..).mp line
    obtain ⟨before, after, blank, blank', e⟩ := exists_trim cs
    rw [beq_iff_eq] at trimmed
    exact ⟨before, after, blank, blank', text.trans (congrArg some (trimmed ▸ e))⟩
  · rintro ⟨before, after, blank, blank', text⟩
    rw [Token.isLine, text, Option.any_some, beq_iff_eq]
    exact trim_append blank blank' some_char fun c mem =>
      eq_false_of_ne_true (List.any_eq_false.mp bare c mem)

theorem verdict?_eq_accepted_iff : f.verdict? = some .accepted ↔ f.Says "ok" := by
  refine Iff.trans ⟨fun accepted => ?_, verdict?_ok⟩ (isToken_iff (by decide) (by decide))
  unfold verdict? at accepted
  split at accepted
  · assumption
  · split at accepted <;> cases accepted

theorem verdict?_eq_rejected_iff : f.verdict? = some .rejected ↔ f.Says "fail" := by
  refine Iff.trans ⟨fun rejected => ?_, verdict?_fail⟩ (isToken_iff (by decide) (by decide))
  unfold verdict? at rejected
  split at rejected
  · cases rejected
  · split at rejected
    · assumption
    · cases rejected

theorem ready?_eq_some_iff : f.ready? = some () ↔ f.Says "ready" := by
  refine Iff.trans ⟨fun ready => ?_, fun h => if_pos h⟩ (isToken_iff (by decide) (by decide))
  unfold ready? at ready
  split at ready
  · assumption
  · cases ready

theorem data?_eq_some_iff {g : Frame} : f.data? = some g ↔ f.isBinary = true ∧ f = g := by
  unfold data?
  cases f.isBinary <;> simp

end Frame

/-! ## Readings -/

namespace Assembler

@[simp] theorem arrivals_none (xs : List (Nat × Reading)) : arrivals none xs = [] := by
  induction xs with
  | nil => rfl
  | cons x xs ih => exact ih

/-- Nothing is read behind a failure. -/
theorem isNone_resumeAll (a : Option Assembler) (xs : List (Nat × Reading)) :
    (resumeAll a xs).isNone = (a.isNone || xs.any (·.2 = .failure)) := by
  induction xs generalizing a with
  | nil => exact (Bool.or_false _).symm
  | cons x xs ih =>
    show (resumeAll (a.bind (·.resume x.2)) xs).isNone = _
    rw [ih, List.any_cons, ← Bool.or_assoc]
    cases a with
    | none => rfl
    | some a =>
      by_cases failed : x.2 = .failure <;> simp [resume, failed]

end Assembler

namespace Reader

theorem standing_of_running {r : Reader} (h : r.running = true) :
    r.standing = some r.assembler := if_pos h

theorem standing_of_not_running {r : Reader} (h : r.running = false) : r.standing = none := by
  simp [standing, h]

/-- If there is no frame behind a reading, there was none before, and it has completed none. -/
theorem arrivals_of_isEmpty {r : Reader} {time : Nat} {x : Reading}
    (h : (r.read time x).ring.isEmpty = true) :
    Assembler.arrivals r.standing [(time, x)] = [] := by
  cases running : r.running with
  | false =>
    rw [standing_of_not_running running]
    rfl
  | true =>
    rw [standing_of_running running, Assembler.arrivals, Assembler.arrivals, List.append_nil]
    show (r.assembler.read x).2.map _ = []
    rw [List.map_eq_nil_iff]
    cases x with
    | chunk bytes =>
      show (r.assembler.feed bytes).2 = []
      unfold read at h
      rw [if_neg (by simp [running])] at h
      dsimp only at h
      generalize (r.assembler.feed bytes).2 = fs at h
      cases fs with
      | nil => rfl
      | cons f fs =>
        have there := isEmpty_keep (r := { r with
          assembler := (r.assembler.feed bytes).1
          ring := (r.ring.put ⟨f, time⟩).1
          received := r.received + 1 }) (r.ring.isEmpty_put _) time fs
        cases there.symm.trans h
    | _ => rfl

end Reader

/-! ## Links -/

namespace Link

variable {σ α β : Type}

/-- Of readings that come one after the other, those that are due before a time. -/
def dueBefore (time : Nat) (coming : List (Nat × Reading)) : List (Nat × Reading) :=
  coming.takeWhile (·.1 < time)

/-- The frames that are there at a time if none is taken. -/
def arrivedBy (l : Link σ) (time : Nat) : List Arrival :=
  l.reader.ring.toList ++ Assembler.arrivals l.reader.standing (due time l.coming)

/-- The frames that are there before a time if none is taken. -/
def arrivedBefore (l : Link σ) (time : Nat) : List Arrival :=
  l.reader.ring.toList ++ Assembler.arrivals l.reader.standing (dueBefore time l.coming)

/-- The reader has stopped, or it stops before a time. -/
def stopsBefore (l : Link σ) (time : Nat) : Bool :=
  !l.reader.running || (dueBefore time l.coming).any (·.2 = .failure)

/-- What a wait comes to that knows what is there before its deadline, and whether the reader stops
before it: what the first frame decides, or else the loss of the link, or what it comes to late. -/
def idealWait (l : Link σ) (name : String) (deadline : Nat) (verdict : Frame → Option α)
    (decided : α → Except TransportError β) (late : Except TransportError β) :
    Except TransportError β :=
  match (l.arrivedBefore deadline).findSome? fun a => verdict a.frame with
  | some v => decided v
  | none =>
    if l.stopsBefore deadline then .error (.linkLost (.readerStopped name)) else late

/-- There is room for all that comes while a wait takes it: for what is there when it begins, and
for what comes at any one time, unless a frame that came before has decided. -/
structure Roomy (l : Link σ) (verdict : Frame → Option α) (deadline : Nat) : Prop where
  now : (l.arrivedBy l.now).length ≤ l.reader.ring.capacity
  later : ∀ t, l.now < t → t < deadline → (∀ a ∈ l.arrivedBefore t, verdict a.frame = none) →
    (l.arrivedBy t).length ≤ (l.arrivedBefore t).length + l.reader.ring.capacity

/-- From one state of a link to a later one these frames were taken, and none had to make way. -/
structure Yields (l : Link σ) (taken : List Arrival) (l' : Link σ) : Prop where
  now_le : l.now ≤ l'.now
  capacity : l'.reader.ring.capacity = l.reader.ring.capacity
  upToDate : l'.UpToDate
  read : ∃ xs, l.coming = xs ++ l'.coming ∧ (∀ x ∈ xs, x.1 ≤ l'.now) ∧
    l'.reader.standing = Assembler.resumeAll l.reader.standing xs ∧
    l.reader.ring.toList ++ Assembler.arrivals l.reader.standing xs =
      taken ++ l'.reader.ring.toList

variable {l l' l'' : Link σ} {taken taken' : List Arrival} {verdict : Frame → Option α}
  {deadline : Nat}

theorem isNone_standing (l : Link σ) : l.reader.standing.isNone = !l.reader.running := by
  unfold Reader.standing
  cases l.reader.running <;> rfl

theorem stopsBefore_eq (l : Link σ) (time : Nat) : l.stopsBefore time =
    (Assembler.resumeAll l.reader.standing (dueBefore time l.coming)).isNone := by
  rw [Assembler.isNone_resumeAll, isNone_standing, stopsBefore]

namespace Yields

theorem trans (h : l.Yields taken l') (h' : l'.Yields taken' l'') :
    l.Yields (taken ++ taken') l'' := by
  obtain ⟨xs, coming, le, standing, entries⟩ := h.read
  obtain ⟨ys, coming', le', standing', entries'⟩ := h'.read
  have now_le := h'.now_le
  refine ⟨Nat.le_trans h.now_le now_le, h'.capacity.trans h.capacity, h'.upToDate, xs ++ ys, ?_,
    fun x mem => ?_, ?_, ?_⟩
  · rw [coming, coming', List.append_assoc]
  · rcases List.mem_append.mp mem with mem | mem
    · exact Nat.le_trans (le x mem) now_le
    · exact le' x mem
  · rw [standing', standing, Assembler.resumeAll_append]
  · rw [Assembler.arrivals_append, ← standing, ← List.append_assoc, entries, List.append_assoc,
      entries', List.append_assoc]

variable (h : l.Yields taken l')

include h

/-- What is there later is what was taken and what is there then. -/
theorem arrivedBy {time : Nat} (le : l'.now ≤ time) :
    l.arrivedBy time = taken ++ l'.arrivedBy time := by
  obtain ⟨xs, coming, due, standing, entries⟩ := h.read
  have front : Link.due time l.coming = xs ++ Link.due time l'.coming := by
    rw [coming]
    exact due_append_of_le fun x mem => Nat.le_trans (due x mem) le
  rw [Link.arrivedBy, front, Assembler.arrivals_append, ← standing, ← List.append_assoc, entries,
    List.append_assoc]
  rfl

/-- All that was taken in is due before a time. -/
theorem dueBefore {time : Nat} (lt : ∀ c ∈ l.coming, c.1 ≤ l'.now → c.1 < time) :
    ∃ xs, Link.dueBefore time l.coming = xs ++ Link.dueBefore time l'.coming ∧
      l'.reader.standing = Assembler.resumeAll l.reader.standing xs ∧
      l.reader.ring.toList ++ Assembler.arrivals l.reader.standing xs =
        taken ++ l'.reader.ring.toList := by
  obtain ⟨xs, coming, due, standing, entries⟩ := h.read
  refine ⟨xs, ?_, standing, entries⟩
  rw [coming] at lt ⊢
  exact List.takeWhile_append_of_pos fun x mem => decide_eq_true <|
    lt x (List.mem_append_left _ mem) (due x mem)

theorem arrivedBefore {time : Nat} (lt : ∀ c ∈ l.coming, c.1 ≤ l'.now → c.1 < time) :
    l.arrivedBefore time = taken ++ l'.arrivedBefore time := by
  obtain ⟨xs, front, standing, entries⟩ := h.dueBefore lt
  rw [Link.arrivedBefore, front, Assembler.arrivals_append, ← standing, ← List.append_assoc,
    entries, List.append_assoc]
  rfl

theorem stopsBefore {time : Nat} (lt : ∀ c ∈ l.coming, c.1 ≤ l'.now → c.1 < time) :
    l.stopsBefore time = l'.stopsBefore time := by
  obtain ⟨xs, front, standing, -⟩ := h.dueBefore lt
  rw [stopsBefore_eq, stopsBefore_eq, front, Assembler.resumeAll_append, ← standing]

/-- Nothing is there but what is in the ring. -/
theorem arrivedBy_now : l.arrivedBy l'.now = taken ++ l'.reader.ring.toList := by
  have none : Link.due l'.now l'.coming = [] := h.upToDate
  rw [h.arrivedBy (Nat.le_refl _), Link.arrivedBy, none]
  exact congrArg (taken ++ ·) (List.append_nil _)

/-- What is still to come is some of what was. -/
theorem mem_coming {c : Nat × Reading} (mem : c ∈ l'.coming) : c ∈ l.coming := by
  obtain ⟨xs, coming, -⟩ := h.read
  rw [coming]
  exact List.mem_append_right _ mem

/-- Where what was taken does not decide, there is still room for what comes. -/
theorem roomy (roomy : l.Roomy verdict deadline)
    (room : (l.arrivedBy l'.now).length ≤ l.reader.ring.capacity)
    (undecided : ∀ a ∈ taken, verdict a.frame = none) : l'.Roomy verdict deadline where
  now := by
    rw [h.arrivedBy (Nat.le_refl _), List.length_append] at room
    rw [h.capacity]
    omega
  later t later lt others := by
    have before : l.arrivedBefore t = taken ++ l'.arrivedBefore t :=
      h.arrivedBefore fun c _ le => Nat.lt_of_le_of_lt le later
    have fits := roomy.later t (Nat.lt_of_le_of_lt h.now_le later) lt fun a mem => by
      rw [before] at mem
      exact (List.mem_append.mp mem).elim (undecided a) (others a)
    rw [before, h.arrivedBy (Nat.le_of_lt later), List.length_append, List.length_append] at fits
    rw [h.capacity]
    omega

end Yields

/-! ### The ideal wait -/

variable {name : String} {decided : α → Except TransportError β} {late : Except TransportError β}

/-- A call makes its result of what its wait comes to. -/
theorem idealWait_eq_match (l : Link σ) : l.idealWait name deadline verdict decided late =
    match l.idealWait name deadline verdict (fun v => .ok (some v)) (.ok none) with
    | .ok (some v) => decided v
    | .ok none => late
    | .error e => .error e := by
  unfold idealWait
  cases (l.arrivedBefore deadline).findSome? fun a => verdict a.frame with
  | some v => rfl
  | none => cases l.stopsBefore deadline <;> rfl

/-- Frames that are taken and do not decide make no difference. -/
theorem Yields.idealWait_eq (h : l.Yields taken l')
    (lt : ∀ c ∈ l.coming, c.1 ≤ l'.now → c.1 < deadline)
    (undecided : ∀ a ∈ taken, verdict a.frame = none) :
    l.idealWait name deadline verdict decided late =
      l'.idealWait name deadline verdict decided late := by
  have others : (taken.findSome? fun a => verdict a.frame) = none :=
    List.findSome?_eq_none_iff.mpr undecided
  unfold idealWait
  rw [h.arrivedBefore lt, h.stopsBefore lt, List.findSome?_append, others, Option.none_or]

/-- The first frame that is taken decides, if it does at all. -/
theorem Yields.idealWait_of_decided {a : Arrival} {v : α} (h : l.Yields [a] l')
    (lt : ∀ c ∈ l.coming, c.1 ≤ l'.now → c.1 < deadline) (is_verdict : verdict a.frame = some v) :
    l.idealWait name deadline verdict decided late = decided v := by
  unfold idealWait
  rw [h.arrivedBefore lt, List.singleton_append, List.findSome?_cons, is_verdict]

/-- A link is lost on which nothing is there and nothing is read. -/
theorem idealWait_of_stopped (none : l.reader.ring.toList = [])
    (stopped : l.reader.running = false) :
    l.idealWait name deadline verdict decided late = .error (.linkLost (.readerStopped name)) := by
  unfold idealWait arrivedBefore stopsBefore
  rw [none, Reader.standing_of_not_running stopped, stopped, Assembler.arrivals_none]
  rfl

/-- Nothing comes of a wait at whose deadline nothing is there. -/
theorem idealWait_of_late (upToDate : l.UpToDate) (by_now : deadline ≤ l.now)
    (none : l.reader.ring.toList = []) (running : l.reader.running = true) :
    l.idealWait name deadline verdict decided late = late := by
  have nothing : dueBefore deadline l.coming = [] := by
    unfold UpToDate due at upToDate
    unfold dueBefore
    cases coming : l.coming with
    | nil => rfl
    | cons c rest =>
      rw [coming, List.takeWhile_cons] at upToDate
      split at upToDate
      · cases upToDate
      · rename_i not_due
        rw [List.takeWhile_cons, if_neg (by simp at not_due ⊢; omega)]
  unfold idealWait arrivedBefore stopsBefore
  rw [none, nothing, running]
  rfl

/-! ### Looking -/

/-- Where there is room for what is due, nothing has to make way when it is taken in. -/
theorem yields_settle (room : (l.arrivedBy l.now).length ≤ l.reader.ring.capacity) :
    l.Yields [] l.settle := by
  obtain ⟨xs, course, coming⟩ := l.takes_settle
  have rest : l.settle.coming = notDue l.now l.coming := takeIn_snd ..
  have front : xs = due l.now l.coming := by
    have same : xs ++ l.settle.coming = due l.now l.coming ++ l.settle.coming := by
      rw [← coming, rest, due_append_notDue]
    exact List.append_cancel_right same
  obtain ⟨out, flow, -, all⟩ := course.flow
  have none : out = [] := all (by
    rw [front]
    rw [arrivedBy, List.length_append] at room
    exact room)
  refine ⟨Nat.le_refl _, course.capacity, upToDate_takeIn .., xs, coming, fun x mem => ?_,
    course.standing, ?_⟩
  · rw [front] at mem
    simpa using List.mem_takeWhile_imp (p := fun c : Nat × Reading => decide (c.1 ≤ l.now)) mem
  · rw [flow.entries, none]

/-- A first arrival is at the beginning or when something is read, and nothing has come before. -/
theorem firstArrival?_arrived {deadline now t : Nat} {r : Reader} {coming : List (Nat × Reading)}
    (h : firstArrival? deadline now r coming = some t) :
    (now < t → Assembler.arrivals r.standing (dueBefore t coming) = []) ∧
      (t = now ∨ ∃ c ∈ coming, c.1 = t) := by
  induction coming generalizing now r with
  | nil => cases h
  | cons c coming ih =>
    obtain ⟨u, x⟩ := c
    rw [firstArrival?] at h
    split at h
    · split at h
      · rename_i empty
        obtain ⟨none, first⟩ := ih h
        refine ⟨fun lt => ?_, ?_⟩
        · rw [dueBefore, List.takeWhile_cons]
          split
          · rename_i before
            have lt' : max now u < t := by simp at before; omega
            have one := Assembler.arrivals_append r.standing [(u, x)] (dueBefore t coming)
            rw [Reader.arrivals_of_isEmpty empty, ← (Reader.Course.read r u x).standing,
              none lt'] at one
            exact one
          · rfl
        · rcases first with same | ⟨c, mem, same⟩
          · by_cases le : u ≤ now
            · exact .inl (by omega)
            · exact .inr ⟨(u, x), .head _, by show u = t; omega⟩
          · exact .inr ⟨c, .tail _ mem, same⟩
      · cases h
        refine ⟨fun lt => ?_, ?_⟩
        · rw [dueBefore, List.takeWhile_cons, if_neg (by simp; omega)]
          rfl
        · by_cases le : u ≤ now
          · exact .inl (by omega)
          · exact .inr ⟨(u, x), .head _, by show u = max now u; omega⟩
    · cases h

/-- Without a first arrival nothing comes by the deadline. -/
theorem firstArrival?_none {deadline now : Nat} {r : Reader} {coming : List (Nat × Reading)}
    (h : firstArrival? deadline now r coming = none) :
    Assembler.arrivals r.standing (due deadline coming) = [] := by
  induction coming generalizing now r with
  | nil => rfl
  | cons c coming ih =>
    obtain ⟨u, x⟩ := c
    rw [firstArrival?] at h
    rw [due, List.takeWhile_cons]
    split at h
    · rename_i in_time
      rw [if_pos (by simpa using in_time)]
      split at h
      · rename_i empty
        have one := Assembler.arrivals_append r.standing [(u, x)] (due deadline coming)
        rw [Reader.arrivals_of_isEmpty empty, ← (Reader.Course.read r u x).standing, ih h] at one
        exact one
      · cases h
    · rename_i late
      rw [if_neg (by simpa using late)]
      rfl

variable (roomy : l.Roomy verdict deadline) (quiet : ∀ c ∈ l.coming, c.1 ≠ deadline)
  (within : l.now < deadline) {wait : Nat} (le : l.now + wait ≤ deadline)

include roomy quiet within le

/-- While a look waits, nothing has to make way; and only if no frame is there is it over at the
deadline. -/
theorem yields_await : l.Yields [] (l.await wait) ∧
    (l.arrivedBy (l.await wait).now).length ≤ l.reader.ring.capacity ∧
    ((l.await wait).now < deadline ∨ (l.await wait).reader.ring.toList = []) := by
  have settled := yields_settle roomy.now
  unfold await
  by_cases empty : l.settle.reader.ring.isEmpty = true
  case neg =>
    rw [if_neg empty]
    exact ⟨settled, roomy.now, .inl within⟩
  rw [if_pos empty]
  have none : l.settle.reader.ring.toList = [] := List.isEmpty_iff.mp empty
  let later : Link σ := { l.settle with now := l.settle.wakeTime (l.now + wait) }
  have capacity := settled.capacity
  -- From here on the three facts about the time at which the look is over suffice.
  suffices time : l.now ≤ later.now ∧ (l.arrivedBy later.now).length ≤ l.reader.ring.capacity ∧
      (later.now < deadline ∨ l.arrivedBy later.now = []) by
    obtain ⟨now_le, room, in_time⟩ := time
    have same : later.arrivedBy later.now = l.arrivedBy later.now :=
      (settled.arrivedBy (show l.settle.now ≤ later.now from now_le)).symm
    have gives := yields_settle (l := later) (by rw [same]; exact capacity ▸ room)
    have yields : l.Yields [] later.settle :=
      settled.trans ⟨now_le, gives.capacity, gives.upToDate, gives.read⟩
    refine ⟨yields, room, in_time.imp id fun nothing => ?_⟩
    exact yields.arrivedBy_now.symm.trans nothing
  show l.now ≤ l.settle.wakeTime _ ∧ (l.arrivedBy (l.settle.wakeTime _)).length ≤ _ ∧
    (l.settle.wakeTime _ < deadline ∨ l.arrivedBy (l.settle.wakeTime _) = [])
  unfold wakeTime
  cases first : firstArrival? (l.now + wait) l.settle.now l.settle.reader l.settle.coming with
  | none =>
    have nothing : l.arrivedBy (l.now + wait) = [] := by
      have now_le : l.settle.now ≤ l.now + wait := Nat.le_add_right ..
      rw [settled.arrivedBy now_le, List.nil_append, arrivedBy, none, List.nil_append]
      exact firstArrival?_none first
    rw [Option.getD_none, nothing]
    exact ⟨Nat.le_add_right .., Nat.zero_le _, .inr rfl⟩
  | some t =>
    have now_le : l.now ≤ t := (firstArrival?_some first).1
    have by_deadline := firstArrival?_le_deadline first
    obtain ⟨nothing, is_event⟩ := firstArrival?_arrived first
    rw [now_settle] at by_deadline nothing is_event
    rw [Option.getD_some]
    have lt : t < deadline := by
      refine Nat.lt_of_le_of_ne (by omega) fun same => ?_
      rcases is_event with at_once | ⟨c, mem, read⟩
      · omega
      · exact quiet c (settled.mem_coming mem) (read.trans same)
    refine ⟨now_le, ?_, .inl lt⟩
    rcases Nat.eq_or_lt_of_le now_le with same | later
    · exact same ▸ roomy.now
    · have before : l.arrivedBefore t = [] := by
        rw [settled.arrivedBefore fun c _ le => Nat.lt_of_le_of_lt le later, List.nil_append,
          arrivedBefore, none, List.nil_append]
        exact nothing later
      have fits := roomy.later t later lt (by rw [before]; exact List.forall_mem_nil _)
      rwa [before, List.length_nil, Nat.zero_add] at fits

/-- A look that finds a frame takes the first of those that come, before the deadline. -/
theorem yields_take_some {a : Arrival} (h : l.take wait = (some a, l')) : l.Yields [a] l' ∧
    (l.arrivedBy l'.now).length ≤ l.reader.ring.capacity ∧ l'.now < deadline := by
  obtain ⟨yields, room, in_time⟩ := yields_await roomy quiet within le
  simp only [Link.take, Reader.take, Prod.mk.injEq] at h
  obtain ⟨taken, rfl⟩ := h
  obtain ⟨as, first⟩ := List.head?_eq_some_iff.mp taken
  obtain ⟨xs, coming, due, standing, entries⟩ := yields.read
  refine ⟨⟨yields.now_le, yields.capacity, yields.upToDate, xs, coming, due, standing, ?_⟩, room,
    in_time.resolve_right fun none => ?_⟩
  · rw [entries, first]
    show a :: as = a :: (l.await wait).reader.ring.toList.tail
    rw [first, List.tail_cons]
  · rw [none] at first
    cases first

/-- A look that finds no frame takes its time, and no frame is there behind it. -/
theorem yields_take_none (h : l.take wait = (none, l')) : l.Yields [] l' ∧
    (l.arrivedBy l'.now).length ≤ l.reader.ring.capacity ∧ l'.now = l.now + wait ∧
    l'.reader.ring.toList = [] := by
  have now := take_none h
  obtain ⟨yields, room, -⟩ := yields_await roomy quiet within le
  simp only [Link.take, Prod.mk.injEq] at h
  obtain ⟨taken, rfl⟩ := h
  have none : (l.await wait).reader.ring.toList = [] := List.head?_eq_none_iff.mp taken
  rw [take_of_nil none] at now ⊢
  exact ⟨yields, room, now, none⟩

end Link

/-! ## Sessions -/

namespace Session

variable {σ α β : Type} {s s' : Session σ} {deadline : Nat}

/-- What a look comes to, where there is room for what comes and nothing comes at the deadline. -/
theorem yields_getMessage {verdict : Frame → Option α} (roomy : s.link.Roomy verdict deadline)
    (quiet : ∀ c ∈ s.link.coming, c.1 ≠ deadline) (within : s.link.now < deadline) {wait : Nat}
    (le : s.link.now + wait ≤ deadline) {found : Except TransportError (Option Frame)}
    (h : getMessage wait s = (found, s')) : s'.name = s.name ∧
    ∃ taken, s.link.Yields taken s'.link ∧
      (s.link.arrivedBy s'.link.now).length ≤ s.link.reader.ring.capacity ∧
      match found with
      | .ok (some f) => (∃ a : Arrival, taken = [a] ∧ a.frame = f) ∧ s'.link.now < deadline
      | .ok none => taken = [] ∧ s'.link.reader.ring.toList = [] ∧ s'.link.reader.running = true
      | .error e => taken = [] ∧ s'.link.reader.ring.toList = [] ∧
          s'.link.reader.running = false ∧ e = .linkLost (.readerStopped s.name) := by
  have le : s.link.now + s.patience wait ≤ deadline := by
    have shorter : s.patience wait ≤ wait := by unfold patience; split <;> omega
    omega
  unfold getMessage at h
  cases took : s.link.take (s.patience wait) with
  | mk first link =>
  rw [took] at h
  cases first with
  | some a =>
    cases h
    obtain ⟨yields, room, lt⟩ := Link.yields_take_some roomy quiet within le took
    exact ⟨rfl, [a], yields, room, ⟨a, rfl, rfl⟩, lt⟩
  | none =>
    obtain ⟨yields, room, -, none⟩ := Link.yields_take_none roomy quiet within le took
    dsimp only at h
    split at h
    · rename_i running
      cases h
      exact ⟨rfl, [], yields, room, rfl, none, running⟩
    · rename_i stopped
      cases h
      exact ⟨rfl, [], yields, room, rfl, none, eq_false_of_ne_true stopped, rfl⟩

/-- A wait that looks again and again comes to what an ideal one comes to. -/
theorem awaitUntil_ideal (poll : Nat) {verdict : Frame → Option α}
    (roomy : s.link.Roomy verdict deadline) (quiet : ∀ c ∈ s.link.coming, c.1 ≠ deadline)
    (within : s.link.now < deadline) : (awaitUntil deadline poll verdict s).1 =
      s.link.idealWait s.name deadline verdict (fun v => .ok (some v)) (.ok none) := by
  have slice_le (s : Session σ) (within : ¬ deadline ≤ s.link.now) :
      s.link.now + slice poll (deadline - s.link.now) ≤ deadline := by
    have := slice_le poll (deadline - s.link.now)
    omega
  -- What is read at the deadline at the latest is read before it.
  have before {l l' : Link σ} (quiet : ∀ c ∈ l.coming, c.1 ≠ deadline) (le : l'.now ≤ deadline) :
      ∀ c ∈ l.coming, c.1 ≤ l'.now → c.1 < deadline := fun c mem due =>
    Nat.lt_of_le_of_ne (Nat.le_trans due le) (quiet c mem)
  have in_time {s s' : Session σ} {found} (within : ¬ deadline ≤ s.link.now)
      (h : getMessage (slice poll (deadline - s.link.now)) s = (found, s')) :
      s'.link.now ≤ deadline := by
    have le := now_getMessage_le (slice poll (deadline - s.link.now)) s
    rw [h] at le
    exact Nat.le_trans le (slice_le s within)
  fun_induction awaitUntil deadline poll verdict s with
  | case1 s late => exact absurd within (Nat.not_lt_of_le late)
  | case2 s within' e s' looked =>
    obtain ⟨-, taken, yields, -, rfl, none, stopped, rfl⟩ :=
      yields_getMessage roomy quiet within (slice_le s within') looked
    rw [yields.idealWait_eq (before quiet (in_time within' looked)) (List.forall_mem_nil _),
      Link.idealWait_of_stopped none stopped]
  | case3 s within' s' looked ih =>
    obtain ⟨name, taken, yields, room, rfl, none, running⟩ :=
      yields_getMessage roomy quiet within (slice_le s within') looked
    rw [yields.idealWait_eq (before quiet (in_time within' looked)) (List.forall_mem_nil _),
      ← name]
    by_cases more : s'.link.now < deadline
    · exact ih (yields.roomy roomy room (List.forall_mem_nil _))
        (fun c mem => quiet c (yields.mem_coming mem)) more
    · have by_now := Nat.le_of_not_lt more
      rw [awaitUntil_eq, if_pos by_now,
        Link.idealWait_of_late yields.upToDate by_now none running]
  | case4 s within' f s' looked v decided =>
    obtain ⟨-, taken, yields, -, ⟨a, rfl, rfl⟩, -⟩ :=
      yields_getMessage roomy quiet within (slice_le s within') looked
    rw [yields.idealWait_of_decided (before quiet (in_time within' looked)) decided]
  | case5 s within' f s' looked undecided ih =>
    obtain ⟨name, taken, yields, room, ⟨a, rfl, rfl⟩, more⟩ :=
      yields_getMessage roomy quiet within (slice_le s within') looked
    have undecided : ∀ b ∈ [a], verdict b.frame = none := by simpa using undecided
    rw [yields.idealWait_eq (before quiet (in_time within' looked)) undecided, ← name]
    exact ih (yields.roomy roomy room undecided)
      (fun c mem => quiet c (yields.mem_coming mem)) more

/-! ### The waits of a session -/

/-- What a verdict comes to for a call that waits for it. -/
def Verdict.result : Verdict → Except TransportError Unit
  | .accepted => .ok ()
  | .rejected => .error .commandRejected

theorem now_awaitUntil_le_deadline (timeout poll : Nat) (verdict : Frame → Option α)
    (s : Session σ) :
    (awaitUntil (s.link.now + timeout) poll verdict s).2.link.now ≤ s.link.now + timeout :=
  Nat.le_trans (now_awaitUntil_le ..) (Nat.max_le.mpr ⟨Nat.le_add_right .., Nat.le_refl _⟩)

/-- A wait for a module to be ready is an ideal one. -/
theorem waitReady_ideal (pos : 0 < s.config.readyTimeout)
    (quiet : ∀ c ∈ s.link.coming, c.1 ≠ s.link.now + s.config.readyTimeout)
    (roomy : s.link.Roomy Frame.ready? (s.link.now + s.config.readyTimeout)) :
    (waitReady s).1 =
      s.link.idealWait s.name (s.link.now + s.config.readyTimeout) Frame.ready? .ok
        (.error (.readyTimeout s.config.readyTimeout)) := by
  rw [waitReady_eq, Link.idealWait_eq_match,
    ← awaitUntil_ideal s.config.readyPoll roomy quiet (Nat.lt_add_of_pos_right pos)]
  rcases awaitUntil (s.link.now + s.config.readyTimeout) s.config.readyPoll Frame.ready? s with
    ⟨e | ⟨_ | _⟩, s'⟩ <;> rfl

variable [FarEnd σ]

/-- A call that has written waits for its verdict as an ideal wait does. -/
theorem sendAndConfirm_ideal {payload : Bytes} {terminated : Bool} {timeout : Nat}
    (wrote : write (outgoing payload terminated) s = (.ok (), s')) (pos : 0 < timeout)
    (quiet : ∀ c ∈ s'.link.coming, c.1 ≠ s'.link.now + timeout)
    (roomy : s'.link.Roomy Frame.verdict? (s'.link.now + timeout)) :
    (sendAndConfirm payload terminated timeout s).1 =
      s'.link.idealWait s'.name (s'.link.now + timeout) Frame.verdict? Verdict.result
        (.error (.ackTimeout timeout)) := by
  rw [sendAndConfirm_of_write wrote timeout, Link.idealWait_eq_match,
    ← awaitUntil_ideal s'.config.ackPoll roomy quiet (Nat.lt_add_of_pos_right pos)]
  rcases awaitUntil (s'.link.now + timeout) s'.config.ackPoll Frame.verdict? s' with
    ⟨e | ⟨_ | (_ | _)⟩, s''⟩ <;> rfl

/-- The session with other times between two looks. -/
def polling (s : Session σ) (ready ack data : Nat) : Session σ :=
  { s with config := { s.config with readyPoll := ready, ackPoll := ack, dataPoll := data } }

/-- How often a session looks says nothing about what it writes. -/
theorem write_polling {bytes : Bytes} (h : write bytes s = (.ok (), s')) (ready ack data : Nat) :
    s'.name = s.name ∧
      write bytes (s.polling ready ack data) = (.ok (), s'.polling ready ack data) := by
  have link : (s.polling ready ack data).link = s.link := rfl
  rw [write_eq] at h ⊢
  rw [link]
  cases wrote : (FarEnd.write s.link.far s.link.now bytes).1 with
  | error cause => rw [wrote] at h; cases h
  | ok => rw [wrote] at h; cases h; exact ⟨rfl, rfl⟩

/-- However long the times between two looks, a call that has written, a wait for a module to be
ready and a request for data come to what an ideal wait comes to, and are over at their deadlines:
the first frame that decides among those that come before the deadline, or else the loss of the link
if the reader stops before it, or the time that is up. Nothing may happen just at the deadline, and
nothing may have to make way for what comes while the wait takes it. A call is decided by a line that
says `ok` or `fail`, a wait for a module by one that says `ready`, and a request by a binary frame. -/
theorem waits_ideal (s : Session σ) (ready ack data : Nat) :
    (∀ f : Frame, (f.verdict? = some .accepted ↔ f.Says "ok") ∧
      (f.verdict? = some .rejected ↔ f.Says "fail") ∧ (f.ready? = some () ↔ f.Says "ready") ∧
      ∀ g, f.data? = some g ↔ f.isBinary = true ∧ f = g) ∧
    (∀ payload terminated timeout s', write (outgoing payload terminated) s = (.ok (), s') →
      0 < timeout → (∀ c ∈ s'.link.coming, c.1 ≠ s'.link.now + timeout) →
      s'.link.Roomy Frame.verdict? (s'.link.now + timeout) →
      (sendAndConfirm payload terminated timeout (s.polling ready ack data)).1 =
          s'.link.idealWait s.name (s'.link.now + timeout) Frame.verdict? Verdict.result
            (.error (.ackTimeout timeout)) ∧
        (sendAndConfirm payload terminated timeout (s.polling ready ack data)).2.link.now ≤
          s'.link.now + timeout) ∧
    (0 < s.config.readyTimeout →
      (∀ c ∈ s.link.coming, c.1 ≠ s.link.now + s.config.readyTimeout) →
      s.link.Roomy Frame.ready? (s.link.now + s.config.readyTimeout) →
      (waitReady (s.polling ready ack data)).1 =
          s.link.idealWait s.name (s.link.now + s.config.readyTimeout) Frame.ready? .ok
            (.error (.readyTimeout s.config.readyTimeout)) ∧
        (waitReady (s.polling ready ack data)).2.link.now ≤
          s.link.now + s.config.readyTimeout) ∧
    ∀ wait, 0 < wait → (∀ c ∈ s.link.coming, c.1 ≠ s.link.now + wait) →
      s.link.Roomy Frame.data? (s.link.now + wait) →
      (getDataMessage wait (s.polling ready ack data)).1 =
          s.link.idealWait s.name (s.link.now + wait) Frame.data? (fun f => .ok (some f))
            (.ok none) ∧
        (getDataMessage wait (s.polling ready ack data)).2.link.now ≤ s.link.now + wait := by
  refine ⟨fun f => ⟨f.verdict?_eq_accepted_iff, f.verdict?_eq_rejected_iff, f.ready?_eq_some_iff,
    fun g => f.data?_eq_some_iff⟩, fun payload terminated timeout s' wrote pos quiet roomy => ?confirm,
    fun pos quiet roomy => ?ready, fun wait pos quiet roomy => ?data⟩
  case confirm =>
    obtain ⟨name, wrote⟩ := write_polling wrote ready ack data
    rw [← name]
    have ideal := sendAndConfirm_ideal wrote pos quiet ⟨roomy.now, roomy.later⟩
    refine ⟨ideal, ?_⟩
    rw [sendAndConfirm_of_write wrote timeout, confirmed_snd]
    exact now_awaitUntil_le_deadline timeout ack Frame.verdict? (s'.polling ready ack data)
  case ready =>
    refine ⟨waitReady_ideal (s := s.polling ready ack data) pos quiet roomy, ?_⟩
    rw [waitReady_snd]
    exact now_awaitUntil_le_deadline ..
  case data =>
    exact ⟨awaitUntil_ideal (s := s.polling ready ack data) data roomy quiet
      (Nat.lt_add_of_pos_right pos), now_awaitUntil_le_deadline ..⟩

/-- A line, an answer, a message and then this, for a ring that keeps one frame. -/
def apart (last : Reading) : Session StandIn where
  name := "bench"
  config := { readyTimeout := 40 }
  link := {
    now := 0
    reader := .start 1
    coming := [(3, .chunk [0x78, 0x0A]), (8, .chunk [0x6F, 0x6B, 0x0A]),
      (12, .chunk [0xFC, 0, 3, 8, 0, 0, 0, 0]), (30, last)]
    far := { answer := .silent } }

/-- One frame finds room at a time, so a wait meets each of them, however it is cut: a line that
says `ok`, one that says `ready` or the end of the link, and a message that comes in time or late. -/
theorem waits_ideal_apart :
    let lost := apart .failure
    let started := apart (.chunk [0x72, 0x65, 0x61, 0x64, 0x79, 0x0D, 0x0A])
    lost.link.Roomy Frame.verdict? 20 ∧ lost.link.Roomy Frame.ready? 40 ∧
      lost.link.Roomy Frame.data? 10 ∧ lost.link.Roomy Frame.data? 20 ∧
      started.link.Roomy Frame.ready? 40 ∧
      (sendAndConfirm [0x41] true 20 (lost.polling 7 3 5)).1 = .ok () ∧
      (waitReady (lost.polling 7 3 5)).1 = .error (.linkLost (.readerStopped "bench")) ∧
      (waitReady (started.polling 7 3 5)).1 = .ok () ∧
      (getDataMessage 10 (lost.polling 7 3 5)).1 = .ok none ∧
      (getDataMessage 20 (lost.polling 7 3 5)).1 =
        .ok (some ⟨[0xFC, 0, 3, 8, 0, 0, 0, 0], true⟩) := by
  intro lost started
  have room : ∀ s ∈ [lost, started],
      (s.link.arrivedBy s.link.now).length ≤ s.link.reader.ring.capacity ∧ ∀ t < 40,
        (s.link.arrivedBy t).length ≤
          (s.link.arrivedBefore t).length + s.link.reader.ring.capacity := by decide +kernel
  have roomy {s : Session StandIn} (mem : s ∈ [lost, started]) {α : Type}
      (verdict : Frame → Option α) (deadline : Nat) (le : deadline ≤ 40) :
      s.link.Roomy verdict deadline :=
    ⟨(room s mem).1, fun t _ lt _ => (room s mem).2 t (Nat.lt_of_lt_of_le lt le)⟩
  have confirming := roomy (.head _) Frame.verdict? 20 (by decide)
  have waiting := roomy (.head _) Frame.ready? 40 (by decide)
  have waiting' := roomy (.tail _ (.head _)) Frame.ready? 40 (by decide)
  have early := roomy (.head _) Frame.data? 10 (by decide)
  have late := roomy (.head _) Frame.data? 20 (by decide)
  have quiet : ∀ c ∈ lost.link.coming, c.1 ≠ 20 ∧ c.1 ≠ 40 ∧ c.1 ≠ 10 := by decide
  have quiet' : ∀ c ∈ started.link.coming, c.1 ≠ 40 := by decide
  have written : write (outgoing [0x41] true) lost =
    (.ok (), { lost with link.far.log := [outgoing [0x41] true] }) := rfl
  obtain ⟨-, confirm, ready, data⟩ := waits_ideal lost 7 3 5
  obtain ⟨-, -, ready', -⟩ := waits_ideal started 7 3 5
  refine ⟨confirming, waiting, early, late, waiting', ?_, ?_, ?_, ?_, ?_⟩
  · rw [(confirm [0x41] true 20 _ written (by decide) (fun c mem => (quiet c mem).1)
      ⟨confirming.now, confirming.later⟩).1]
    decide +kernel
  · rw [(ready (by decide) (fun c mem => (quiet c mem).2.1) waiting).1]
    decide +kernel
  · rw [(ready' (by decide) quiet' waiting').1]
    decide +kernel
  · rw [(data 10 (by decide) (fun c mem => (quiet c mem).2.2) early).1]
    decide +kernel
  · rw [(data 20 (by decide) (fun c mem => (quiet c mem).1) late).1]
    decide +kernel

end Session

end LightLink
