import LightLink.Proofs.Session.Kept
import LightLink.Proofs.Session.Pending

/-!
# Where the frames of a link go

A frame that has come as a whole is put in the ring, and it leaves the ring when it is taken or has
to make way for another. Frames leave in the order in which they come, so a frame can be told by how
many left before it.

* `Reader.Flow`: which frames came and which left the ring between two states of a reader;
* `Reader.gone`: how many frames have left the ring;
* `Session.flows_event`: whatever is done with a session, its frames flow;
* `Session.gone_lt_awaitUntil`: a wait that finds a frame takes one out of the ring;
* `Session.awaitUntil_ring`: a wait looks at what is in the ring before anything else.
-/

namespace LightLink

/-! ## Readers -/

namespace Reader

/-- From one state of a reader to another these frames left the ring and these came. -/
structure Flow (r : Reader) (out new : List Arrival) (r' : Reader) : Prop where
  entries : r.ring.toList ++ new = out ++ r'.ring.toList
  received : r'.received = r.received + new.length

/-- Some frames left the ring and some came. -/
def FlowsTo (r r' : Reader) : Prop := ∃ out new, Flow r out new r'

/-- How many frames have left the ring, which is also the number of the oldest one in it. -/
def gone (r : Reader) : Nat := r.received - r.ring.length

/-- All that is in the ring has been counted. -/
def Counted (r : Reader) : Prop := r.ring.length ≤ r.received

variable {r r' r'' : Reader} {out out' new new' : List Arrival}

namespace Flow

theorem refl (r : Reader) : Flow r [] [] r := ⟨List.append_nil _, rfl⟩

theorem trans (h : Flow r out new r') (h' : Flow r' out' new' r'') :
    Flow r (out ++ out') (new ++ new') r'' where
  entries := by rw [← List.append_assoc, h.entries, List.append_assoc, h'.entries, List.append_assoc]
  received := by rw [h'.received, h.received, List.length_append, Nat.add_assoc]

theorem length_add (h : Flow r out new r') :
    r.ring.length + new.length = out.length + r'.ring.length := by
  have e := congrArg List.length h.entries
  rwa [List.length_append, List.length_append] at e

theorem counted (h : Flow r out new r') (counted : r.Counted) : r'.Counted := by
  have e := h.length_add
  have e' := h.received
  unfold Counted at *
  omega

/-- What leaves the ring is counted. -/
theorem gone_eq (h : Flow r out new r') (counted : r.Counted) :
    r'.gone = r.gone + out.length := by
  have e := h.length_add
  have e' := h.received
  unfold Counted at counted
  unfold gone
  omega

end Flow

namespace FlowsTo

theorem refl (r : Reader) : r.FlowsTo r := ⟨[], [], .refl r⟩

theorem trans (h : r.FlowsTo r') (h' : r'.FlowsTo r'') : r.FlowsTo r'' := by
  obtain ⟨out, new, h⟩ := h
  obtain ⟨out', new', h'⟩ := h'
  exact ⟨_, _, h.trans h'⟩

theorem counted (h : r.FlowsTo r') (counted : r.Counted) : r'.Counted := by
  obtain ⟨out, new, h⟩ := h
  exact h.counted counted

theorem gone_le (h : r.FlowsTo r') (counted : r.Counted) : r.gone ≤ r'.gone := by
  obtain ⟨out, new, h⟩ := h
  rw [h.gone_eq counted]
  exact Nat.le_add_right ..

end FlowsTo

theorem flow_put (r : Reader) (a : Arrival) :
    Flow r (r.ring.put a).2.toList [a]
      { r with ring := (r.ring.put a).1, received := r.received + 1 } :=
  ⟨(r.ring.toList_put a).symm, rfl⟩

theorem flows_keep (r : Reader) (time : Nat) (fs : List Frame) : r.FlowsTo (r.keep time fs) := by
  induction fs generalizing r with
  | nil => exact .refl r
  | cons f fs ih => exact .trans ⟨_, _, r.flow_put ⟨f, time⟩⟩ (ih _)

theorem flows_read (r : Reader) (time : Nat) (x : Reading) : r.FlowsTo (r.read time x) := by
  unfold read
  split
  · exact .refl r
  · cases x with
    | chunk bytes =>
      obtain ⟨out, new, h⟩ :=
        flows_keep { r with assembler := (r.assembler.feed bytes).1 } time (r.assembler.feed bytes).2
      exact ⟨out, new, h.entries, h.received⟩
    | _ => exact ⟨[], [], List.append_nil _, rfl⟩

/-- The oldest frame leaves the ring when it is taken. -/
theorem flow_take (r : Reader) : Flow r r.take.1.toList [] r.take.2 :=
  ⟨(List.append_nil _).trans r.ring.toList_take.symm, rfl⟩

/-- Whatever a reader reads and whatever is taken from it, its frames flow. -/
theorem kept_flowsTo (r : Reader) : Kept r.FlowsTo where
  read {r'} h time x := h.trans (r'.flows_read time x)
  take {r'} h := h.trans ⟨_, _, r'.flow_take⟩

end Reader

/-! ## Links -/

namespace Link

variable {σ : Type}

theorem flows_settle (l : Link σ) : l.reader.FlowsTo l.settle.reader :=
  l.reader.kept_flowsTo.settle (.refl _)

theorem flows_await (l : Link σ) (wait : Nat) : l.reader.FlowsTo (l.await wait).reader :=
  l.reader.kept_flowsTo.await (.refl _) wait

theorem gone_lt_take {l l' : Link σ} (counted : l.reader.Counted) {wait : Nat} {a : Arrival}
    (h : l.take wait = (some a, l')) : l.reader.gone < l'.reader.gone := by
  have flows := l.flows_await wait
  have taken := (l.await wait).reader.flow_take.gone_eq (flows.counted counted)
  simp only [Link.take, Prod.mk.injEq] at h
  obtain ⟨first, rfl⟩ := h
  rw [first] at taken
  exact Nat.lt_of_le_of_lt (flows.gone_le counted) (Nat.lt_of_succ_le (Nat.le_of_eq taken.symm))

/-! ### What is due -/

theorem takeIn_snd (now : Nat) (r : Reader) (coming : List (Nat × Reading)) :
    (takeIn now r coming).2 = notDue now coming := by
  induction coming generalizing r with
  | nil => rfl
  | cons c coming ih =>
    rw [takeIn, notDue, List.dropWhile_cons]
    by_cases h : c.1 ≤ now
    · rw [if_pos h, if_pos (by simpa using h)]
      exact ih _
    · rw [if_neg h, if_neg (by simpa using h)]

/-- All that is due has been taken in. -/
def UpToDate (l : Link σ) : Prop := due l.now l.coming = []

theorem upToDate_takeIn (now : Nat) (r : Reader) (coming : List (Nat × Reading)) :
    due now (takeIn now r coming).2 = [] := by
  rw [takeIn_snd]
  induction coming with
  | nil => rfl
  | cons c coming ih =>
    by_cases h : c.1 ≤ now
    · rw [notDue, List.dropWhile_cons, if_pos (by simpa using h)]
      exact ih
    · rw [notDue, List.dropWhile_cons, if_neg (by simpa using h), due, List.takeWhile_cons,
        if_neg (by simpa using h)]

namespace UpToDate

variable {l : Link σ} (h : l.UpToDate)

include h

theorem settle_eq : l.settle = l := by
  obtain ⟨now, reader, coming, far⟩ := l
  cases coming with
  | nil => rfl
  | cons c coming =>
    have later : ¬ c.1 ≤ now := by
      intro le
      rw [UpToDate, due, List.takeWhile_cons, if_pos (by simpa using le)] at h
      cases h
    unfold settle
    rw [takeIn, if_neg later]

/-- What is in the ring is taken at once. -/
theorem take_eq {a : Arrival} {as : List Arrival} (first : l.reader.ring.toList = a :: as)
    (wait : Nat) : l.take wait = (some a, { l with reader := l.reader.take.2 }) := by
  have there : l.reader.ring.isEmpty = false := by simp [Ring.isEmpty, first]
  have e : l.await wait = l := by
    unfold await
    rw [h.settle_eq, if_neg (by simp [there])]
  unfold take
  rw [e]
  simp [Reader.take, Ring.take, first]

end UpToDate

variable [FarEnd σ]

theorem upToDate_write (l : Link σ) (bytes : Bytes) : (l.write bytes).2.UpToDate :=
  upToDate_takeIn ..

/-- A write takes in what is due before it writes. -/
theorem flows_write (l : Link σ) (bytes : Bytes) :
    l.settle.reader.FlowsTo (l.write bytes).2.reader :=
  l.settle.reader.kept_flowsTo.takeIn (.refl _) ..

end Link

/-! ## Sessions -/

namespace Session

variable {σ α : Type} {s s' : Session σ}

/-- The reader of a session. -/
def reader (s : Session σ) : Reader := s.link.reader

/-! ### Waiting -/

theorem flows_getMessage {wait : Nat} {found : Except TransportError (Option Frame)}
    (h : getMessage wait s = (found, s')) : s.reader.FlowsTo s'.reader := by
  have flows := s.reader.kept_flowsTo.getMessage (.refl _) wait
  rwa [h] at flows

/-- A look that finds a frame takes it out of the ring. -/
theorem gone_lt_getMessage {wait : Nat} {f : Frame} (counted : s.reader.Counted)
    (h : getMessage wait s = (.ok (some f), s')) : s.reader.gone < s'.reader.gone := by
  obtain ⟨a, taken, -⟩ := take_of_getMessage h
  exact Link.gone_lt_take counted taken

/-- A wait that finds a frame takes one out of the ring. -/
theorem gone_lt_awaitUntil {deadline poll : Nat} {verdict : Frame → Option α} {v : α}
    (counted : s.reader.Counted)
    (h : awaitUntil deadline poll verdict s = (.ok (some v), s')) :
    s.reader.gone < s'.reader.gone := by
  fun_induction awaitUntil deadline poll verdict s with
  | case1 s late => cases h
  | case2 s within e s₁ look => cases h
  | case3 s within s₁ look ih =>
    have flows := flows_getMessage look
    exact Nat.lt_of_le_of_lt (flows.gone_le counted) (ih (flows.counted counted) h)
  | case4 s within f s₁ look v decided =>
    cases h
    exact gone_lt_getMessage counted look
  | case5 s within f s₁ look undecided ih =>
    have lt := gone_lt_getMessage counted look
    exact Nat.lt_trans lt (ih ((flows_getMessage look).counted counted) h)

/-! ### What is there -/

theorem awaitUntil_eq (deadline poll : Nat) (verdict : Frame → Option α) (s : Session σ) :
    awaitUntil deadline poll verdict s =
      if deadline ≤ s.link.now then (.ok none, s)
      else
        match getMessage (slice poll (deadline - s.link.now)) s with
        | (.error e, s') => (.error e, s')
        | (.ok none, s') => awaitUntil deadline poll verdict s'
        | (.ok (some f), s') =>
          match verdict f with
          | some a => (.ok (some a), s')
          | none => awaitUntil deadline poll verdict s' := by
  -- The definition keeps what it found as an equation, for its termination; here that is dropped.
  rw [awaitUntil]
  split
  · rfl
  · split
    · rename_i look; rw [look]
    · rename_i look; rw [look]
    · rename_i f s' look
      cases decided : verdict f <;> simp only [look, decided]

/-- The session once these frames have been taken out of its ring. -/
def drain (s : Session σ) : List Arrival → Session σ
  | [] => s
  | a :: as =>
    drain { s with
      link := { s.link with reader := s.link.reader.take.2 }
      lastReceived := some a.time } as

@[simp] theorem now_drain (s : Session σ) (as : List Arrival) :
    (s.drain as).link.now = s.link.now := by
  induction as generalizing s with
  | nil => rfl
  | cons a as ih => exact ih _

@[simp] theorem coming_drain (s : Session σ) (as : List Arrival) :
    (s.drain as).link.coming = s.link.coming := by
  induction as generalizing s with
  | nil => rfl
  | cons a as ih => exact ih _

@[simp] theorem config_drain (s : Session σ) (as : List Arrival) :
    (s.drain as).config = s.config := by
  induction as generalizing s with
  | nil => rfl
  | cons a as ih => exact ih _

/-- Frames that are taken out of the ring leave those behind them. -/
theorem flow_drain {as rest : List Arrival} (h : s.reader.ring.toList = as ++ rest) :
    s.reader.Flow as [] (s.drain as).reader ∧ (s.drain as).reader.ring.toList = rest := by
  induction as generalizing s with
  | nil => exact ⟨.refl _, h⟩
  | cons a as ih =>
    have taken := s.reader.flow_take
    have first : s.reader.take.1 = some a := by simp [Reader.take, Ring.take, h]
    rw [first] at taken
    have left : s.reader.take.2.ring.toList = as ++ rest := by simp [Reader.take, Ring.take, h]
    obtain ⟨flow, rest⟩ := ih (s := { s with
      link := { s.link with reader := s.link.reader.take.2 }
      lastReceived := some a.time }) left
    exact ⟨taken.trans flow, rest⟩

theorem getMessage_of_ring (now : s.link.UpToDate) {a : Arrival} {as : List Arrival}
    (h : s.reader.ring.toList = a :: as) (wait : Nat) :
    getMessage wait s = (.ok (some a.frame), s.drain [a]) := by
  unfold getMessage
  rw [now.take_eq h]
  rfl

/-- A wait takes what is in its ring and does not decide before it looks for more. -/
theorem awaitUntil_drain {deadline : Nat} (poll : Nat) {verdict : Frame → Option α}
    (now : s.link.UpToDate) (within : s.link.now < deadline) {as rest : List Arrival}
    (h : s.reader.ring.toList = as ++ rest) (undecided : ∀ a ∈ as, verdict a.frame = none) :
    awaitUntil deadline poll verdict s = awaitUntil deadline poll verdict (s.drain as) := by
  induction as generalizing s with
  | nil => rfl
  | cons a as ih =>
    have left : (s.drain [a]).reader.ring.toList = as ++ rest :=
      (flow_drain (show s.reader.ring.toList = [a] ++ (as ++ rest) from h)).2
    rw [awaitUntil_eq, if_neg (Nat.not_le_of_lt within), getMessage_of_ring now h]
    dsimp only
    rw [undecided a (.head _)]
    exact ih now within left fun b mem => undecided b (.tail _ mem)

/-- A wait looks at what is in the ring before anything else, and the first of it that decides is
the one that decides the wait. -/
theorem awaitUntil_ring {deadline : Nat} (poll : Nat) {verdict : Frame → Option α}
    (now : s.link.UpToDate) (within : s.link.now < deadline) {as rest : List Arrival} {a : Arrival}
    {v : α} (h : s.reader.ring.toList = as ++ a :: rest)
    (undecided : ∀ b ∈ as, verdict b.frame = none) (decided : verdict a.frame = some v) :
    awaitUntil deadline poll verdict s = (.ok (some v), s.drain (as ++ [a])) := by
  have drained : ∀ s : Session σ, (s.drain as).drain [a] = s.drain (as ++ [a]) := by
    intro s
    clear h undecided
    induction as generalizing s with
    | nil => rfl
    | cons b as ih => exact ih _
  have now' : (s.drain as).link.UpToDate := by
    unfold Link.UpToDate
    rw [coming_drain, now_drain]
    exact now
  rw [awaitUntil_drain poll now within h undecided, awaitUntil_eq,
    if_neg (by rw [now_drain]; omega), getMessage_of_ring now' (flow_drain h).2]
  dsimp only
  rw [decided, drained]

/-! ### Events -/

variable [FarEnd σ]

theorem flows_write (bytes : Bytes) (s : Session σ) :
    s.link.settle.reader.FlowsTo (write bytes s).2.reader := by
  unfold reader
  rw [link_write]
  exact s.link.flows_write bytes

/-- Whatever is done with a session, its frames flow. -/
theorem flows_event (s : Session σ) (e : Event σ) : s.reader.FlowsTo (e.next s).reader :=
  s.reader.kept_flowsTo.event (.refl _) e

/-- A session that has just been set up has counted what is in its ring. -/
theorem counted_attach (name : String) (config : SessionConfig) (far : σ) :
    (attach name config far).reader.Counted := by
  have start : (Reader.start config.capacity).Counted := Nat.zero_le _
  exact ((Reader.kept_flowsTo _).takeIn (.refl _) ..).counted start

end Session

end LightLink
