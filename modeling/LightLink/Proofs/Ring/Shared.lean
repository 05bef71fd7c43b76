import Mathlib.Logic.Function.Basic
import LightLink.Ring

/-!
# A ring that parties share

Producers put entries into a ring and consumers take them out, in any order, each while it holds the
ring's lock. A consumer that finds none may wait: it lets go of the lock and looks again whenever it
is woken, until its deadline has come.

* `Ring.length_put`, `Ring.evicted_put`: what an entry that is put in does to the others;
* `Ring.Newest`: a ring that holds the newest of some entries;
* `Ring.Shared.step`, `Ring.Shared.run`: what parties do with a ring, one after the other;
* `Ring.Shared.step_entries`: what a party puts in comes behind all others, and what leaves comes
  from the front;
* `Ring.Shared.run_entries`: so what has left and what is there is all that was put in, in order;
* `Ring.Shared.step_yields`, `Ring.Shared.run_yields`: what comes of an act, which depends on whether
  the party waits, and `Ring.Shared.isSome_waiting_run`: its last outcomes say whether it does.
-/

namespace LightLink.Ring

variable {ι α : Type}

/-! ## Entries that are put in -/

@[simp] theorem capacity_put (r : Ring α) (a : α) : (r.put a).1.capacity = r.capacity := by
  unfold put
  split <;> rfl

/-- An entry adds to the others as long as there is room. -/
theorem length_put (r : Ring α) (a : α) :
    (r.put a).1.length = min (r.length + 1) r.capacity := by
  have le := r.length_le
  have pos := r.capacity_pos
  unfold put length
  split
  · rw [List.length_append, List.length_singleton]
    omega
  · rw [List.length_append, List.length_tail, List.length_singleton]
    omega

/-- Where there is no room, the oldest entry makes way. -/
theorem evicted_put (r : Ring α) (a : α) :
    (r.put a).2 = if r.length = r.capacity then r.toList.head? else none := by
  have le := r.length_le
  unfold put length
  split
  · rw [if_neg (by omega)]
  · rw [if_pos (by omega)]

/-- An entry makes way just where there is no room, and then it is the oldest. -/
theorem evicted_put_iff (r : Ring α) (a b : α) :
    (r.put a).2 = some b ↔ r.length = r.capacity ∧ r.toList.head? = some b := by
  rw [evicted_put]
  split
  · rename_i full
    simp [full]
  · rename_i room
    simp [room]

theorem isSome_evicted_put (r : Ring α) (a : α) :
    (r.put a).2.isSome ↔ r.length = r.capacity := by
  have pos := r.capacity_pos
  rw [evicted_put]
  split
  · rename_i full
    have some_entry : r.toList ≠ [] := by
      intro none
      rw [length, none, List.length_nil] at full
      omega
    simp [full, some_entry]
  · rename_i room
    simp [room]

/-! ## The newest entries -/

/-- The ring holds the last of these entries, as many as there is room for. -/
structure Newest (r : Ring α) (as : List α) : Prop where
  suffix : r.toList <:+ as
  length : r.length = min as.length r.capacity

namespace Newest

variable {r : Ring α} {as : List α}

theorem of_empty (empty : r.toList = []) : r.Newest [] :=
  ⟨empty ▸ List.suffix_rfl, by rw [Ring.length, empty, List.length_nil, Nat.zero_min]⟩

theorem put (h : r.Newest as) (a : α) : (r.put a).1.Newest (as ++ [a]) where
  suffix := by
    obtain ⟨before, e⟩ := h.suffix
    refine ⟨before ++ (r.put a).2.toList, ?_⟩
    rw [List.append_assoc, r.toList_put, ← List.append_assoc, e]
  length := by
    rw [length_put, capacity_put, h.length, List.length_append, List.length_singleton]
    omega

theorem eq_nil_iff (h : r.Newest as) : r.toList = [] ↔ as = [] := by
  have length := h.length
  have pos := r.capacity_pos
  rw [← List.length_eq_zero_iff, ← List.length_eq_zero_iff]
  unfold Ring.length at length
  omega

end Newest

/-! ## Parties -/

/-- A ring, and until when each party waits for an entry if it waits for one. -/
structure Shared (ι α : Type) where
  ring : Ring α
  waiting : ι → Option Nat := fun _ => none

/-- What a party does while it holds the lock. -/
inductive Act (α : Type) where
  | put (a : α)
  | tryGet
  /-- Begins to look for an entry for as long as it may wait. -/
  | get (wait : Nat)
  /-- Looks again for the entry that it waits for. -/
  | wake
  | clear
  deriving DecidableEq, Repr

/-- A party's turn. -/
structure Turn (ι α : Type) where
  who : ι
  now : Nat
  act : Act α
  deriving DecidableEq, Repr

/-- What comes of a turn. -/
inductive Outcome (α : Type) where
  | put (a : α) (evicted : Option α)
  | got (a : α)
  /-- It returns without an entry. -/
  | nothing
  /-- It waits for an entry. -/
  | waits
  | cleared (dropped : List α)
  /-- A party that waits only looks again, and one that does not wait has nothing to look for. -/
  | refused
  deriving DecidableEq, Repr

namespace Outcome

/-- What comes of a look for an entry, if `missing` comes of finding none. -/
def ofTaken (missing : Outcome α) : Option α → Outcome α
  | some a => got a
  | none => missing

/-- The entry that has been put in. -/
def entered? : Outcome α → Option α
  | put a _ => some a
  | _ => none

/-- The entries that have left the ring, the oldest first. -/
def removed : Outcome α → List α
  | put _ evicted => evicted.toList
  | got a => [a]
  | cleared dropped => dropped
  | _ => []

/-- Whether a party waits for an entry after a turn, if it did or did not before. -/
def leaves (waited : Bool) : Outcome α → Bool
  | waits => true
  | refused => waited
  | _ => false

/-- What an outcome says of the ring before the turn. -/
def Tells (r : Ring α) : Outcome α → Prop
  | put _ evicted => (evicted.isSome ↔ r.length = r.capacity) ∧
      ∀ b, evicted = some b → r.toList.head? = some b
  | got a => r.toList.head? = some a
  | nothing => r.toList = []
  | waits => r.toList = []
  | cleared dropped => dropped = r.toList
  | refused => True

end Outcome

/-- What may come of an act of a party that waits for an entry, or of one that does not. -/
def Act.Yields : Act α → (waits : Bool) → Outcome α → Prop
  | put a, false, o => ∃ evicted, o = .put a evicted
  | tryGet, false, o => (∃ a, o = .got a) ∨ o = .nothing
  | get _, false, o => (∃ a, o = .got a) ∨ o = .nothing ∨ o = .waits
  | wake, true, o => (∃ a, o = .got a) ∨ o = .nothing ∨ o = .waits
  | clear, false, o => ∃ dropped, o = .cleared dropped
  | wake, false, o => o = .refused
  | put _, true, o | tryGet, true, o | get _, true, o | clear, true, o => o = .refused

namespace Shared

/-- Nobody has done anything with a ring for `capacity` entries. -/
def start (capacity : Nat) : Shared ι α := { ring := .empty capacity }

variable [DecidableEq ι]

/-- A party looks for an entry in a wait that ends at a deadline. -/
def look (s : Shared ι α) (who : ι) (now deadline : Nat) : Outcome α × Shared ι α :=
  let late := deadline ≤ now
  (.ofTaken (if late then .nothing else .waits) s.ring.take.1,
    { ring := s.ring.take.2
      waiting := Function.update s.waiting who
        (if s.ring.isEmpty ∧ ¬ late then some deadline else none) })

/-- Whoever looks for an entry waits on if there is none and there is time left. -/
theorem waiting_look (s : Shared ι α) (who : ι) (now deadline : Nat) :
    (s.look who now deadline).2.waiting who =
      if s.ring.isEmpty ∧ ¬ deadline ≤ now then some deadline else none :=
  Function.update_self ..

/-- A party takes its turn. -/
def step (s : Shared ι α) (t : Turn ι α) : Outcome α × Shared ι α :=
  match t.act, s.waiting t.who with
  | .put a, none => (.put a (s.ring.put a).2, { s with ring := (s.ring.put a).1 })
  | .tryGet, none => (.ofTaken .nothing s.ring.take.1, { s with ring := s.ring.take.2 })
  | .get wait, none => s.look t.who t.now (t.now + wait)
  | .wake, some deadline => s.look t.who t.now deadline
  | .clear, none => (.cleared s.ring.toList, { s with ring := s.ring.clear })
  | _, _ => (.refused, s)

/-- Parties take turns: what comes of each, and what they leave. -/
def run (s : Shared ι α) : List (Turn ι α) → List (Outcome α) × Shared ι α
  | [] => ([], s)
  | t :: turns =>
    ((s.step t).1 :: ((s.step t).2.run turns).1, ((s.step t).2.run turns).2)

/-! ### One turn -/

/-- What a turn does to the entries: they leave at the front and come at the end. -/
structure Moves (r : Ring α) (o : Outcome α) (r' : Ring α) : Prop where
  entries : o.removed ++ r'.toList = r.toList ++ o.entered?.toList
  capacity : r'.capacity = r.capacity
  tells : o.Tells r

/-- A look takes the oldest entry out. -/
theorem moves_take (r : Ring α) {missing : Outcome α} (h : missing = .nothing ∨ missing = .waits) :
    Moves r (.ofTaken missing r.take.1) r.take.2 := by
  have entries := r.toList_take
  cases first : r.take.1 with
  | some a =>
    rw [first] at entries
    exact ⟨entries.trans (List.append_nil _).symm, rfl, first⟩
  | none =>
    rw [first] at entries
    have empty : r.toList = [] := List.head?_eq_none_iff.mp first
    rcases h with rfl | rfl
    · exact ⟨entries.trans (List.append_nil _).symm, rfl, empty⟩
    · exact ⟨entries.trans (List.append_nil _).symm, rfl, empty⟩

theorem moves_put (r : Ring α) (a : α) : Moves r (.put a (r.put a).2) (r.put a).1 :=
  ⟨r.toList_put a, r.capacity_put a, r.isSome_evicted_put a,
    fun b evicted => ((r.evicted_put_iff a b).mp evicted).2⟩

theorem moves_clear (r : Ring α) : Moves r (.cleared r.toList) r.clear := ⟨rfl, rfl, rfl⟩

theorem moves_refused (r : Ring α) : Moves r .refused r := ⟨(List.append_nil _).symm, rfl, trivial⟩

/-- What a turn does to the entries. -/
theorem step_entries (s : Shared ι α) (t : Turn ι α) :
    Moves s.ring (s.step t).1 (s.step t).2.ring := by
  have looks : ∀ deadline, Moves s.ring (s.look t.who t.now deadline).1
      (s.look t.who t.now deadline).2.ring := by
    intro deadline
    refine moves_take s.ring ?_
    split
    · exact .inl rfl
    · exact .inr rfl
  unfold step
  split
  · exact moves_put ..
  · exact moves_take _ (.inl rfl)
  · exact looks _
  · exact looks _
  · exact moves_clear _
  · exact moves_refused _

/-! ### Any number of turns -/

/-- What has left and what is there is what was there and what was put in. -/
theorem run_entries (s : Shared ι α) (turns : List (Turn ι α)) :
    (s.run turns).1.flatMap Outcome.removed ++ (s.run turns).2.ring.toList =
      s.ring.toList ++ (s.run turns).1.filterMap Outcome.entered? := by
  induction turns generalizing s with
  | nil => exact (List.append_nil _).symm
  | cons t turns ih =>
    have moves := s.step_entries t
    have cons : (s.run (t :: turns)).1.filterMap Outcome.entered? =
        (s.step t).1.entered?.toList ++ ((s.step t).2.run turns).1.filterMap Outcome.entered? := by
      rw [run, List.filterMap_cons]
      cases (s.step t).1.entered? <;> rfl
    rw [cons, ← List.append_assoc, ← moves.entries, List.append_assoc, ← ih, ← List.append_assoc]
    rfl

theorem capacity_run (s : Shared ι α) (turns : List (Turn ι α)) :
    (s.run turns).2.ring.capacity = s.ring.capacity := by
  induction turns generalizing s with
  | nil => rfl
  | cons t turns ih => exact (ih _).trans (s.step_entries t).capacity

theorem getElem?_run (s : Shared ι α) (turns : List (Turn ι α)) (n : Nat) :
    (s.run turns).1[n]? = turns[n]?.map fun t => ((s.run (turns.take n)).2.step t).1 := by
  induction turns generalizing s n with
  | nil => rfl
  | cons t turns ih =>
    cases n with
    | zero => rfl
    | succ n => exact ih (s.step t).2 n

/-! ### Acts and outcomes -/

/-- What comes of a look. -/
theorem ofTaken_cases (missing : Outcome α) (first : Option α) :
    (∃ a, Outcome.ofTaken missing first = .got a) ∨ Outcome.ofTaken missing first = missing := by
  cases first with
  | some a => exact .inl ⟨a, rfl⟩
  | none => exact .inr rfl

theorem look_cases (s : Shared ι α) (who : ι) (now deadline : Nat) :
    (∃ a, (s.look who now deadline).1 = .got a) ∨ (s.look who now deadline).1 = .nothing ∨
      (s.look who now deadline).1 = .waits := by
  refine (ofTaken_cases _ s.ring.take.1).imp_right fun missing => ?_
  by_cases late : deadline ≤ now
  · exact .inl (missing.trans (if_pos late))
  · exact .inr (missing.trans (if_neg late))

/-- A turn has one of the outcomes of its act. -/
theorem step_yields (s : Shared ι α) (t : Turn ι α) :
    t.act.Yields (s.waiting t.who).isSome (s.step t).1 := by
  obtain ⟨who, now, act⟩ := t
  unfold step
  cases waits : s.waiting who with
  | none =>
    cases act with
    | put a => exact ⟨_, rfl⟩
    | tryGet => exact ofTaken_cases ..
    | get wait => exact s.look_cases ..
    | wake => rfl
    | clear => exact ⟨_, rfl⟩
  | some deadline =>
    cases act with
    | wake => exact s.look_cases ..
    | put | tryGet | get | clear => rfl

/-- Whoever looks for an entry waits just if the look says so. -/
theorem isSome_waiting_look (s : Shared ι α) (who : ι) (now deadline : Nat) (waited : Bool) :
    ((s.look who now deadline).2.waiting who).isSome =
      (s.look who now deadline).1.leaves waited := by
  rw [waiting_look]
  show (if s.ring.toList.isEmpty ∧ ¬ deadline ≤ now then some deadline else none).isSome =
    (Outcome.ofTaken (if deadline ≤ now then .nothing else .waits) s.ring.toList.head?).leaves waited
  cases s.ring.toList with
  | nil => by_cases late : deadline ≤ now <;> simp [late, Outcome.ofTaken, Outcome.leaves]
  | cons a as => rfl

theorem waiting_look_of_ne (s : Shared ι α) {who who' : ι} (other : who' ≠ who)
    (now deadline : Nat) : (s.look who now deadline).2.waiting who' = s.waiting who' :=
  Function.update_of_ne other ..

/-- A turn says whether the party waits afterwards, and leaves it open for the others. -/
theorem isSome_waiting_step (s : Shared ι α) (t : Turn ι α) (who : ι) :
    ((s.step t).2.waiting who).isSome =
      if t.who = who then (s.step t).1.leaves (s.waiting who).isSome
      else (s.waiting who).isSome := by
  obtain ⟨who', now, act⟩ := t
  split
  · rename_i same
    subst same
    unfold step
    cases waits : s.waiting who' with
    | none =>
      cases act with
      | get wait => exact s.isSome_waiting_look ..
      | tryGet =>
        have none_waits := congrArg Option.isSome waits
        rcases ofTaken_cases .nothing s.ring.take.1 with ⟨a, got⟩ | nothing
        · exact none_waits.trans (congrArg (Outcome.leaves _) got).symm
        · exact none_waits.trans (congrArg (Outcome.leaves _) nothing).symm
      | put | wake | clear => exact congrArg Option.isSome waits
    | some deadline =>
      cases act with
      | wake => exact s.isSome_waiting_look ..
      | put | tryGet | get | clear => exact congrArg Option.isSome waits
  · rename_i other
    unfold step
    split
    · rfl
    · rfl
    · exact congrArg Option.isSome (s.waiting_look_of_ne (Ne.symm other) ..)
    · exact congrArg Option.isSome (s.waiting_look_of_ne (Ne.symm other) ..)
    · rfl
    · rfl

/-- Whether a party waits for an entry after turns with these outcomes, if it did or did not before:
the last of its turns that was not refused says so. -/
def waitsAfter (who : ι) (waited : Bool) (played : List (Turn ι α × Outcome α)) : Bool :=
  played.foldl (fun waits p => if p.1.who = who then p.2.leaves waits else waits) waited

/-- Turns and their outcomes say who waits. -/
theorem isSome_waiting_run (s : Shared ι α) (turns : List (Turn ι α)) (who : ι) :
    ((s.run turns).2.waiting who).isSome =
      waitsAfter who (s.waiting who).isSome (turns.zip (s.run turns).1) := by
  induction turns generalizing s with
  | nil => rfl
  | cons t turns ih =>
    rw [run, ih, isSome_waiting_step]
    rfl

theorem take_run (s : Shared ι α) (turns : List (Turn ι α)) (n : Nat) :
    (s.run (turns.take n)).1 = (s.run turns).1.take n := by
  induction turns generalizing s n with
  | nil => rw [List.take_nil]; exact (List.take_nil ..).symm
  | cons t turns ih =>
    cases n with
    | zero => rfl
    | succ n => exact congrArg _ (ih (s.step t).2 n)

/-- Every turn has one of the outcomes of its act, which depends on whether the party waits. -/
theorem run_yields (s : Shared ι α) (turns : List (Turn ι α)) {n : Nat} {t : Turn ι α}
    (at_n : turns[n]? = some t) : ∃ o, (s.run turns).1[n]? = some o ∧
      t.act.Yields (waitsAfter t.who (s.waiting t.who).isSome
        ((turns.zip (s.run turns).1).take n)) o := by
  have waits := isSome_waiting_run s (turns.take n) t.who
  have played : (turns.take n).zip ((s.run turns).1.take n) =
      (turns.zip (s.run turns).1).take n := List.take_zipWith.symm
  rw [take_run, played] at waits
  rw [getElem?_run, at_n, ← waits]
  exact ⟨_, rfl, step_yields _ t⟩

/-- However parties take turns with a ring, the entries that have left it, each when it was taken,
made way for another or was dropped, and then those that are there are all that was put in, in this
order; there are never more than there is room for; an entry makes way just where there is no room,
and then it is the oldest; and whoever looks for an entry and returns without one has found none.
A party that does not wait does what it wants to do, and one that waits only looks again. -/
theorem run_fifo (capacity : Nat) (turns : List (Turn ι α)) :
    let (outcomes, s) := (start capacity : Shared ι α).run turns
    outcomes.flatMap Outcome.removed ++ s.ring.toList = outcomes.filterMap Outcome.entered? ∧
      s.ring.toList.length ≤ max capacity 1 ∧
      (∀ n o, outcomes[n]? = some o →
        let r := ((start capacity : Shared ι α).run (turns.take n)).2.ring
        r.capacity = max capacity 1 ∧ o.Tells r) ∧
      ∀ n (t : Turn ι α), turns[n]? = some t → ∃ o, outcomes[n]? = some o ∧
        t.act.Yields (waitsAfter t.who false ((turns.zip outcomes).take n)) o := by
  refine ⟨run_entries _ turns, ?_, fun n o at_n => ⟨capacity_run .., ?_⟩,
    fun n t at_n => run_yields _ turns at_n⟩
  · have le := ((start capacity : Shared ι α).run turns).2.ring.length_le
    rwa [capacity_run] at le
  · rw [getElem?_run] at at_n
    obtain ⟨t, -, rfl⟩ := Option.map_eq_some_iff.mp at_n
    exact (step_entries _ t).tells

/-- A ring for no entry has room for one; a consumer waits, is woken, finds an entry, and later
waits to no avail. -/
theorem run_fifo_narrow :
    let turns : List (Turn Bool Nat) := [⟨true, 0, .put 1⟩, ⟨true, 1, .put 2⟩, ⟨false, 2, .tryGet⟩,
      ⟨false, 3, .get 5⟩, ⟨true, 4, .put 3⟩, ⟨false, 4, .wake⟩, ⟨false, 5, .get 1⟩,
      ⟨false, 6, .wake⟩]
    let outcomes : List (Outcome Nat) :=
      [.put 1 none, .put 2 (some 1), .got 2, .waits, .put 3 none, .got 3, .waits, .nothing]
    ((start 0).run turns).1 = outcomes ∧
      outcomes.flatMap Outcome.removed ++ ((start 0).run turns).2.ring.toList = [1, 2, 3] ∧
      ((start 0).run (turns.take 1)).2.ring.toList.head? = some 1 ∧
      ((start 0).run (turns.take 7)).2.ring.toList = [] := by
  intro turns outcomes
  obtain ⟨entries, -, tells, -⟩ := run_fifo 0 turns
  obtain ⟨-, -, oldest⟩ := tells 1 (.put 2 (some 1)) rfl
  obtain ⟨-, none_there⟩ := tells 7 .nothing rfl
  exact ⟨rfl, entries, oldest 1 rfl, none_there⟩

end Shared

end LightLink.Ring
