/-!
# Ring buffers

A queue that holds at most `capacity` entries. An entry is always taken in; if there is no room, the
oldest one makes way for it. The bound is part of the type.

* `Ring.put`: puts an entry in and says which one had to go;
* `Ring.take`: takes the oldest entry out;
* `toList_put`, `toList_take`: what they do to the entries.
-/

namespace LightLink

/-- A queue of bounded length, oldest entry first. -/
structure Ring (α : Type) where
  capacity : Nat
  toList : List α
  capacity_pos : 0 < capacity
  length_le : toList.length ≤ capacity
  deriving Repr

namespace Ring

variable {α : Type}

/-- An empty ring for `n` entries, or for one if `n` is zero. -/
def empty (n : Nat) : Ring α := ⟨max n 1, [], by omega, Nat.zero_le _⟩

/-- How many entries there are. -/
def length (r : Ring α) : Nat := r.toList.length

/-- There is no entry. -/
def isEmpty (r : Ring α) : Bool := r.toList.isEmpty

/-- There is no room. -/
def isFull (r : Ring α) : Bool := r.capacity ≤ r.toList.length

theorem length_append_le (r : Ring α) (a : α) (h : r.toList.length < r.capacity) :
    (r.toList ++ [a]).length ≤ r.capacity := by
  rw [List.length_append]
  exact h

theorem length_tail_append_le (r : Ring α) (a : α) :
    (r.toList.tail ++ [a]).length ≤ r.capacity := by
  have := r.length_le
  have := r.capacity_pos
  simp only [List.length_append, List.length_tail, List.length_singleton]
  omega

/-- The ring with one more entry, and the one that had to go for it. -/
def put (r : Ring α) (a : α) : Ring α × Option α :=
  if h : r.toList.length < r.capacity then
    ({ r with toList := r.toList ++ [a], length_le := r.length_append_le a h }, none)
  else
    ({ r with toList := r.toList.tail ++ [a], length_le := r.length_tail_append_le a },
      r.toList.head?)

theorem length_tail_le (r : Ring α) : r.toList.tail.length ≤ r.capacity := by
  have := r.length_le
  rw [List.length_tail]
  omega

/-- The oldest entry and the ring without it. -/
def take (r : Ring α) : Option α × Ring α :=
  (r.toList.head?,
    { r with toList := r.toList.tail, length_le := r.length_tail_le })

/-- The ring without its entries. -/
def clear (r : Ring α) : Ring α := { r with toList := [], length_le := Nat.zero_le _ }

@[simp] theorem toList_empty (n : Nat) : (empty n : Ring α).toList = [] := rfl

/-- What went out and what is in are what was in and what came. -/
theorem toList_put (r : Ring α) (a : α) :
    (r.put a).2.toList ++ (r.put a).1.toList = r.toList ++ [a] := by
  unfold put
  split
  · simp
  · rename_i full
    have := r.capacity_pos
    have : r.toList ≠ [] := by intro h; simp [h] at full; omega
    show r.toList.head?.toList ++ (r.toList.tail ++ [a]) = r.toList ++ [a]
    generalize r.toList = l at *
    cases l <;> simp_all

/-- Putting an entry in adds at most that entry. -/
theorem length_put_le (r : Ring α) (a : α) : (r.put a).1.length ≤ r.length + 1 := by
  have := congrArg List.length (toList_put r a)
  simp only [List.length_append, List.length_cons, List.length_nil] at this
  unfold length
  omega

/-- What was taken and what is left are what was in. -/
theorem toList_take (r : Ring α) : r.take.1.toList ++ r.take.2.toList = r.toList := by
  cases h : r.toList <;> simp [take, h]

/-- After an entry was put in there is one. -/
theorem isEmpty_put (r : Ring α) (a : α) : (r.put a).1.isEmpty = false := by
  unfold put
  split <;> simp [isEmpty]

/-- Taking an entry out leaves one entry less. -/
theorem length_take (r : Ring α) : r.take.2.length = r.length - 1 := by simp [take, length]

end Ring

end LightLink
