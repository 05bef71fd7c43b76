import LightLink.Scan.Scanner

/-!
# What a registry knows

An entry that is put in changes what is known of its own address and of no other. So what a poll
tells is known of the address that was polled, and a poll of one address says nothing about another.

* `Registry.get?_insert`, `Registry.get?_silent`: what is known once something was put in;
* `KnownModule.told`: what is known of an address once it was polled;
* `Registry.get?_note`, `Registry.get?_notes`: what is known after polls;
* `Registry.identity_notes`: who is known after polls of which some fail;
* `Registry.mem_toList_iff`: the entries are what is known.
-/

namespace LightLink

/-- What is known of an address where somebody or nobody has answered a poll. -/
def KnownModule.told (k : Option KnownModule) : Option Identity → Option KnownModule
  | some i => some ⟨i, true⟩
  | none => k.map fun k => { k with active := false }

/-- What is told twice is known as if it had been told once. -/
theorem KnownModule.told_told (k : Option KnownModule) (o : Option Identity) :
    told (told k o) o = told k o := by
  cases o with
  | some i => rfl
  | none => cases k <;> rfl

theorem KnownModule.told_eq_active {k : Option KnownModule} {o : Option Identity} {i : Identity} :
    told k o = some ⟨i, true⟩ ↔ o = some i := by
  cases o with
  | some j => simp [told]
  | none => cases k <;> simp [told]

theorem KnownModule.told_eq_inactive {k : Option KnownModule} {o : Option Identity}
    {i : Identity} :
    told k o = some ⟨i, false⟩ ↔ o = none ∧ (k = some ⟨i, true⟩ ∨ k = some ⟨i, false⟩) := by
  cases o with
  | some j => simp [told]
  | none =>
    rcases k with _ | ⟨j, _ | _⟩ <;> simp [told]

/-- Who answered a poll. -/
def PollOutcome.identity? : PollOutcome → Option Identity
  | .ok o => o
  | .error _ => none

theorem PollOutcome.identity?_eq_some_iff {outcome : PollOutcome} {i : Identity} :
    outcome.identity? = some i ↔ outcome = .ok (some i) := by
  match outcome with
  | .ok o => exact (Except.ok.injEq o (some i)).symm ▸ Iff.rfl
  | .error _ => exact iff_of_false nofun nofun

/-- What is known of an address where a poll came to something. -/
def KnownModule.heard (k : Option KnownModule) : PollOutcome → Option KnownModule
  | .ok o => told k o
  | .error _ => k

theorem KnownModule.identity_heard (k : Option KnownModule) (outcome : PollOutcome) :
    (heard k outcome).map identity = outcome.identity?.or (k.map identity) := by
  match outcome with
  | .ok (some i) => rfl
  | .ok none => cases k <;> rfl
  | .error _ => rfl

/-- Under its own key an entry is found that was put in its place among others, and under other keys
what was found there before. -/
theorem find?_inserted {α : Type} (key : α → UInt16) {x : α} (inserted : List α → List α)
    (nil : inserted [] = [x])
    (cons : ∀ y ys, inserted (y :: ys) = if key x < key y then x :: y :: ys
      else if key x = key y then x :: ys else y :: inserted ys) (ys : List α) (a : UInt16) :
    (inserted ys).find? (key · == a) = if a = key x then some x else ys.find? (key · == a) := by
  have other : ∀ {z : α} (zs : List α), key z ≠ a →
      (z :: zs).find? (key · == a) = zs.find? (key · == a) := by
    intro z zs h
    rw [List.find?_cons, beq_eq_false_iff_ne.mpr h]
  by_cases own : a = key x
  · subst own
    rw [if_pos rfl]
    induction ys with
    | nil => simp [nil]
    | cons y ys ih =>
      rw [cons]
      split
      · simp
      · split
        · simp
        · rename_i not_same
          rw [other _ (Ne.symm not_same), ih]
  · have not_own : key x ≠ a := Ne.symm own
    rw [if_neg own]
    induction ys with
    | nil => rw [nil, other _ not_own]
    | cons y ys ih =>
      rw [cons]
      split
      · rw [other _ not_own]
      · split
        · rename_i same
          rw [other _ not_own, other _ (same ▸ not_own)]
        · rw [List.find?_cons, List.find?_cons, ih]

/-- Nothing comes among others but the entry that is put in. -/
theorem mem_inserted {α : Type} (key : α → UInt16) {x : α} (inserted : List α → List α)
    (nil : inserted [] = [x])
    (cons : ∀ y ys, inserted (y :: ys) = if key x < key y then x :: y :: ys
      else if key x = key y then x :: ys else y :: inserted ys) {ys : List α} {z : α}
    (h : z ∈ inserted ys) : z = x ∨ z ∈ ys := by
  induction ys with
  | nil =>
    rw [nil] at h
    exact .inl (List.mem_singleton.mp h)
  | cons y ys ih =>
    rw [cons] at h
    split at h
    · exact List.mem_cons.mp h
    · split at h
      · exact (List.mem_cons.mp h).imp id (.tail y)
      · rcases List.mem_cons.mp h with rfl | h
        · exact .inr (.head _)
        · exact (ih h).imp id (.tail y)

/-- Entries in the order of their keys are in that order with an entry that was put in. -/
theorem pairwise_inserted {α : Type} (key : α → UInt16) {x : α} (inserted : List α → List α)
    (nil : inserted [] = [x])
    (cons : ∀ y ys, inserted (y :: ys) = if key x < key y then x :: y :: ys
      else if key x = key y then x :: ys else y :: inserted ys) {ys : List α}
    (h : ys.Pairwise (key · < key ·)) : (inserted ys).Pairwise (key · < key ·) := by
  induction ys with
  | nil =>
    rw [nil]
    exact List.pairwise_singleton ..
  | cons y ys ih =>
    obtain ⟨above, rest⟩ := List.pairwise_cons.mp h
    rw [cons]
    split
    · rename_i lt
      refine List.pairwise_cons.mpr ⟨fun z mem => ?_, h⟩
      rcases List.mem_cons.mp mem with rfl | mem
      · exact lt
      · exact UInt16.lt_trans lt (above z mem)
    · split
      · rename_i same
        exact List.pairwise_cons.mpr ⟨fun z mem => same ▸ above z mem, rest⟩
      · rename_i not_lt not_same
        refine List.pairwise_cons.mpr ⟨fun z mem => ?_, ih rest⟩
        rcases mem_inserted key inserted nil cons mem with rfl | mem
        · grind
        · exact above z mem

namespace Registry

/-- Something is known of the address of each entry. -/
theorem exists_get?_of_mem {r : Registry} {e : UInt16 × KnownModule} (mem : e ∈ r.toList) :
    ∃ k, r.get? e.1 = some k := by
  have found : (r.toList.find? (·.1 == e.1)).isSome := by
    rw [List.find?_isSome]
    exact ⟨e, mem, beq_self_eq_true _⟩
  obtain ⟨entry, found⟩ := Option.isSome_iff_exists.mp found
  exact ⟨entry.2, by rw [get?, found]; rfl⟩

/-- An entry is known of its own address, and what is known of others stays as it is. -/
theorem get?_insert (r : Registry) (address : UInt16) (k : KnownModule) (a : UInt16) :
    (r.insert address k).get? a = if a = address then some k else r.get? a := by
  have found := find?_inserted Prod.fst (insertEntry address k) rfl (fun _ _ => rfl) r.toList a
  unfold get? insert
  rw [found]
  split <;> rfl

theorem get?_silent (r : Registry) (address a : UInt16) : (r.silent address).1.get? a =
    if a = address then KnownModule.told (r.get? address) none else r.get? a := by
  unfold silent
  cases known : r.get? address with
  | none =>
    dsimp only
    split
    · rename_i same
      rw [same, known]
      rfl
    · rfl
  | some k =>
    dsimp only
    split
    · rw [get?_insert]
      rfl
    · rename_i inactive
      obtain ⟨identity, active⟩ := k
      obtain rfl : active = false := by simpa using inactive
      split
      · rename_i same
        rw [same, known]
        rfl
      · rfl

/-- What a poll tells is known of the address that was polled. -/
theorem get?_note (r : Registry) (address : UInt16) (o : Option Identity) (a : UInt16) :
    (r.note address (.ok o)).get? a =
      if a = address then KnownModule.told (r.get? address) o else r.get? a := by
  cases o with
  | some i => exact r.get?_insert address ⟨i, true⟩ a
  | none => exact r.get?_silent address a

/-- What polls tell of addresses is known of these and of no others. -/
theorem get?_notes (now : UInt16 → Option Identity) (addresses : List UInt16) (r : Registry)
    (a : UInt16) :
    (addresses.foldl (fun r address => r.note address (.ok (now address))) r).get? a =
      if a ∈ addresses then KnownModule.told (r.get? a) (now a) else r.get? a := by
  induction addresses generalizing r with
  | nil => rfl
  | cons address addresses ih =>
    rw [List.foldl_cons, ih, get?_note]
    by_cases first : a = address
    · subst first
      simp [KnownModule.told_told]
    · simp [first]

/-! ## Polls of which some fail -/

/-- A poll changes what is known of its own address only. -/
theorem get?_note_outcome (r : Registry) (address : UInt16) (outcome : PollOutcome) (a : UInt16) :
    (r.note address outcome).get? a =
      if a = address then KnownModule.heard (r.get? address) outcome else r.get? a := by
  cases outcome with
  | ok o => exact r.get?_note address o a
  | error e =>
    show r.get? a = if a = address then r.get? address else r.get? a
    split
    · rename_i same
      rw [same]
    · rfl

/-- After polls, who is known at an address is who answered there last. -/
theorem identity_notes (notes : List (UInt16 × PollOutcome)) (r : Registry) (a : UInt16) :
    ((notes.foldl (fun r n => r.note n.1 n.2) r).get? a).map KnownModule.identity =
      (notes.reverse.findSome? fun n => if n.1 = a then n.2.identity? else none).or
        ((r.get? a).map KnownModule.identity) := by
  induction notes generalizing r with
  | nil => rfl
  | cons n notes ih =>
    have first : ((r.note n.1 n.2).get? a).map KnownModule.identity =
        (if n.1 = a then n.2.identity? else none).or ((r.get? a).map KnownModule.identity) := by
      rw [get?_note_outcome]
      by_cases same : a = n.1
      · rw [if_pos same, if_pos same.symm, KnownModule.identity_heard, same]
      · rw [if_neg same, if_neg (Ne.symm same)]
        rfl
    rw [List.foldl_cons, ih, first, List.reverse_cons, List.findSome?_append,
      List.findSome?_singleton, Option.or_assoc]

/-! ## Entries -/

/-- The entries stand in the order of their addresses. -/
def Ordered (r : Registry) : Prop := r.toList.Pairwise (·.1 < ·.1)

theorem ordered_insert {r : Registry} (ordered : r.Ordered) (address : UInt16) (k : KnownModule) :
    (r.insert address k).Ordered :=
  pairwise_inserted Prod.fst (insertEntry address k) rfl (fun _ _ => rfl) ordered

theorem ordered_note {r : Registry} (ordered : r.Ordered) (address : UInt16)
    (outcome : PollOutcome) : (r.note address outcome).Ordered := by
  match outcome with
  | .ok (some i) => exact ordered_insert ordered address ⟨i, true⟩
  | .ok none =>
    show (r.silent address).1.Ordered
    unfold silent
    split
    · split
      · exact ordered_insert ordered ..
      · exact ordered
    · exact ordered
  | .error _ => exact ordered

/-- The entries are what is known of their addresses. -/
theorem mem_toList_iff {r : Registry} (ordered : r.Ordered) {e : UInt16 × KnownModule} :
    e ∈ r.toList ↔ r.get? e.1 = some e.2 := by
  constructor
  · intro mem
    obtain ⟨entries⟩ := r
    change e ∈ entries at mem
    change entries.Pairwise (·.1 < ·.1) at ordered
    show (entries.find? (·.1 == e.1)).map Prod.snd = _
    induction entries with
    | nil => cases mem
    | cons x entries ih =>
      obtain ⟨above, rest⟩ := List.pairwise_cons.mp ordered
      rcases List.mem_cons.mp mem with rfl | later
      · rw [List.find?_cons, beq_self_eq_true]
        rfl
      · have other : (x.1 == e.1) = false := beq_eq_false_iff_ne.mpr fun same =>
          UInt16.lt_irrefl e.1 (same ▸ above e later)
        rw [List.find?_cons, other]
        exact ih later rest
  · intro known
    obtain ⟨e', found, same⟩ := Option.map_eq_some_iff.mp known
    have key := List.find?_some found
    obtain rfl : e' = e := Prod.ext (eq_of_beq key) same
    exact List.mem_of_find?_eq_some found

end Registry

end LightLink
