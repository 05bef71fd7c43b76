import Mathlib.Data.List.Basic
import Mathlib.Data.List.Induction
import LightLink.Proofs.Frame.WellFormed

/-!
# What becomes of each byte

An assembler keeps account of all it is given: each byte that is pushed ends up in one place.

* `Assembler.Step`, `Assembler.run`: bytes that are pushed and resets, in any order;
* `Assembler.Fate`: the places where a byte can end up; `Assembler.withFate`: the bytes that end up
  in one;
* `Assembler.settled`: what has to be in each place, told from what each step returns;
* `Assembler.Accounts`: an account of all bytes, and `Assembler.exists_accounts`: there is one,
  whatever is done;
* `Assembler.run_accounts`: the same with all that is known of each frame and each byte.
-/

namespace LightLink.Assembler

/-! ## Steps -/

/-- What is done with an assembler. -/
inductive Step where
  | push (b : UInt8)
  | reset
  deriving DecidableEq, Repr

/-- What is returned: the frame that a byte completes, or how many bytes a reset drops. -/
inductive Return where
  | pushed (frame : Option Frame)
  | reset (dropped : Nat)
  deriving DecidableEq, Repr

/-- One step. -/
def step (a : Assembler) : Step → Assembler × Return
  | .push b => ((a.push b).1, .pushed (a.push b).2)
  | .reset => (a.reset, .reset a.dropped)

/-- Steps one after the other, and what they return. -/
def run (a : Assembler) : List Step → Assembler × List Return
  | [] => (a, [])
  | s :: steps => (((a.step s).1.run steps).1, (a.step s).2 :: ((a.step s).1.run steps).2)

theorem run_append (a : Assembler) (steps steps' : List Step) : a.run (steps ++ steps') =
    (((a.run steps).1.run steps').1, (a.run steps).2 ++ ((a.run steps).1.run steps').2) := by
  induction steps generalizing a with
  | nil => rfl
  | cons s steps ih => simp [run, ih]

theorem Sound.step {a : Assembler} (sound : a.Sound) (s : Step) : (a.step s).1.Sound := by
  cases s with
  | push b => exact sound.push b
  | reset => exact sound_idle

theorem Sound.run {a : Assembler} (sound : a.Sound) (steps : List Step) :
    (a.run steps).1.Sound := by
  induction steps generalizing a with
  | nil => exact sound
  | cons s steps ih => exact ih (sound.step s)

/-- Where cutting stands before a step. -/
def before (steps : List Step) (n : Nat) : Assembler := (idle.run (steps.take n)).1

theorem sound_before (steps : List Step) (n : Nat) : (before steps n).Sound :=
  sound_idle.run _

/-- What a step returns depends on where cutting stands before it. -/
theorem getElem?_run (steps : List Step) (n : Nat) :
    (idle.run steps).2[n]? = steps[n]?.map fun s => ((before steps n).step s).2 := by
  unfold before
  generalize idle = a
  induction steps generalizing a n with
  | nil => rfl
  | cons s steps ih =>
    cases n with
    | zero => rfl
    | succ n => exact ih n (a.step s).1

/-! ## Fates -/

/-- Why bytes that have come of a frame are no more waiting. -/
inductive Cause where
  /-- They are returned in a frame. -/
  | frame
  /-- They are text, and a start code discards them. -/
  | startCode
  /-- A reset drops them. -/
  | reset
  deriving DecidableEq, Repr

/-- What becomes of a byte that is pushed. -/
inductive Fate where
  /-- It is a line feed or a carriage return outside a message. -/
  | lineEnd
  /-- It is settled by a step, which is told by its number. -/
  | settled (cause : Cause) (step : Nat)
  /-- It is still waiting. -/
  | pending
  deriving DecidableEq, Repr

/-- The bytes that meet a fate, in the order in which they are pushed. -/
def withFate (fate : Nat → Fate) (steps : List Step) (x : Fate) : Bytes :=
  steps.zipIdx.filterMap fun (s, i) =>
    match s with
    | .push b => if fate i = x then some b else none
    | .reset => none

/-- The bytes that a step settles, by their cause. -/
def settles (a : Assembler) (s : Step) : Cause → Bytes
  | .frame =>
    match (a.step s).2 with
    | .pushed (some f) => f.data
    | _ => []
  | .startCode => if s = .push LightLink.startCode ∧ a.binary = false then a.pending.toList else []
  | .reset => if s = .reset then a.pending.toList else []

/-- The bytes that the step of a number settles. -/
def settled (steps : List Step) (c : Cause) (n : Nat) : Bytes :=
  match steps[n]? with
  | some s => (before steps n).settles s c
  | none => []

/-- An account of what becomes of the byte of each step: all that steps settle, and all that waits
in the end, is made of the bytes that meet this fate, and the others are line ends. -/
structure Accounts (steps : List Step) (fate : Nat → Fate) : Prop where
  settled : ∀ c n, withFate fate steps (.settled c n) = Assembler.settled steps c n
  pending : withFate fate steps .pending = (idle.run steps).1.pending.toList
  lineEnd : ∀ i b, steps[i]? = some (.push b) → fate i = .lineEnd →
    (b = carriageReturn ∨ b = lineFeed) ∧ (before steps i).binary = false
  /-- A byte is settled by its own step or a later one. -/
  within : ∀ i < steps.length, ∀ c n, fate i = .settled c n → i ≤ n ∧ n < steps.length

/-! ### One step more -/

/-- The byte of a step, if this is its fate. -/
def ownByte (s : Step) (own x : Fate) : Bytes :=
  match s with
  | .push b => if own = x then [b] else []
  | .reset => []

/-- What the step of a number makes of what waits and of its own byte. -/
structure Moves (a : Assembler) (s : Step) (n : Nat) (moved own : Fate) : Prop where
  moved_eq : moved = .pending ∨ ∃ c, moved = .settled c n
  step_eq : ∀ c m, own = .settled c m → m = n
  settles_eq : ∀ c, a.settles s c =
    (if moved = .settled c n then a.pending.toList else []) ++ ownByte s own (.settled c n)
  pending_eq : (a.step s).1.pending.toList =
    (if moved = .pending then a.pending.toList else []) ++ ownByte s own .pending
  lineEnd : ∀ b, s = .push b → own = .lineEnd →
    (b = carriageReturn ∨ b = lineFeed) ∧ a.binary = false

section Moves

variable {a : Assembler} {s : Step} {n : Nat} {moved : Fate}

/-- A step after which its own byte waits, if it has one. -/
theorem Moves.of_waiting (moved_eq : moved = .pending ∨ ∃ c, moved = .settled c n)
    (settles_eq : ∀ c, a.settles s c =
      (if moved = .settled c n then a.pending.toList else []) ++ ownByte s .pending (.settled c n))
    (pending_eq : (a.step s).1.pending.toList =
      (if moved = .pending then a.pending.toList else []) ++ ownByte s .pending .pending) :
    Moves a s n moved .pending where
  moved_eq := moved_eq
  step_eq c m same := by cases same
  settles_eq := settles_eq
  pending_eq := pending_eq
  lineEnd b _ same := by cases same

/-- A step whose own byte ends a line, whatever was on it. -/
theorem Moves.of_lineEnd {b : UInt8} (moved_eq : moved = .pending ∨ ∃ c, moved = .settled c n)
    (is_end : b = carriageReturn ∨ b = lineFeed) (text : a.binary = false)
    (settles_eq : ∀ c, a.settles (.push b) c =
      if moved = .settled c n then a.pending.toList else [])
    (pending_eq : (a.step (.push b)).1.pending.toList =
      if moved = .pending then a.pending.toList else []) :
    Moves a (.push b) n moved .lineEnd where
  moved_eq := moved_eq
  step_eq c m same := by cases same
  settles_eq c := (settles_eq c).trans (List.append_nil _).symm
  pending_eq := pending_eq.trans (List.append_nil _).symm
  lineEnd b' same _ := by
    cases same
    exact ⟨is_end, text⟩

/-- Every step makes something of what waits and of its own byte. -/
theorem exists_moves (sound : a.Sound) (s : Step) (n : Nat) :
    ∃ moved own, Moves a s n moved own := by
  cases s with
  | reset =>
    refine ⟨.settled .reset n, .pending, .of_waiting (.inr ⟨_, rfl⟩) (fun c => ?_) ?_⟩
    · cases c <;> simp [settles, step, ownByte]
    · simp [step, reset, idle, ownByte]
  | push b =>
    have pushed := sound.pushed b
    generalize e : a.push b = r at pushed
    have stepped : a.step (.push b) = (r.1, .pushed r.2) := by rw [step, e]
    cases pushed with
    | more binary more =>
      refine ⟨.pending, .pending, .of_waiting (.inl rfl) (fun c => ?_) ?_⟩
      · cases c <;> simp [settles, stepped, ownByte, binary]
      · simp [stepped, ownByte]
    | message p binary whole =>
      refine ⟨.settled .frame n, .settled .frame n, .inr ⟨_, rfl⟩, ?_, fun c => ?_, ?_, ?_⟩
      · intro c m same
        cases same
        rfl
      · cases c <;> simp [settles, stepped, ownByte, binary, Packet.frame, whole]
      · simp [stepped, ownByte, idle]
      · intro b _ same
        cases same
    | start text is_start =>
      subst is_start
      refine ⟨.settled .startCode n, .pending, .of_waiting (.inr ⟨_, rfl⟩) (fun c => ?_) ?_⟩
      · cases c <;> simp [settles, stepped, ownByte, text]
      · simp [stepped, ownByte]
    | blank text is_blank =>
      have not_start : b ≠ LightLink.startCode := by
        rcases is_blank with rfl | ⟨rfl, -⟩ <;> decide
      refine ⟨.pending, .lineEnd,
        .of_lineEnd (.inl rfl) (is_blank.imp_right And.left) text (fun c => ?_) ?_⟩
      · cases c <;> simp [settles, stepped, not_start]
      · simp [stepped]
    | line text is_feed some_text =>
      have not_start : b ≠ LightLink.startCode := by
        rw [is_feed]
        decide
      refine ⟨.settled .frame n, .lineEnd,
        .of_lineEnd (.inr ⟨_, rfl⟩) (.inr is_feed) text (fun c => ?_) ?_⟩
      · cases c <;> simp [settles, stepped, not_start]
      · simp [stepped, idle]
    | text text is_text =>
      refine ⟨.pending, .pending, .of_waiting (.inl rfl) (fun c => ?_) ?_⟩
      · cases c <;> simp [settles, stepped, ownByte, is_text.1]
      · simp [stepped, ownByte]

end Moves

section Snoc

variable {steps : List Step} {fate : Nat → Fate}

theorem before_concat (s : Step) {n : Nat} (le : n ≤ steps.length) :
    before (steps ++ [s]) n = before steps n := by
  rw [before, before, List.take_append_of_le_length le]

theorem before_length (steps : List Step) : before steps steps.length = (idle.run steps).1 := by
  rw [before, List.take_length]

theorem settled_concat (s : Step) (c : Cause) (n : Nat) : settled (steps ++ [s]) c n =
    if n = steps.length then (idle.run steps).1.settles s c else settled steps c n := by
  unfold settled
  rcases Nat.lt_trichotomy n steps.length with lt | rfl | gt
  · rw [if_neg (Nat.ne_of_lt lt), List.getElem?_append_left lt, before_concat s (Nat.le_of_lt lt)]
  · rw [if_pos rfl, List.getElem?_concat_length, before_concat s (Nat.le_refl _), before_length]
  · have beyond : (steps ++ [s]).length ≤ n := by
      rw [List.length_append]
      exact gt
    rw [if_neg (Nat.ne_of_gt gt), List.getElem?_eq_none beyond,
      List.getElem?_eq_none (Nat.le_of_lt gt)]

theorem withFate_concat (s : Step) (x : Fate) : withFate fate (steps ++ [s]) x =
    withFate fate steps x ++ ownByte s (fate steps.length) x := by
  unfold withFate
  rw [List.zipIdx_append, List.filterMap_append, Nat.zero_add]
  congr 1
  cases s with
  | push b =>
    show List.filterMap _ [(Step.push b, steps.length)] = _
    by_cases h : fate steps.length = x <;> simp [h, ownByte]
  | reset => rfl

/-- The bytes of a fate stay the same if it is told in other words. -/
theorem withFate_congr {fate' : Nat → Fate} {x y : Fate}
    (h : ∀ i < steps.length, fate i = x ↔ fate' i = y) :
    withFate fate steps x = withFate fate' steps y := by
  unfold withFate
  refine List.filterMap_congr fun (s, i) mem => ?_
  have lt : i < steps.length := by
    simpa using (List.mem_zipIdx mem).2.1
  cases s with
  | push b => simp only [h i lt]
  | reset => rfl

/-- The fates after one more step. -/
def moveFate (fate : Nat → Fate) (n : Nat) (moved own : Fate) (i : Nat) : Fate :=
  if i = n then own else if fate i = .pending then moved else fate i

/-- What waited goes where the step moves it, and all else stays. -/
theorem withFate_moveFate {moved : Fate} (own : Fate)
    (fresh : ∀ i < steps.length, fate i = moved → moved = .pending) (x : Fate) :
    withFate (moveFate fate steps.length moved own) steps x =
      if moved = x then withFate fate steps .pending
      else if x = .pending then [] else withFate fate steps x := by
  have earlier : ∀ i < steps.length, moveFate fate steps.length moved own i =
      if fate i = .pending then moved else fate i := fun i lt => if_neg (Nat.ne_of_lt lt)
  split
  · rename_i here
    refine withFate_congr fun i lt => ?_
    rw [earlier i lt, ← here]
    by_cases waits : fate i = .pending
    · simp [waits]
    · rw [if_neg waits]
      exact iff_of_false (fun same => waits (same.trans (fresh i lt same))) waits
  · rename_i elsewhere
    split
    · rename_i is_pending
      unfold withFate
      refine List.filterMap_eq_nil_iff.mpr fun (s, i) mem => ?_
      have lt : i < steps.length := by simpa using (List.mem_zipIdx mem).2.1
      cases s with
      | push b =>
        refine if_neg ?_
        rw [earlier i lt, is_pending]
        by_cases waits : fate i = .pending
        · rw [if_pos waits, ← is_pending]
          exact elsewhere
        · rwa [if_neg waits]
      | reset => rfl
    · rename_i not_pending
      refine withFate_congr fun i lt => ?_
      rw [earlier i lt]
      by_cases waits : fate i = .pending
      · rw [if_pos waits, waits]
        exact iff_of_false elsewhere (Ne.symm not_pending)
      · rw [if_neg waits]

theorem Accounts.concat (acc : Accounts steps fate) {s : Step} {moved own : Fate}
    (moves : Moves (idle.run steps).1 s steps.length moved own) :
    Accounts (steps ++ [s]) (moveFate fate steps.length moved own) := by
  have here : moveFate fate steps.length moved own steps.length = own := if_pos rfl
  have not_yet : ∀ c, ∀ i < steps.length, fate i ≠ .settled c steps.length := fun c i lt same =>
    Nat.lt_irrefl _ (acc.within i lt c _ same).2
  have fresh : ∀ i < steps.length, fate i = moved → moved = .pending := by
    intro i lt same
    rcases moves.moved_eq with waits | ⟨c, e⟩
    · exact waits
    · exact absurd (same.trans e) (not_yet c i lt)
  have ran : (idle.run (steps ++ [s])).1 = ((idle.run steps).1.step s).1 := by
    rw [run_append]
    rfl
  refine ⟨fun c n => ?_, ?_, fun i b at_i is_end => ?_, fun i lt c n same => ?_⟩
  · rw [withFate_concat, here, withFate_moveFate own fresh, settled_concat, acc.pending]
    by_cases now : n = steps.length
    · rw [if_pos now, moves.settles_eq, now]
      have none_before := acc.settled c steps.length
      rw [Assembler.settled, List.getElem?_eq_none (Nat.le_refl _)] at none_before
      dsimp only at none_before
      rw [none_before]
      simp
    · have moved_ne : moved ≠ .settled c n := by
        rcases moves.moved_eq with rfl | ⟨c, rfl⟩
        · nofun
        · intro same
          cases same
          exact now rfl
      have own_ne : own ≠ .settled c n := fun same => now (moves.step_eq c n same)
      rw [if_neg now, if_neg moved_ne, if_neg nofun, acc.settled]
      cases s <;> simp [ownByte, own_ne]
  · rw [withFate_concat, here, withFate_moveFate own fresh, ran, moves.pending_eq, acc.pending]
    simp
  · by_cases now : i = steps.length
    · subst now
      rw [List.getElem?_concat_length] at at_i
      rw [before_concat s (Nat.le_refl _), before_length]
      exact moves.lineEnd b (Option.some.inj at_i) (here.symm.trans is_end)
    · have lt : i < steps.length := by
        have := (List.getElem?_eq_some_iff.mp at_i).1
        rw [List.length_append, List.length_singleton] at this
        omega
      rw [List.getElem?_append_left lt] at at_i
      rw [before_concat s (Nat.le_of_lt lt)]
      rw [moveFate, if_neg now] at is_end
      split at is_end
      · rcases moves.moved_eq with rfl | ⟨c, rfl⟩ <;> cases is_end
      · exact acc.lineEnd i b at_i is_end
  · rw [List.length_append, List.length_singleton] at lt ⊢
    by_cases now : i = steps.length
    · subst now
      obtain rfl := moves.step_eq c n (here.symm.trans same)
      exact ⟨Nat.le_refl _, Nat.lt_succ_self _⟩
    · rw [moveFate, if_neg now] at same
      split at same
      · rcases moves.moved_eq with rfl | ⟨c, rfl⟩
        · cases same
        · cases same
          exact ⟨Nat.le_of_lt_succ lt, Nat.lt_succ_self _⟩
      · obtain ⟨le, lt'⟩ := acc.within i (by omega) c n same
        exact ⟨le, Nat.lt_succ_of_lt lt'⟩

end Snoc

/-- Whatever is done, there is an account of all bytes. -/
theorem exists_accounts (steps : List Step) : ∃ fate, Accounts steps fate := by
  induction steps using List.reverseRecOn with
  | nil => exact ⟨fun _ => .pending, fun _ _ => rfl, rfl, nofun, nofun⟩
  | append_singleton steps s ih =>
    obtain ⟨fate, acc⟩ := ih
    obtain ⟨moved, own, moves⟩ := exists_moves (sound_idle.run steps) s steps.length
    exact ⟨_, acc.concat moves⟩

/-! ## Bytes one by one -/

/-- What a fate says of a byte that is pushed in the step of a number. -/
def Fate.Holds (steps : List Step) (i : Nat) (b : UInt8) : Fate → Prop
  | .lineEnd => (b = carriageReturn ∨ b = lineFeed) ∧ (before steps i).binary = false
  | .settled .frame n => i ≤ n ∧ ∃ f, (idle.run steps).2[n]? = some (.pushed (some f))
  | .settled .startCode n => IsText b ∧ i < n ∧ steps[n]? = some (.push LightLink.startCode) ∧
    (before steps n).binary = false
  | .settled .reset n => i < n ∧ steps[n]? = some .reset
  | .pending => True

namespace Accounts

variable {steps : List Step} {fate : Nat → Fate} (acc : Accounts steps fate)

theorem mem_withFate {i : Nat} {b : UInt8} (at_i : steps[i]? = some (.push b)) :
    b ∈ withFate fate steps (fate i) := by
  refine List.mem_filterMap.mpr ⟨(.push b, i), List.mem_zipIdx_iff_getElem?.mpr at_i, ?_⟩
  exact if_pos rfl

include acc

/-- A frame is made of the bytes that its step settles. -/
theorem frame {n : Nat} {f : Frame} (h : (idle.run steps).2[n]? = some (.pushed (some f))) :
    withFate fate steps (.settled .frame n) = f.data := by
  rw [getElem?_run] at h
  obtain ⟨s, at_n, returned⟩ := Option.map_eq_some_iff.mp h
  rw [acc.settled, Assembler.settled, at_n]
  dsimp only
  rw [settles, returned]

/-- A reset returns how many bytes it drops. -/
theorem reset {n k : Nat} (h : (idle.run steps).2[n]? = some (.reset k)) :
    (withFate fate steps (.settled .reset n)).length = k := by
  rw [getElem?_run] at h
  obtain ⟨s, at_n, returned⟩ := Option.map_eq_some_iff.mp h
  cases s with
  | push b => cases returned
  | reset =>
    cases returned
    rw [acc.settled, Assembler.settled, at_n]
    exact Array.length_toList

/-- A fate says the truth of its byte. -/
theorem holds {i : Nat} {b : UInt8} (at_i : steps[i]? = some (.push b)) :
    (fate i).Holds steps i b := by
  have lt : i < steps.length := (List.getElem?_eq_some_iff.mp at_i).1
  have mem : b ∈ withFate fate steps (fate i) := mem_withFate at_i
  cases x : fate i with
  | pending => trivial
  | lineEnd => exact acc.lineEnd i b at_i x
  | settled c n =>
    obtain ⟨le, lt'⟩ := acc.within i lt c n x
    have at_n := List.getElem?_eq_getElem lt'
    rw [x, acc.settled, Assembler.settled, at_n] at mem
    dsimp only at mem
    cases c with
    | frame =>
      refine ⟨le, ?_⟩
      rw [getElem?_run, at_n]
      rw [settles] at mem
      split at mem
      · rename_i f returned
        exact ⟨f, congrArg some returned⟩
      · cases mem
    | startCode =>
      rw [settles] at mem
      split at mem
      · rename_i begins
        rw [begins.1] at at_n
        have is_text := (sound_before steps n).text begins.2 b mem
        refine ⟨is_text, Nat.lt_of_le_of_ne le fun same => ?_, at_n, begins.2⟩
        rw [same, at_n] at at_i
        cases at_i
        exact is_text.1 rfl
      · cases mem
    | reset =>
      rw [settles] at mem
      split at mem
      · rename_i is_reset
        rw [is_reset] at at_n
        refine ⟨Nat.lt_of_le_of_ne le fun same => ?_, at_n⟩
        rw [same, at_n] at at_i
        cases at_i
      · cases mem

end Accounts

/-- Nothing but well-formed frames is returned. -/
theorem wellFormed_of_mem_run {steps : List Step} {f : Frame}
    (h : .pushed (some f) ∈ (idle.run steps).2) : f.WellFormed := by
  obtain ⟨n, at_n⟩ := List.getElem?_of_mem h
  rw [getElem?_run] at at_n
  obtain ⟨s, -, returned⟩ := Option.map_eq_some_iff.mp at_n
  cases s with
  | push b => exact (sound_before steps n).wellFormed_push (Return.pushed.inj returned)
  | reset => cases returned

/-- Whatever bytes are pushed and whenever there is a reset, what is returned are messages that
begin with a start code, take as many bytes as their headers declare and at least a header, and are
read as a whole if at all, and lines that are not empty and hold plain text; which of both can be
told from the bytes. And each byte ends up in one place: in a frame, as a line end outside a message, in text
that a start code discards, among the bytes that a reset says it drops, or among those that wait. -/
theorem run_accounts (steps : List Step) :
    let (a, returns) := idle.run steps
    (∀ f, .pushed (some f) ∈ returns →
      (f.isBinary = true → f.data.head? = some 0xFC ∧
        f.data[3]?.map (fun b => max 8 b.toNat) = some f.data.length ∧ f.data.length ≤ 255 ∧
        ∀ m n, Message.decode f.data = .ok (m, n) → n = f.data.length) ∧
      (f.isBinary = false → f.data ≠ [] ∧ ∀ b ∈ f.data, b ≠ 0xFC ∧ b ≠ 0x0D ∧ b ≠ 0x0A) ∧
      Frame.ofData f.data = f) ∧
    ∃ fate : Nat → Fate,
      (∀ n f, returns[n]? = some (.pushed (some f)) →
        withFate fate steps (.settled .frame n) = f.data) ∧
      (∀ n k, returns[n]? = some (.reset k) →
        (withFate fate steps (.settled .reset n)).length = k) ∧
      withFate fate steps .pending = a.pending.toList ∧
      ∀ i b, steps[i]? = some (.push b) → (fate i).Holds steps i b := by
  obtain ⟨fate, acc⟩ := exists_accounts steps
  refine ⟨fun f mem => ?_, fate, fun n f => acc.frame, fun n k => acc.reset, acc.pending,
    fun i b => acc.holds⟩
  have wellFormed := wellFormed_of_mem_run mem
  refine ⟨fun binary => ?_, wellFormed.text, wellFormed.ofData_data⟩
  obtain ⟨p, rfl⟩ := wellFormed.packet binary
  obtain ⟨start, fourth⟩ := p.head?_and_getElem?_three
  exact ⟨start, fourth, p.length_le, fun m n => Packet.size_of_decode⟩

/-- A poll that cuts off a text, a line, a text that a reset drops, and one that waits. -/
theorem run_accounts_poll :
    let poll : Bytes := [0xFC, 0, 2, 8, 2, 0, 0xFF, 0xFF]
    let steps : List Step := ([0x68, 13, 0x69] ++ poll ++ [0x6F, 0x6B, 13, 10, 0x78]).map .push ++
      [.reset, .push 0x79]
    (idle.run steps).2[10]? = some (.pushed (some ⟨poll, true⟩)) ∧
      (idle.run steps).2[16]? = some (.reset 1) ∧
      (∀ m n, Message.decode poll = .ok (m, n) → n = 8) ∧
      ∃ fate : Nat → Fate, withFate fate steps (.settled .frame 10) = poll ∧
        (withFate fate steps (.settled .reset 16)).length = 1 ∧
        withFate fate steps .pending = [0x79] := by
  intro poll steps
  have returned : (idle.run steps).2[10]? = some (.pushed (some ⟨poll, true⟩)) := by decide
  have dropped : (idle.run steps).2[16]? = some (.reset 1) := by decide
  obtain ⟨frames, fate, frame, reset, pending, -⟩ := run_accounts steps
  have message := (frames _ (List.mem_of_getElem? returned)).1 rfl
  exact ⟨returned, dropped, message.2.2.2, fate, frame 10 _ returned, reset 16 _ dropped,
    pending.trans (by decide)⟩

end LightLink.Assembler
