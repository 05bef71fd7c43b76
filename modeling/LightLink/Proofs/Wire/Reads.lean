import LightLink.Wire.Format

/-!
# What decoders read

A format says which bytes stand for which value. A decoder reads a format (`Decoder.Reads`) if it
succeeds exactly where bytes of the format stand ahead, gives the value they stand for and moves
past them, whatever follows. One equivalence thus says both that nothing else is accepted and that
nothing of the format is refused:

* `Reads.bind`, `Reads.byte`, `Reads.word`, `Reads.row`, …: the steps decoders are made of;
* `WireFormat`: the format of a type with a `Wire` instance, of which `encode` writes one form;
* `decodeAt_eq_ok_iff`, `decodeAll_eq_ok_iff`: one value at an offset, and values to the end.
-/

namespace LightLink

/-- A format: which bytes stand for which value. -/
abbrev Format (α : Type) := α → Bytes → Prop

namespace Format

variable {α : Type}

/-- Each value stands in one way only, as `write` puts it. -/
def exact (write : α → Bytes) : Format α := fun a bs => bs = write a

/-- Values one after the other. -/
def all (F : Format α) : Format (List α)
  | [], bs => bs = []
  | a :: as, bs => ∃ bs₁ bs₂, bs = bs₁ ++ bs₂ ∧ F a bs₁ ∧ all F as bs₂

end Format

/-- The decoder succeeds exactly where bytes of the format stand ahead, gives their value and moves
past them. -/
def Decoder.Reads {α : Type} (d : Decoder α) (F : Format α) : Prop :=
  ∀ c a c', d c = .ok (a, c') ↔
    ∃ bs rest, F a bs ∧ c.rest = bs ++ rest ∧ c' = ⟨c.size, c.pos + bs.length, rest⟩

theorem except_bind_eq_ok {ε α β : Type} {x : Except ε α} {f : α → Except ε β} {b : β} :
    x >>= f = .ok b ↔ ∃ a, x = .ok a ∧ f a = .ok b := by
  cases x with
  | error e => simp [bind, Except.bind]
  | ok a => exact ⟨fun h => ⟨a, rfl, h⟩, fun ⟨_, e, h⟩ => by cases e; exact h⟩

theorem except_map_eq_ok {ε α β : Type} {x : Except ε α} {f : α → β} {b : β} :
    f <$> x = .ok b ↔ ∃ a, x = .ok a ∧ f a = b := by
  cases x with
  | error e => simp [Functor.map, Except.map]
  | ok a => simp [Functor.map, Except.map]

namespace Decoder

variable {α β : Type}

theorem bind_eq_ok {d : Decoder α} {k : α → Decoder β} {c c' : Cursor} {b : β} :
    (d >>= k) c = .ok (b, c') ↔ ∃ a c₁, d c = .ok (a, c₁) ∧ k a c₁ = .ok (b, c') := by
  show (d c >>= fun p => k p.1 p.2) = _ ↔ _
  rw [except_bind_eq_ok, Prod.exists]

namespace Reads

variable {d : Decoder α} {F G : Format α}

theorem congr (h : d.Reads F) (e : ∀ a bs, F a bs ↔ G a bs) : d.Reads G := by
  have : F = G := by funext a bs; exact propext (e a bs)
  exact this ▸ h

/-- A format in which each value stands in one way only. -/
theorem toExact {write : α → Bytes} (h : d.Reads F) (written : ∀ a, F a (write a))
    (only : ∀ a bs, F a bs → bs = write a) : d.Reads (.exact write) :=
  h.congr fun a bs => ⟨only a bs, fun e => e ▸ written a⟩

/-! ## Steps -/

theorem pure (a : α) : Decoder.Reads (Pure.pure a) fun b bs => bs = [] ∧ b = a := by
  intro c b c'
  show Except.ok (a, c) = _ ↔ _
  constructor
  · intro h
    cases h
    exact ⟨[], c.rest, ⟨rfl, rfl⟩, rfl, rfl⟩
  · intro h
    obtain ⟨_, rest, ⟨rfl, rfl⟩, h, rfl⟩ := h
    rw [List.nil_append] at h
    rw [← h]
    rfl

/-- One value, then another whose format may depend on it. -/
theorem bind {k : α → Decoder β} {G : α → Format β} (hd : d.Reads F)
    (hk : ∀ a, (k a).Reads (G a)) :
    (d >>= k).Reads fun b bs => ∃ a bs₁ bs₂, bs = bs₁ ++ bs₂ ∧ F a bs₁ ∧ G a b bs₂ := by
  intro c b c'
  rw [bind_eq_ok]
  constructor
  · intro h
    obtain ⟨a, c₁, h₁, h₂⟩ := h
    obtain ⟨bs₁, rest₁, f, r₁, rfl⟩ := (hd c a c₁).mp h₁
    obtain ⟨bs₂, rest₂, g, r₂, rfl⟩ := (hk a _ b c').mp h₂
    refine ⟨bs₁ ++ bs₂, rest₂, ⟨a, bs₁, bs₂, rfl, f, g⟩, ?_, ?_⟩
    · rw [r₁, List.append_assoc]
      exact congrArg _ r₂
    · simp [Nat.add_assoc]
  · intro h
    obtain ⟨_, rest, ⟨a, bs₁, bs₂, rfl, f, g⟩, r, rfl⟩ := h
    rw [List.append_assoc] at r
    refine ⟨a, ⟨c.size, c.pos + bs₁.length, bs₂ ++ rest⟩, (hd ..).mpr ⟨bs₁, _, f, r, rfl⟩,
      (hk a ..).mpr ⟨bs₂, rest, g, rfl, ?_⟩⟩
    simp [Nat.add_assoc]

/-- `bind` where the first value stands in one way only. -/
theorem andThen {write : α → Bytes} {k : α → Decoder β} {G : α → Format β}
    (hd : d.Reads (.exact write)) (hk : ∀ a, (k a).Reads (G a)) :
    (d >>= k).Reads fun b bs => ∃ a bs', bs = write a ++ bs' ∧ G a b bs' := by
  refine (bind hd hk).congr fun b bs => ⟨?_, ?_⟩
  · intro h
    obtain ⟨a, _, bs', rfl, rfl, g⟩ := h
    exact ⟨a, bs', rfl, g⟩
  · intro h
    obtain ⟨a, bs', rfl, g⟩ := h
    exact ⟨a, _, bs', rfl, rfl, g⟩

/-- One value that something is made of, where that is all there is to read. -/
theorem thenPure {write : α → Bytes} {f : α → β} {G : Format β} (hd : d.Reads (.exact write))
    (written : ∀ a, G (f a) (write a)) (only : ∀ b bs, G b bs → ∃ a, b = f a ∧ bs = write a) :
    (d >>= fun a => Pure.pure (f a)).Reads G := by
  refine (andThen hd fun a => pure (f a)).congr fun b bs => ⟨?_, ?_⟩
  · intro h
    obtain ⟨a, _, rfl, rfl, rfl⟩ := h
    rw [List.append_nil]
    exact written a
  · intro h
    obtain ⟨a, rfl, rfl⟩ := only b bs h
    exact ⟨a, [], (List.append_nil _).symm, rfl, rfl⟩

theorem fail (e : WireError) : (Decoder.fail e : Decoder α).Reads fun _ _ => False := by
  intro c a c'
  simp [Decoder.fail]

theorem ite {p : Prop} [Decidable p] {e : Decoder α} (hd : d.Reads F) (he : e.Reads G) :
    (if p then d else e).Reads fun a bs => if p then F a bs else G a bs := by
  split <;> assumption

/-- A condition that has to hold before the rest is read. -/
theorem require {p : Prop} [Decidable p] {e : WireError} {k : PUnit → Decoder β} {G : Format β}
    (hk : (k ⟨⟩).Reads G) :
    (if ¬p then (Decoder.fail e : Decoder PUnit) >>= k else k ⟨⟩).Reads fun b bs => p ∧ G b bs := by
  by_cases h : p
  · rw [if_neg (not_not_intro h)]
    exact hk.congr fun b bs => by simp [h]
  · rw [if_pos h]
    exact (bind (fail e) fun _ => hk).congr fun b bs => by simp [h]

/-- The value that a tag stands for, where there is one. -/
theorem lookup {e : WireError} {o : Option α} {k : α → Decoder β} {G : α → Format β}
    (hk : ∀ a, (k a).Reads (G a)) :
    (Decoder.ofOption e o >>= k).Reads fun b bs => ∃ a, o = some a ∧ G a b bs := by
  have tag : (Decoder.ofOption e o).Reads fun a bs => bs = [] ∧ o = some a := by
    cases o with
    | none => exact (fail e).congr fun a bs => by simp
    | some a => exact (pure a).congr fun b bs => by simp [eq_comm]
  refine (bind tag hk).congr fun b bs => ⟨?_, ?_⟩
  · intro h
    obtain ⟨a, _, bs₂, rfl, ⟨rfl, h⟩, g⟩ := h
    exact ⟨a, h, g⟩
  · intro h
    obtain ⟨a, h, g⟩ := h
    exact ⟨a, [], bs, rfl, ⟨rfl, h⟩, g⟩

theorem byte : Decoder.byte.Reads (.exact fun b => [b]) := by
  intro h b c'
  obtain ⟨n, p, rest⟩ := h
  cases rest with
  | nil => simp [Decoder.byte, Format.exact]
  | cons x xs =>
    simp only [Decoder.byte, Cursor.advance]
    constructor
    · intro h
      cases h
      exact ⟨[b], _, rfl, rfl, rfl⟩
    · intro h
      obtain ⟨_, _, rfl, ⟨⟩, rfl⟩ := h
      rfl

theorem word : Decoder.word.Reads (.exact little16) := by
  intro h w c'
  obtain ⟨n, p, rest⟩ := h
  match rest with
  | [] => simp [Decoder.word, Format.exact, little16]
  | [x] => simp [Decoder.word, Format.exact, little16]
  | x :: y :: r =>
    simp only [Decoder.word, Cursor.advance]
    constructor
    · intro h
      cases h
      exact ⟨_, r, rfl, by rw [little16_ofLittle16]; rfl, rfl⟩
    · intro h
      obtain ⟨_, _, rfl, ⟨⟩, rfl⟩ := h
      simp [ofLittle16_little16]

theorem signed : Decoder.signed.Reads (.exact fun v => little16 v.toUInt16) := by
  rw [Decoder.signed, ← bind_pure_comp]
  refine thenPure word (fun w => ?_) fun v bs e => ⟨v.toUInt16, ?_, e⟩
  · show little16 w = little16 w.toInt16.toUInt16
    simp
  · simp

theorem row (n : Nat) : (Decoder.row n).Reads (.exact Row.toList) := by
  intro c r c'
  unfold Decoder.row
  constructor
  · intro h
    split at h
    · rename_i le
      cases h
      exact ⟨_, c.rest.drop n, rfl, (List.take_append_drop n c.rest).symm,
        by simp [Cursor.advance, Nat.min_eq_left le]⟩
    · cases h
  · intro h
    obtain ⟨_, rest, rfl, h, rfl⟩ := h
    have len := r.length_toList
    have take : c.rest.take n = r.toList := by rw [h, List.take_left' len]
    have drop : c.rest.drop n = rest := by rw [h, List.drop_left' len]
    rw [dif_pos (by rw [h, List.length_append]; omega)]
    simp only [Cursor.advance, drop, len, Except.ok.injEq, Prod.mk.injEq, and_true]
    exact Row.ext take

theorem rowOf {write : α → Bytes} (hd : d.Reads (.exact write)) :
    ∀ n, (Decoder.rowOf d n).Reads (.exact fun r => r.toList.flatMap write)
  | 0 => (pure _).toExact (fun r => by
      have h := List.length_eq_zero_iff.mp r.length_toList
      exact ⟨by simp [h], Row.ext h⟩) (by rintro _ _ ⟨rfl, rfl⟩; rfl)
  | n + 1 => by
    refine (andThen hd fun a => andThen (rowOf hd n) fun r => pure _).toExact ?_ ?_
    · intro h
      obtain ⟨l, h⟩ := h
      cases l with
      | nil => simp at h
      | cons a l =>
        have h' : l.length = n := by simpa using h
        exact ⟨a, _, rfl, ⟨l, h'⟩, [], (List.append_nil _).symm, rfl, Row.ext rfl⟩
    · intro _ _ h
      obtain ⟨a, _, rfl, r, _, rfl, rfl, rfl⟩ := h
      simp [Row.cons]

end Reads

end Decoder

/-! ## Formats of types -/

/-- The format that the decoder of a type reads: what is written has it, and all forms of a value
have one length. -/
class WireFormat (α : Type) [Wire α] where
  /-- The bytes stand for the value. -/
  Spells : Format α
  reads : (Wire.decoder : Decoder α).Reads Spells
  spells_encode : ∀ a, Spells a (Wire.encode a)
  length_eq : ∀ {a bs}, Spells a bs → bs.length = Wire.size a

namespace WireFormat

variable {α : Type} [Wire α]

/-- The format of a type each of whose values stands in one way only. -/
@[reducible] def ofExact (reads : (Wire.decoder : Decoder α).Reads (.exact Wire.encode))
    (length : ∀ a : α, (Wire.encode a).length = Wire.size a) : WireFormat α :=
  ⟨.exact Wire.encode, reads, fun _ => rfl, fun h => h ▸ length _⟩

variable [WireFormat α]

theorem length_encode (a : α) : (Wire.encode a).length = Wire.size a := length_eq (spells_encode a)

/-- Values that are written one after the other. -/
theorem all_spells_flatMap : ∀ as : List α, Format.all Spells as (as.flatMap Wire.encode)
  | [] => rfl
  | a :: as => ⟨_, _, rfl, spells_encode a, all_spells_flatMap as⟩

theorem length_flatMap_encode : ∀ as : List α, (as.flatMap Wire.encode).length = Wire.sizeAll as
  | [] => rfl
  | a :: as => by
    rw [List.flatMap_cons, List.length_append, length_encode, length_flatMap_encode as]
    rfl

theorem length_of_all_spells {as : List α} {bs : Bytes} (h : Format.all Spells as bs) :
    bs.length = Wire.sizeAll as := by
  induction as generalizing bs with
  | nil => rw [show bs = [] from h]; rfl
  | cons a as ih =>
    obtain ⟨bs₁, bs₂, rfl, f, h⟩ := h
    rw [List.length_append, length_eq f, ih h]
    rfl

/-- A value at an offset is read exactly where its bytes stand. -/
theorem decodeAt_eq_ok_iff {bytes : Bytes} {offset : Nat} {a : α} {n : Nat} :
    Wire.decodeAt bytes offset = .ok (a, n) ↔
      ∃ bs rest, Spells a bs ∧ bytes.drop offset = bs ++ rest ∧ n = bs.length := by
  unfold Wire.decodeAt
  rw [except_bind_eq_ok]
  constructor
  · intro h
    obtain ⟨⟨a', c'⟩, h, e⟩ := h
    cases e
    obtain ⟨bs, rest, f, r, rfl⟩ := (reads ..).mp h
    exact ⟨bs, rest, f, r, Nat.add_sub_cancel_left ..⟩
  · intro h
    obtain ⟨bs, rest, f, r, rfl⟩ := h
    refine ⟨_, (reads ..).mpr ⟨bs, rest, f, r, rfl⟩, ?_⟩
    show Except.ok (a, offset + bs.length - offset) = _
    rw [Nat.add_sub_cancel_left]

/-- Bytes that begin with a value and are as many as it takes are that value's. -/
theorem spells_of_decodeAt {bytes : Bytes} {a : α} {n : Nat}
    (h : Wire.decodeAt bytes 0 = .ok (a, n)) (len : bytes.length = n) : Spells a bytes := by
  obtain ⟨bs, rest, spells, r, rfl⟩ := decodeAt_eq_ok_iff.mp h
  rw [List.drop_zero] at r
  have total := congrArg List.length r
  rw [List.length_append] at total
  obtain rfl : rest = [] := List.eq_nil_of_length_eq_zero (by omega)
  rwa [r, List.append_nil]

theorem decodeAt_of_spells {bytes : Bytes} {a : α} (h : Spells a bytes) :
    Wire.decodeAt bytes 0 = .ok (a, bytes.length) :=
  decodeAt_eq_ok_iff.mpr ⟨bytes, [], h, (List.append_nil _).symm, rfl⟩

/-- A value that is read takes as many bytes as are written for it. -/
theorem size_of_decodeAt {bytes : Bytes} {offset : Nat} {a : α} {n : Nat}
    (h : Wire.decodeAt bytes offset = .ok (a, n)) : n = Wire.size a := by
  obtain ⟨bs, rest, spells, -, rfl⟩ := decodeAt_eq_ok_iff.mp h
  exact length_eq spells

/-! ## Values to the end -/

theorem all_spells_nil (pos : ∀ a : α, 0 < Wire.size a) {as : List α} :
    Format.all Spells as [] ↔ as = [] := by
  cases as with
  | nil => exact ⟨fun _ => rfl, fun _ => rfl⟩
  | cons a as =>
    refine ⟨?_, nofun⟩
    intro h
    obtain ⟨bs₁, bs₂, e, f, -⟩ := h
    obtain ⟨rfl, -⟩ := List.nil_eq_append_iff.mp e
    exact absurd (length_eq f) (Nat.ne_of_lt (pos a))

omit [WireFormat α] in
theorem decodeUpTo_nil (fuel n p : Nat) :
    Wire.decodeUpTo (α := α) fuel ⟨n, p, []⟩ = .ok ([], ⟨n, p, []⟩) := by
  cases fuel <;> rfl

/-- A value that is taken off leaves fuel enough for the rest. -/
theorem length_rest_le (pos : ∀ a : α, 0 < Wire.size a) {a : α} {bs rest bytes : Bytes} {fuel : Nat}
    (f : Spells a bs) (r : bytes = bs ++ rest) (enough : bytes.length ≤ fuel + 1) :
    rest.length ≤ fuel := by
  have := length_eq f
  have := pos a
  rw [r, List.length_append] at enough
  omega

/-- Induction on the fuel: each round takes one value, which has at least one byte, so that the
fuel stays enough for the bytes that are left. -/
theorem decodeUpTo_eq_ok_iff (pos : ∀ a : α, 0 < Wire.size a) {fuel : Nat} {c c' : Cursor}
    {as : List α} (enough : c.rest.length ≤ fuel) :
    Wire.decodeUpTo fuel c = .ok (as, c') ↔
      Format.all Spells as c.rest ∧ c' = ⟨c.size, c.pos + c.rest.length, []⟩ := by
  induction fuel generalizing c c' as with
  | zero =>
    obtain ⟨n, p, rest⟩ := c
    obtain rfl : rest = [] := List.eq_nil_of_length_eq_zero (Nat.le_zero.mp enough)
    rw [decodeUpTo_nil, all_spells_nil pos, Except.ok.injEq, Prod.mk.injEq, eq_comm, @eq_comm _ c']
    rfl
  | succ fuel ih =>
    obtain ⟨n, p, bytes⟩ := c
    cases bytes with
    | nil =>
      rw [decodeUpTo_nil, all_spells_nil pos, Except.ok.injEq, Prod.mk.injEq, eq_comm, @eq_comm _ c']
      rfl
    | cons x xs =>
      have step : Wire.decodeUpTo (α := α) (fuel + 1) ⟨n, p, x :: xs⟩ =
          (do let a ← Wire.decoder; let as ← Wire.decodeUpTo fuel; pure (a :: as) :
            Decoder (List α)) ⟨n, p, x :: xs⟩ := rfl
      simp only [step, Decoder.bind_eq_ok]
      constructor
      · intro h
        obtain ⟨a, c₁, h₁, as', c₂, h₂, h₃⟩ := h
        obtain ⟨bs, rest, f, r, rfl⟩ := (reads ..).mp h₁
        obtain ⟨all, rfl⟩ := (ih (length_rest_le pos f r enough)).mp h₂
        cases h₃
        refine ⟨⟨bs, rest, r, f, all⟩, ?_⟩
        rw [show (x :: xs) = bs ++ rest from r, List.length_append, Nat.add_assoc]
      · intro h
        obtain ⟨all, rfl⟩ := h
        cases as with
        | nil => cases all
        | cons a as =>
          obtain ⟨bs, rest, r, f, all⟩ := all
          have h₂ := (ih (c := ⟨n, p + bs.length, rest⟩) (length_rest_le pos f r enough)).mpr
            ⟨all, rfl⟩
          refine ⟨a, _, (reads ..).mpr ⟨bs, rest, f, r, rfl⟩, as, _, h₂, ?_⟩
          rw [show (x :: xs) = bs ++ rest from r, List.length_append, ← Nat.add_assoc]
          rfl

/-- Values are read to the end exactly where the bytes split into theirs. -/
theorem decodeAll_eq_ok_iff (pos : ∀ a : α, 0 < Wire.size a) {c c' : Cursor} {as : List α} :
    Wire.decodeAll c = .ok (as, c') ↔
      Format.all Spells as c.rest ∧ c' = ⟨c.size, c.pos + c.rest.length, []⟩ :=
  decodeUpTo_eq_ok_iff pos (Nat.le_refl _)

end WireFormat

end LightLink
