import LightLink.Proofs.Wire.Reads

/-!
# Decoders and bytes that are still to come

A buffer may hold only the first bytes of what a decoder reads. A decoder is incremental
(`Decoder.Incremental`) if it can be asked all the same: a value, or an error other than
`insufficientData`, is its answer whatever follows, and `insufficientData` names a position behind
the last byte, but none behind the end of a value that the bytes are the start of.

* `Incremental.bind`, `Incremental.block`, …: the steps decoders are made of;
* `Incremental.extend`: a value that is read stays what it is when more bytes come;
* `Incremental.cut`: part of the bytes of a value are reported as too few;
* `decodeAt_append_of_ok`, `decodeAt_append_of_error`, `decodeAt_cut`: the same at an offset of a
  buffer.
-/

namespace LightLink

/-- The error says that there are too few bytes. -/
def WireError.isShort : WireError → Bool
  | insufficientData .. => true
  | _ => false

/-- The position behind the last byte ahead; where nothing is ahead, the place itself, which may lie
past the end of the buffer. -/
def Cursor.stop (c : Cursor) : Nat := c.pos + c.rest.length

/-- The same place in a buffer of another size, where `s` follows what lies ahead. -/
def Cursor.extend (c : Cursor) (size : Nat) (s : Bytes) : Cursor := ⟨size, c.pos, c.rest ++ s⟩

theorem Cursor.stop_at (bytes : Bytes) (offset : Nat) :
    (Cursor.at bytes offset).stop = max bytes.length offset := by
  show offset + (bytes.drop offset).length = _
  rw [List.length_drop]
  omega

theorem Cursor.at_append {bytes : Bytes} {offset : Nat} (inside : offset ≤ bytes.length)
    (s : Bytes) :
    Cursor.at (bytes ++ s) offset = (Cursor.at bytes offset).extend (bytes ++ s).length s := by
  unfold Cursor.at Cursor.extend
  rw [List.drop_append_of_le_length inside]

theorem except_bind_eq_error {ε α β : Type} {x : Except ε α} {f : α → Except ε β} {e : ε} :
    x >>= f = .error e ↔ x = .error e ∨ ∃ a, x = .ok a ∧ f a = .error e := by
  cases x with
  | error e' => simp [bind, Except.bind]
  | ok a => simp [bind, Except.bind]

namespace Decoder

variable {α β : Type} {d : Decoder α} {k : α → Decoder β} {c c' : Cursor}

theorem bind_eq_error {e : WireError} : (d >>= k) c = .error e ↔
    d c = .error e ∨ ∃ a c₁, d c = .ok (a, c₁) ∧ k a c₁ = .error e := by
  show (d c >>= fun p => k p.1 p.2) = _ ↔ _
  rw [except_bind_eq_error, Prod.exists]

theorem byte_eq_error {e : WireError} (h : byte c = .error e) :
    c.rest.length < 1 ∧ e = .insufficientData (c.pos + 1) c.size := by
  unfold byte at h
  split at h
  · cases h
  · rename_i nothing
    cases h
    exact ⟨by rw [nothing]; decide, rfl⟩

theorem word_eq_error {e : WireError} (h : word c = .error e) :
    c.rest.length < 2 ∧ e = .insufficientData (c.pos + 2) c.size := by
  unfold word at h
  split at h
  · cases h
  · rename_i few
    cases h
    refine ⟨?_, rfl⟩
    match ahead : c.rest with
    | [] => exact Nat.zero_lt_two
    | [_] => exact Nat.one_lt_two
    | lo :: hi :: rest => exact absurd ahead (few lo hi rest)

theorem row_eq_error {n : Nat} {e : WireError} (h : row n c = .error e) :
    c.rest.length < n ∧ e = .insufficientData (c.pos + n) c.size := by
  unfold row at h
  split at h
  · cases h
  · rename_i few
    cases h
    exact ⟨Nat.lt_of_not_le few, rfl⟩

/-- What the decoder answers does not hang on the bytes that it has not asked for. -/
structure Incremental (d : Decoder α) : Prop where
  /-- The bytes of some format are read, whatever follows them. -/
  reads : ∃ F, d.Reads F
  /-- An error that does not ask for more bytes is not mended by more bytes. -/
  refusal : ∀ {c e}, d c = .error e → e.isShort = false → ∀ size s, d (c.extend size s) = .error e
  /-- Bytes are asked for that are not there, and that belong to any value the decoder reads once
  they are. -/
  wanted : ∀ {c needed available}, d c = .error (.insufficientData needed available) →
    available = c.size ∧ c.stop < needed ∧
      ∀ size s a c', d (c.extend size s) = .ok (a, c') → needed ≤ c'.pos

namespace Incremental

/-! ## What follows for a decoder -/

/-- A value is read from bytes of some length, and nothing else of the place changes. -/
theorem taken (h : d.Incremental) {a : α} (ok : d c = .ok (a, c')) :
    c'.size = c.size ∧ c.pos ≤ c'.pos ∧ c'.stop = c.stop := by
  obtain ⟨F, reads⟩ := h.reads
  obtain ⟨bs, rest, -, ahead, rfl⟩ := (reads c a c').mp ok
  refine ⟨rfl, Nat.le_add_right .., ?_⟩
  unfold Cursor.stop
  rw [ahead, List.length_append, Nat.add_assoc]

/-- A value that is read stays what it is when more bytes come. -/
theorem extend (h : d.Incremental) {a : α} (ok : d c = .ok (a, c')) (size : Nat) (s : Bytes) :
    d (c.extend size s) = .ok (a, c'.extend size s) := by
  obtain ⟨F, reads⟩ := h.reads
  obtain ⟨bs, rest, spells, ahead, rfl⟩ := (reads c a c').mp ok
  refine (reads ..).mpr ⟨bs, rest ++ s, spells, ?_, rfl⟩
  show c.rest ++ s = _
  rw [ahead, List.append_assoc]

/-- Where more bytes are there than a value takes, and some of its own are cut off, these are asked
for and nothing else is said. -/
theorem cut (h : d.Incremental) {size : Nat} {s : Bytes} {a : α}
    (ok : d (c.extend size s) = .ok (a, c')) (own : c'.rest.length < s.length) :
    ∃ needed, d c = .error (.insufficientData needed c.size) ∧ c.stop < needed ∧
      needed ≤ c'.pos := by
  cases answer : d c with
  | ok p =>
    -- the value would have been read without any byte of `s`
    have same := ok.symm.trans (h.extend answer size s)
    cases same
    rw [Cursor.extend, List.length_append] at own
    omega
  | error e =>
    cases e with
    | insufficientData needed available =>
      obtain ⟨rfl, behind, within⟩ := h.wanted answer
      exact ⟨needed, rfl, behind, within size s a c' ok⟩
    | _ => cases ok.symm.trans (h.refusal answer rfl size s)

/-! ## Steps -/

theorem pure (a : α) : (Pure.pure a : Decoder α).Incremental where
  reads := ⟨_, Reads.pure a⟩
  refusal := nofun
  wanted := nofun

theorem fail {e : WireError} (final : e.isShort = false) :
    (Decoder.fail e : Decoder α).Incremental where
  reads := ⟨_, Reads.fail e⟩
  refusal := by
    intro c e' h _ size s
    cases h
    rfl
  wanted := by
    intro c needed available h
    cases h
    cases final

theorem bind (hd : d.Incremental) (hk : ∀ a, (k a).Incremental) : (d >>= k).Incremental where
  reads := ⟨_, hd.reads.choose_spec.bind fun a => (hk a).reads.choose_spec⟩
  refusal := by
    intro c e h final size s
    rw [bind_eq_error] at h ⊢
    obtain h | ⟨a, c₁, first, h⟩ := h
    · exact .inl (hd.refusal h final size s)
    · exact .inr ⟨a, _, hd.extend first size s, (hk a).refusal h final size s⟩
  wanted := by
    intro c needed available h
    rw [bind_eq_error] at h
    obtain h | ⟨a, c₁, first, h⟩ := h
    · obtain ⟨all, behind, within⟩ := hd.wanted h
      refine ⟨all, behind, fun size s b c' ok => ?_⟩
      obtain ⟨a, c₁, first, second⟩ := bind_eq_ok.mp ok
      exact Nat.le_trans (within size s a c₁ first) ((hk a).taken second).2.1
    · obtain ⟨size_eq, -, stop_eq⟩ := hd.taken first
      obtain ⟨all, behind, within⟩ := (hk a).wanted h
      rw [size_eq] at all
      rw [stop_eq] at behind
      refine ⟨all, behind, fun size s b c' ok => ?_⟩
      obtain ⟨a', c₂, first', second⟩ := bind_eq_ok.mp ok
      cases first'.symm.trans (hd.extend first size s)
      exact within size s b c' second

/-- So many bytes, all of them or none. -/
theorem block {F : Format α} {n : Nat} (reads : d.Reads F)
    (length : ∀ {a bs}, F a bs → bs.length = n)
    (short : ∀ {c e}, d c = .error e →
      c.rest.length < n ∧ e = .insufficientData (c.pos + n) c.size) : d.Incremental where
  reads := ⟨F, reads⟩
  refusal := by
    intro c e h final
    obtain ⟨-, rfl⟩ := short h
    cases final
  wanted := by
    intro c needed available h
    obtain ⟨few, e⟩ := short h
    cases e
    refine ⟨rfl, Nat.add_lt_add_left few _, fun size s a c' ok => ?_⟩
    obtain ⟨bs, rest, spells, -, rfl⟩ := (reads ..).mp ok
    exact Nat.add_le_add_left (Nat.le_of_eq (length spells).symm) _

theorem byte : Decoder.byte.Incremental :=
  block Reads.byte (fun spells => by rw [spells]; rfl) byte_eq_error

theorem word : Decoder.word.Incremental :=
  block Reads.word (fun spells => by rw [spells]; rfl) word_eq_error

theorem row (n : Nat) : (Decoder.row n).Incremental :=
  block (Reads.row n) (fun {r _} spells => by rw [spells, r.length_toList]) row_eq_error

end Incremental

end Decoder

/-! ## At an offset -/

section Offset

variable {α : Type} [Wire α] {bytes : Bytes} {offset : Nat}

theorem decodeAt_eq_error_iff {e : WireError} :
    Wire.decodeAt (α := α) bytes offset = .error e ↔
      (Wire.decoder : Decoder α) (Cursor.at bytes offset) = .error e := by
  unfold Wire.decodeAt
  rw [except_bind_eq_error]
  exact ⟨fun h => h.elim id nofun, .inl⟩

variable (h : (Wire.decoder : Decoder α).Incremental)
include h

/-- A value at an offset is read whatever follows. -/
theorem decodeAt_append_of_ok {a : α} {n : Nat} (ok : Wire.decodeAt bytes offset = .ok (a, n))
    (inside : offset ≤ bytes.length) (s : Bytes) :
    Wire.decodeAt (bytes ++ s) offset = .ok (a, n) := by
  unfold Wire.decodeAt at ok ⊢
  obtain ⟨⟨a', c'⟩, first, rest⟩ := except_bind_eq_ok.mp ok
  rw [Cursor.at_append inside, h.extend first]
  exact rest

/-- So is an error that does not ask for more bytes. -/
theorem decodeAt_append_of_error {e : WireError}
    (error : Wire.decodeAt (α := α) bytes offset = .error e) (final : e.isShort = false)
    (inside : offset ≤ bytes.length) (s : Bytes) :
    Wire.decodeAt (α := α) (bytes ++ s) offset = .error e := by
  rw [decodeAt_eq_error_iff] at error ⊢
  rw [Cursor.at_append inside]
  exact h.refusal error final _ s

/-- Where the bytes from an offset on are the start of a value, but not all of it, more of them are
asked for, and not more than the value has. -/
theorem decodeAt_cut [WireFormat α] {a : α} {bs : Bytes} (spells : WireFormat.Spells a bs)
    (start : bytes.drop offset <+: bs) (part : bytes.drop offset ≠ bs) :
    ∃ needed, Wire.decodeAt (α := α) bytes offset =
        .error (.insufficientData needed bytes.length) ∧
      bytes.length < needed ∧ offset < needed ∧ needed ≤ offset + bs.length := by
  obtain ⟨s, rfl⟩ := start
  have some_missing : s ≠ [] := fun none => part (by rw [none, List.append_nil])
  have ok : (Wire.decoder : Decoder α) ((Cursor.at bytes offset).extend 0 s) =
      .ok (a, ⟨0, offset + (bytes.drop offset ++ s).length, []⟩) :=
    (WireFormat.reads ..).mpr ⟨_, [], spells, (List.append_nil _).symm, rfl⟩
  obtain ⟨needed, error, behind, within⟩ := h.cut ok (List.length_pos_iff.mpr some_missing)
  rw [Cursor.stop_at] at behind
  exact ⟨needed, decodeAt_eq_error_iff.mpr error, by omega, by omega, within⟩

end Offset

end LightLink
