import LightLink.Proofs.Message.Positions

/-!
# Parts that are read on their own

The decoders take one place through a buffer, from the start of a value to its end. The same value is
read if the place is set anew behind a header, which says how many bytes it took, and if a part is
read at its position by a decoder of its own and its bytes are passed over afterwards.

* `Decoder.part`, `Decoder.skip`: the two steps past a part that is read on its own;
* `Decoder.Reads.place`: where the place stands behind what was read;
* `Decoder.part_bind`, `Decoder.behind_eq`: it stands there as well behind such a part, and behind a
  header;
* `OutputCommand.decodeParts_eq`, `OutputConfig.decodeParts_eq`, `ConfigRecord.decodeParts_eq`: so
  the values that have parts can be read in either way.
-/

namespace LightLink

namespace Decoder

variable {α β : Type} {bytes : Bytes} {offset : Nat}

/-! ## Places -/

/-- Moves the place past the next `n` bytes. -/
def skip (n : Nat) : Decoder Unit := do
  let _ ← take n

/-- What is read at the position of the place, and how many bytes it takes; the place stays. -/
def part (decode : Nat → Except WireError (α × Nat)) : Decoder (α × Nat) := fun c => do
  let found ← decode c.pos
  pure (found, c)

/-- What is read behind a header, by a place that is set anew. -/
def behind [Wire β] (next : β → Decoder α) (bytes : Bytes) (offset : Nat) :
    Except WireError (α × Nat) := do
  let (header, used) ← Wire.decodeAt bytes offset
  let (a, c) ← next header (Cursor.at bytes (offset + used))
  pure (a, used + (c.pos - (offset + used)))

theorem decodeAt_eq_map [Wire α] (bytes : Bytes) (offset : Nat) :
    Wire.decodeAt (α := α) bytes offset =
      (Wire.decoder (Cursor.at bytes offset)).map fun p => (p.1, p.2.pos - offset) := by
  unfold Wire.decodeAt
  cases (Wire.decoder : Decoder α) (Cursor.at bytes offset) <;> rfl

/-- Behind what was read the place is the one at its position in the buffer. -/
theorem Reads.place {d : Decoder α} {F : Format α} (reads : d.Reads F) {a : α} {c : Cursor}
    (ok : d (Cursor.at bytes offset) = .ok (a, c)) :
    offset ≤ c.pos ∧ c.pos - offset ≤ (bytes.drop offset).length ∧ c = Cursor.at bytes c.pos := by
  obtain ⟨bs, rest, -, ahead, rfl⟩ := (reads ..).mp ok
  change bytes.drop offset = bs ++ rest at ahead
  have left : bytes.drop (offset + bs.length) = rest := by
    rw [← List.drop_drop, ahead, List.drop_left]
  refine ⟨Nat.le_add_right .., ?_, congrArg (Cursor.mk _ _) left.symm⟩
  rw [ahead, List.length_append]
  show offset + bs.length - offset ≤ _
  omega

/-- The bytes of what was read can be passed over, which leads to the same place. -/
theorem Reads.skip {d : Decoder α} {F : Format α} (reads : d.Reads F) {a : α} {c : Cursor}
    (ok : d (Cursor.at bytes offset) = .ok (a, c)) :
    Decoder.skip (c.pos - offset) (Cursor.at bytes offset) = .ok ((), c) := by
  obtain ⟨le, room, place⟩ := reads.place ok
  have taken : take (c.pos - offset) (Cursor.at bytes offset) = .ok (_, _) := if_pos room
  have moved : (Cursor.at bytes offset).advance (c.pos - offset) = c := by
    rw [place]
    show Cursor.mk _ (offset + (c.pos - offset)) ((bytes.drop offset).drop (c.pos - offset)) = _
    rw [List.drop_drop, Nat.add_sub_cancel' le]
    rfl
  exact bind_eq_ok.mpr ⟨_, _, taken, congrArg (fun c => Except.ok ((), c)) moved⟩

theorem skip_bind {n : Nat} {c c' : Cursor} {next : Unit → Decoder β}
    (passed : skip n c = .ok ((), c')) : (skip n >>= next) c = next () c' := by
  show (skip n c >>= fun p => next p.1 p.2) = _
  rw [passed]
  rfl

/-- Behind what was read it matters only what is done at places of the buffer. -/
theorem bind_congr_at {d : Decoder α} (reads : ∃ F, d.Reads F) {next next' : α → Decoder β}
    (same : ∀ a offset, next a (Cursor.at bytes offset) = next' a (Cursor.at bytes offset)) :
    (d >>= next) (Cursor.at bytes offset) = (d >>= next') (Cursor.at bytes offset) := by
  obtain ⟨F, reads⟩ := reads
  show (d (Cursor.at bytes offset) >>= fun p => next p.1 p.2) =
    (d (Cursor.at bytes offset) >>= fun p => next' p.1 p.2)
  cases ok : d (Cursor.at bytes offset) with
  | error e => rfl
  | ok p =>
    show next p.1 p.2 = next' p.1 p.2
    rw [(reads.place ok).2.2]
    exact same p.1 _

/-- A part that is read on its own and passed over comes to what the place finds that goes through
it. -/
theorem part_bind [Wire α] (reads : ∃ F, (Wire.decoder : Decoder α).Reads F)
    {next : α × Nat → Decoder β} {next' : α → Decoder β}
    (same : ∀ a n c, skip n (Cursor.at bytes offset) = .ok ((), c) →
      next (a, n) (Cursor.at bytes offset) = next' a c) :
    (part (Wire.decodeAt bytes) >>= next) (Cursor.at bytes offset) =
      (Wire.decoder >>= next') (Cursor.at bytes offset) := by
  obtain ⟨F, reads⟩ := reads
  show ((Wire.decodeAt bytes offset >>= fun found => Except.ok (found, Cursor.at bytes offset)) >>=
    fun p => next p.1 p.2) = (Wire.decoder (Cursor.at bytes offset) >>= fun p => next' p.1 p.2)
  rw [decodeAt_eq_map]
  cases ok : (Wire.decoder : Decoder α) (Cursor.at bytes offset) with
  | error e => rfl
  | ok p => exact same p.1 _ p.2 (reads.skip ok)

/-- What is read behind a header by a place that is set anew is what the place finds that goes
through the header. -/
theorem behind_eq [Wire α] [Wire β] (reads : ∃ F, (Wire.decoder : Decoder β).Reads F)
    {next next' : β → Decoder α} (reads' : ∀ b, ∃ F, (next' b).Reads F)
    (same : ∀ b offset, next b (Cursor.at bytes offset) = next' b (Cursor.at bytes offset))
    (both : (Wire.decoder : Decoder α) = Wire.decoder >>= next') :
    behind next bytes offset = Wire.decodeAt bytes offset := by
  obtain ⟨F, reads⟩ := reads
  unfold behind
  rw [decodeAt_eq_map, decodeAt_eq_map, both]
  show _ = Except.map _ (Wire.decoder (Cursor.at bytes offset) >>= fun p => next' p.1 p.2)
  cases ok : (Wire.decoder : Decoder β) (Cursor.at bytes offset) with
  | error e => rfl
  | ok p =>
    obtain ⟨header, c⟩ := p
    obtain ⟨le, -, place⟩ := reads.place ok
    have anew : Cursor.at bytes (offset + (c.pos - offset)) = c := by
      rw [Nat.add_sub_cancel' le]
      exact place.symm
    show (next header (Cursor.at bytes (offset + (c.pos - offset))) >>= _) =
      Except.map _ (next' header c)
    rw [same, anew]
    cases ok' : next' header c with
    | error e => rfl
    | ok p' =>
      obtain ⟨a, c'⟩ := p'
      obtain ⟨G, reads'⟩ := reads' header
      have le' := (reads'.place (place ▸ ok')).1
      show Except.ok (a, c.pos - offset + (c'.pos - (offset + (c.pos - offset)))) =
        Except.ok (a, c'.pos - offset)
      exact congrArg (fun n => Except.ok (a, n)) (by omega)

end Decoder

/-! ## Values with parts -/

open Decoder

/-- An output command; its program is a part. -/
def OutputCommand.decodeParts (bytes : Bytes) : Nat → Except WireError (OutputCommand × Nat) :=
  behind (fun header : OutputHeader => do
    let action ←
      match header.type with
      | .program => do
        let (program, n) ← part (Wire.decodeAt bytes)
        skip n
        pure (.program program)
      | type => OutputAction.bodyDecoder type
    pure ⟨header.index, action⟩) bytes

/-- A configured output. -/
def OutputConfig.decodeParts (bytes : Bytes) : Nat → Except WireError (OutputConfig × Nat) :=
  behind (fun header : OutputHeader => do
    let setup ← OutputSetup.bodyDecoder header.type
    pure ⟨header.index, setup⟩) bytes

/-- The steps by which a record is read of a buffer; a header and an output in it are parts. -/
def ConfigRecord.partsDecoder (bytes : Bytes) : Decoder ConfigRecord := do
  let start ← byte
  if start ≠ configStart then fail (.malformedPayload (.recordStart start))
  let code ← byte
  let type ← ofOption (.unknownConfigType code) (ConfigType.ofCode? code)
  match type with
  | .header =>
    let (h, n) ← part (Wire.decodeAt bytes)
    skip n
    pure (.header h)
  | .output t =>
    let (o, n) ← part (OutputConfig.decodeParts bytes)
    if o.setup.type ≠ t then
      fail (.malformedPayload (.recordType (.output t) o.setup.type))
    skip n
    pure (.output o)
  | type => ConfigRecord.bodyDecoder type

/-- A record. -/
def ConfigRecord.decodeParts (bytes : Bytes) (offset : Nat) :
    Except WireError (ConfigRecord × Nat) := do
  let (r, c) ← partsDecoder bytes (Cursor.at bytes offset)
  pure (r, c.pos - offset)

theorem OutputConfig.decodeParts_eq (bytes : Bytes) (offset : Nat) :
    decodeParts bytes offset = Wire.decodeAt bytes offset :=
  behind_eq OutputHeader.incremental.reads
    (fun h => ((OutputSetup.built h.type).bind fun _ => .pure _).incremental.reads)
    (fun _ _ => rfl) rfl

theorem OutputCommand.decodeParts_eq (bytes : Bytes) (offset : Nat) :
    decodeParts bytes offset = Wire.decodeAt bytes offset := by
  refine behind_eq OutputHeader.incremental.reads
    (fun h => ((OutputAction.built h.type).bind fun _ => .pure _).incremental.reads)
    (fun h offset => ?_) rfl
  obtain ⟨type, index⟩ := h
  cases type with
  | program =>
    show (part (α := Program) (Wire.decodeAt bytes) >>= _) (Cursor.at bytes offset) =
      (((Wire.decoder : Decoder Program) >>= _) >>= _) (Cursor.at bytes offset)
    rw [bind_assoc]
    exact part_bind Program.incremental.reads fun _ _ _ passed => skip_bind passed
  | _ => rfl

theorem ConfigRecord.partsDecoder_eq (bytes : Bytes) (offset : Nat) :
    partsDecoder bytes (Cursor.at bytes offset) = Wire.decoder (Cursor.at bytes offset) := by
  refine bind_congr_at Incremental.byte.reads fun start offset => ?_
  split
  · rfl
  · refine bind_congr_at Incremental.byte.reads fun code offset => ?_
    refine bind_congr_at (Built.ofOption rfl _).incremental.reads fun type offset => ?_
    cases type with
    | header =>
      exact part_bind ConfigHeader.incremental.reads fun _ _ _ passed => skip_bind passed
    | output t =>
      rw [funext (OutputConfig.decodeParts_eq bytes)]
      refine part_bind OutputConfig.incremental.reads fun o n c passed => ?_
      dsimp only
      by_cases same : o.setup.type = t
      · rw [if_neg (not_not_intro same), if_pos same]
        exact skip_bind passed
      · rw [if_pos same, if_neg same]
        rfl
    | _ => rfl

theorem ConfigRecord.decodeParts_eq (bytes : Bytes) (offset : Nat) :
    decodeParts bytes offset = Wire.decodeAt bytes offset := by
  unfold decodeParts Wire.decodeAt
  rw [partsDecoder_eq]

end LightLink
