import LightLink.Message.Response
import LightLink.Proofs.Message.RoundTrip
import LightLink.Proofs.Message.Steps
import LightLink.Proofs.Relay.Stream

/-!
# What errors are put down to

An error is malformed (`WireError.isMalformed`) if it is put down to bytes that were read, and not
if it is put down to a value that was to be written. Reading and writing keep to this, but for one
reader:

* `BlamesBytes.bind`, …: one thing that is read after another;
* `Decoder.Built.blamesBytes`: the decoders of all types blame the bytes;
* `Message.decode_blamesBytes`, `ModuleConfig.ofRecords_blamesBytes`,
  `Response.ofFragments_blamesBytes`: so does what reads messages, configurations and answers;
* `Relay.ItemDecoder.next_blamesValue`, `Relay.ItemDecoder.next_blamesBytes_iff`: the decoder of
  items gives the error of a value that is too long for a length that it has read;
* `errors_blame`: all of this together.
-/

namespace LightLink

variable {α β : Type}

/-- An error, if there is one, is put down to the bytes that were read. -/
def BlamesBytes (x : Except WireError α) : Prop := ∀ e, x = .error e → e.isMalformed = true

/-- An error, if there is one, is put down to the value that was to be written. -/
def BlamesValue (x : Except WireError α) : Prop := ∀ e, x = .error e → e.isMalformed = false

/-! ## Steps -/

namespace BlamesBytes

theorem ok (a : α) : BlamesBytes (.ok a) := nofun

theorem error {e : WireError} (blames : e.isMalformed = true) :
    BlamesBytes (.error e : Except WireError α) := by
  intro e' h
  cases h
  exact blames

theorem bind {x : Except WireError α} {f : α → Except WireError β} (hx : BlamesBytes x)
    (hf : ∀ a, BlamesBytes (f a)) : BlamesBytes (x >>= f) := by
  intro e h
  obtain h | ⟨a, -, h⟩ := except_bind_eq_error.mp h
  · exact hx e h
  · exact hf a e h

theorem map {x : Except WireError α} {f : α → β} (hx : BlamesBytes x) :
    BlamesBytes (f <$> x) := by
  rw [← bind_pure_comp]
  exact bind hx fun a => ok (f a)

theorem ite {p : Prop} [Decidable p] {x y : Except WireError α} (hx : BlamesBytes x)
    (hy : BlamesBytes y) : BlamesBytes (if p then x else y) := by
  split <;> assumption

end BlamesBytes

/-- Decoders blame the bytes, as their steps do. -/
theorem Decoder.Built.blamesBytes {d : Decoder α} (h : d.Built) (c : Cursor) :
    BlamesBytes (d c) := by
  induction h generalizing c with
  | pure a => exact .ok _
  | fail refuses => exact .error (WireError.isRefusal_iff.mp refuses).1
  | byte => exact fun e h => by rw [(Decoder.byte_eq_error h).2]; rfl
  | word => exact fun e h => by rw [(Decoder.word_eq_error h).2]; rfl
  | colour => exact fun e h => by rw [(Decoder.colour_eq_error h).2]; rfl
  | row n => exact fun e h => by rw [(Decoder.row_eq_error h).2]; rfl
  | bind _ _ first next => exact .bind (first c) fun p => next p.1 p.2

/-! ## Readers -/

section Readers

variable [Wire α] (h : (Wire.decoder : Decoder α).Built)
include h

theorem Wire.decodeAt_blamesBytes (bytes : Bytes) (offset : Nat) :
    BlamesBytes (Wire.decodeAt (α := α) bytes offset) :=
  .bind (h.blamesBytes _) fun _ => .ok _

theorem Wire.decodeUpTo_blamesBytes (fuel : Nat) (c : Cursor) :
    BlamesBytes (Wire.decodeUpTo (α := α) fuel c) := by
  induction fuel generalizing c with
  | zero => exact .ok _
  | succ fuel ih =>
    show BlamesBytes ((if c.rest.isEmpty then pure [] else do
      let a ← Wire.decoder
      let as ← Wire.decodeUpTo fuel
      pure (a :: as) : Decoder (List α)) c)
    split
    · exact .ok _
    · exact .bind (h.blamesBytes c) fun p => .bind (ih p.2) fun _ => .ok _

theorem Body.exactly_blamesBytes (length : UInt8) (payload : Bytes) :
    BlamesBytes (Body.exactly (α := α) length payload) :=
  .bind (Wire.decodeAt_blamesBytes h _ _) fun _ => .ite (.ok _) (.error rfl)

end Readers

theorem Body.decode_blamesBytes (header : MessageHeader) (payload : Bytes) :
    BlamesBytes (Body.decode header payload) := by
  unfold Body.decode
  cases header.type with
  | output => exact .map (exactly_blamesBytes OutputCommand.built _ _)
  | poll =>
    refine .ite (.ok _) (.ite ?_ (.error rfl))
    exact .bind (Wire.decodeAt_blamesBytes Identity.built _ _) fun _ => .ok _
  | setAddress => exact .map (exactly_blamesBytes AddressChange.built _ _)
  | dumpConfig =>
    exact .bind (Wire.decodeUpTo_blamesBytes ConfigRecord.built _ _) fun _ => .ok _

theorem MessageHeader.decode_blamesBytes (bytes : Bytes) :
    BlamesBytes (MessageHeader.decode bytes) :=
  Wire.decodeAt_blamesBytes MessageHeader.built bytes 0

theorem Message.decode_blamesBytes (bytes : Bytes) : BlamesBytes (Message.decode bytes) := by
  refine .bind (MessageHeader.decode_blamesBytes bytes) fun ⟨header, _⟩ => ?_
  refine .ite (.error rfl) (.ite (.error rfl) ?_)
  exact .bind (Body.decode_blamesBytes header _) fun _ => .ok _

theorem ModuleConfig.outputsOf_blamesBytes (records : List ConfigRecord) :
    BlamesBytes (ModuleConfig.outputsOf records) := by
  induction records with
  | nil => exact .ok _
  | cons record rest ih =>
    cases record with
    | output o => exact .map ih
    | _ => exact .error rfl

theorem ModuleConfig.ofRecords_blamesBytes (records : List ConfigRecord) :
    BlamesBytes (ModuleConfig.ofRecords records) := by
  unfold ofRecords
  split
  · refine .bind (outputsOf_blamesBytes _) fun outputs => ?_
    split
    · exact .ok _
    · exact .error rfl
  · exact .error rfl

theorem Response.messagesOf_blamesBytes (parts : List Bytes) :
    BlamesBytes (Response.messagesOf parts) := by
  unfold messagesOf
  induction parts with
  | nil => exact .ok _
  | cons part parts ih =>
    rw [List.mapM_cons]
    exact .bind (.map (Message.decode_blamesBytes part)) fun _ => .bind ih fun _ => .ok _

theorem Response.ofFragments_blamesBytes (parts : List Bytes) :
    BlamesBytes (Response.ofFragments parts) := by
  refine .bind (messagesOf_blamesBytes parts) fun ms => ?_
  unfold ofMessages
  refine .ite (.ok _) ?_
  split
  · exact .ok _
  · split
    · exact .map (ModuleConfig.ofRecords_blamesBytes _)
    · exact .ok _

/-! ## Writers -/

theorem Message.encode_blamesValue (m : Message) : BlamesValue m.encode := by
  intro e h
  rw [(Message.encode_eq_error_iff.mp h).2]
  rfl

theorem Program.ofParams?_blamesValue (code : UInt8) (params : Bytes) :
    BlamesValue (Program.ofParams? code params) := by
  intro e h
  unfold ofParams? at h
  split at h <;> cases h
  rfl

theorem Relay.encodeItem_blamesValue (bs : Bytes) : BlamesValue (Relay.encodeItem bs) := by
  intro e h
  unfold encodeItem at h
  split at h <;> cases h
  rfl

/-! ## All of them -/

/-- A length that no item has is put down to a value, though it was read. -/
theorem Relay.ItemDecoder.next_blamesValue (d : Relay.ItemDecoder) : BlamesValue d.next.1 := by
  intro e h
  rw [(next_eq_error_iff.mp h).2]
  rfl

/-- Its errors are put down to the bytes only where it gives none: before a length has come, and
where an item can have the length that has come. -/
theorem Relay.ItemDecoder.next_blamesBytes_iff (d : Relay.ItemDecoder) : BlamesBytes d.next.1 ↔
    d.buffered < Relay.prefixSize ∨ d.announced ≤ Relay.maxItemSize := by
  constructor
  · intro blames
    by_cases oversized : prefixSize ≤ d.buffered ∧ maxItemSize < d.announced
    · exact absurd (blames _ (next_eq_error_iff.mpr ⟨oversized, rfl⟩)) Bool.false_ne_true
    · omega
  · intro in_size e refused
    obtain ⟨⟨whole, oversized⟩, -⟩ := next_eq_error_iff.mp refused
    omega

/-- Whatever is read, as a message, a header, a value of any type at any offset, a configuration or
an answer, an error is put down to the bytes; whatever is written, as a message, a program or an
item, it is put down to the value. Only the decoder of items does otherwise, and just where a length
has come that no item has: its error is put down to a value. -/
theorem errors_blame (bytes : Bytes) (offset : Nat) (records : List ConfigRecord)
    (parts : List Bytes) (m : Message) (code : UInt8) (params item : Bytes)
    (d : Relay.ItemDecoder) :
    (BlamesBytes (Message.decode bytes) ∧ BlamesBytes (MessageHeader.decode bytes) ∧
      BlamesBytes (Wire.decodeAt (α := MessageHeader) bytes offset) ∧
      BlamesBytes (Wire.decodeAt (α := OutputHeader) bytes offset) ∧
      BlamesBytes (Wire.decodeAt (α := Program) bytes offset) ∧
      BlamesBytes (Wire.decodeAt (α := OutputCommand) bytes offset) ∧
      BlamesBytes (Wire.decodeAt (α := Identity) bytes offset) ∧
      BlamesBytes (Wire.decodeAt (α := AddressChange) bytes offset) ∧
      BlamesBytes (Wire.decodeAt (α := ConfigHeader) bytes offset) ∧
      BlamesBytes (Wire.decodeAt (α := OutputConfig) bytes offset) ∧
      BlamesBytes (Wire.decodeAt (α := ConfigRecord) bytes offset) ∧
      BlamesBytes (ModuleConfig.ofRecords records) ∧ BlamesBytes (Response.ofFragments parts)) ∧
    (BlamesValue m.encode ∧ BlamesValue (Program.ofParams? code params) ∧
      BlamesValue (Relay.encodeItem item)) ∧
    (BlamesBytes d.next.1 ↔
      d.buffered < Relay.prefixSize ∨ d.announced ≤ Relay.maxItemSize) ∧
    BlamesValue d.next.1 :=
  ⟨⟨Message.decode_blamesBytes bytes, MessageHeader.decode_blamesBytes bytes,
      Wire.decodeAt_blamesBytes MessageHeader.built bytes offset,
      Wire.decodeAt_blamesBytes OutputHeader.built bytes offset,
      Wire.decodeAt_blamesBytes Program.built bytes offset,
      Wire.decodeAt_blamesBytes OutputCommand.built bytes offset,
      Wire.decodeAt_blamesBytes Identity.built bytes offset,
      Wire.decodeAt_blamesBytes AddressChange.built bytes offset,
      Wire.decodeAt_blamesBytes ConfigHeader.built bytes offset,
      Wire.decodeAt_blamesBytes OutputConfig.built bytes offset,
      Wire.decodeAt_blamesBytes ConfigRecord.built bytes offset,
      ModuleConfig.ofRecords_blamesBytes records, Response.ofFragments_blamesBytes parts⟩,
    ⟨m.encode_blamesValue, Program.ofParams?_blamesValue code params,
      Relay.encodeItem_blamesValue item⟩,
    d.next_blamesBytes_iff, d.next_blamesValue⟩

/-- Four bytes that announce an item of 65537 bytes are refused as if a value had been too long. -/
theorem not_next_blamesBytes : ¬ ∀ d : Relay.ItemDecoder, BlamesBytes d.next.1 := by
  intro h
  have refused : (Relay.ItemDecoder.push {} [0, 1, 0, 1]).next.1 =
      .error (.oversizedPayload 65537 65536) := rfl
  exact Bool.false_ne_true (h _ _ refused)

end LightLink
