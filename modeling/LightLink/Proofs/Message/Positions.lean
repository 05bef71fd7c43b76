import LightLink.Proofs.Message.Formats
import LightLink.Proofs.Message.Steps

/-!
# Values anywhere in a buffer

Every type with a wire format has its values read at any offset, with anything before and behind
them, and where a buffer ends too early the error counts from the start of the buffer, also if it
arises in a part of a part.

* `Decoder.Built.incremental`: the decoders of all types are incremental;
* `Positional`: what is said of a type;
* `positional_of_incremental`, `wire_positional`: it holds of a type whose decoder is incremental,
  and so of all of them.
-/

namespace LightLink

/-! ## Decoders -/

theorem Decoder.Incremental.colour : Decoder.colour.Incremental :=
  block Decoder.Reads.colour (fun spells => by rw [spells]; rfl) colour_eq_error

/-- Decoders are incremental, as their steps are. -/
theorem Decoder.Built.incremental {α : Type} {d : Decoder α} (h : d.Built) : d.Incremental := by
  induction h with
  | pure a => exact .pure a
  | fail refuses => exact .fail (WireError.isRefusal_iff.mp refuses).2
  | byte => exact .byte
  | word => exact .word
  | colour => exact .colour
  | row n => exact .row n
  | bind _ _ first next => exact .bind first next

theorem MessageHeader.incremental : (Wire.decoder : Decoder MessageHeader).Incremental :=
  MessageHeader.built.incremental

theorem OutputHeader.incremental : (Wire.decoder : Decoder OutputHeader).Incremental :=
  OutputHeader.built.incremental

theorem Program.incremental : (Wire.decoder : Decoder Program).Incremental :=
  Program.built.incremental

theorem OutputCommand.incremental : (Wire.decoder : Decoder OutputCommand).Incremental :=
  OutputCommand.built.incremental

theorem Identity.incremental : (Wire.decoder : Decoder Identity).Incremental :=
  Identity.built.incremental

theorem AddressChange.incremental : (Wire.decoder : Decoder AddressChange).Incremental :=
  AddressChange.built.incremental

theorem ConfigHeader.incremental : (Wire.decoder : Decoder ConfigHeader).Incremental :=
  ConfigHeader.built.incremental

theorem OutputConfig.incremental : (Wire.decoder : Decoder OutputConfig).Incremental :=
  OutputConfig.built.incremental

theorem ConfigRecord.incremental : (Wire.decoder : Decoder ConfigRecord).Incremental :=
  ConfigRecord.built.incremental

/-! ## All types -/

/-- Values of a type are found wherever they stand in a buffer, and where they do not stand there
whole, that is what is said, as positions in the buffer. -/
structure Positional (α : Type) [Wire α] : Prop where
  /-- A value takes as many bytes as are written for it. -/
  length_encode : ∀ a : α, (Wire.encode a).length = Wire.size a
  /-- It is read behind any bytes and before any others. -/
  decodeAt_encode : ∀ (a : α) (before after : Bytes),
    Wire.decodeAt (before ++ Wire.encode a ++ after) before.length = .ok (a, Wire.size a)
  /-- Bytes that are missing lie past the end of the buffer and past the offset. -/
  missing : ∀ (bytes : Bytes) (offset needed available : Nat),
    Wire.decodeAt (α := α) bytes offset = .error (.insufficientData needed available) →
      available = bytes.length ∧ bytes.length < needed ∧ offset < needed
  /-- A part of a value, or none of it where the offset lies at the end of the buffer or past it, is
  reported as such, and no more is missing than belongs to the value. -/
  cut : ∀ (a : α) (bytes : Bytes) (offset : Nat),
    bytes.drop offset <+: Wire.encode a → bytes.drop offset ≠ Wire.encode a →
      ∃ needed, Wire.decodeAt (α := α) bytes offset =
          .error (.insufficientData needed bytes.length) ∧
        needed ≤ offset + Wire.size a

theorem positional_of_incremental {α : Type} [Wire α] [WireFormat α]
    (h : (Wire.decoder : Decoder α).Incremental) : Positional α where
  length_encode := WireFormat.length_encode
  decodeAt_encode := by
    intro a before after
    refine WireFormat.decodeAt_eq_ok_iff.mpr
      ⟨_, after, WireFormat.spells_encode a, ?_, (WireFormat.length_encode a).symm⟩
    rw [List.append_assoc, List.drop_left]
  missing := by
    intro bytes offset needed available error
    obtain ⟨all, behind, -⟩ := h.wanted (decodeAt_eq_error_iff.mp error)
    rw [Cursor.stop_at] at behind
    exact ⟨all, by omega, by omega⟩
  cut := by
    intro a bytes offset start part
    obtain ⟨needed, error, -, -, within⟩ :=
      decodeAt_cut h (WireFormat.spells_encode a) start part
    rw [WireFormat.length_encode] at within
    exact ⟨needed, error, within⟩

/-- Each type of value that has a wire format is read where it stands, and says so in positions of
the buffer where it does not. -/
theorem wire_positional :
    Positional MessageHeader ∧ Positional OutputHeader ∧ Positional Program ∧
      Positional OutputCommand ∧ Positional Identity ∧ Positional AddressChange ∧
      Positional ConfigHeader ∧ Positional OutputConfig ∧ Positional ConfigRecord :=
  ⟨positional_of_incremental MessageHeader.incremental,
    positional_of_incremental OutputHeader.incremental,
    positional_of_incremental Program.incremental,
    positional_of_incremental OutputCommand.incremental,
    positional_of_incremental Identity.incremental,
    positional_of_incremental AddressChange.incremental,
    positional_of_incremental ConfigHeader.incremental,
    positional_of_incremental OutputConfig.incremental,
    positional_of_incremental ConfigRecord.incremental⟩

end LightLink
