import LightLink.Proofs.Message.Canonical
import LightLink.Proofs.Message.Positions

/-!
# Messages that are still arriving

A receiver may decode what it has and try again when more bytes have come. What it is told then is
told by the bytes the header declares alone, and as long as some of these are missing it is told
just that.

* `Message.decode_append_of_header`: the bytes behind a whole message decide nothing, also where it
  is refused;
* `Message.decode_of_part`: a part of a message that was written;
* `Message.decode_arriving`: both, and errors that are there before the whole message is.
-/

namespace LightLink

/-! ## Headers -/

namespace MessageHeader

variable {bytes : Bytes}

theorem decode_append_of_ok {h : MessageHeader} {n : Nat}
    (ok : MessageHeader.decode bytes = .ok (h, n)) (s : Bytes) :
    MessageHeader.decode (bytes ++ s) = .ok (h, n) :=
  decodeAt_append_of_ok incremental ok (Nat.zero_le _) s

theorem decode_append_of_error {e : WireError} (error : MessageHeader.decode bytes = .error e)
    (final : e.isShort = false) (s : Bytes) : MessageHeader.decode (bytes ++ s) = .error e :=
  decodeAt_append_of_error incremental error final (Nat.zero_le _) s

theorem le_length_of_decode {h : MessageHeader} {n : Nat}
    (ok : MessageHeader.decode bytes = .ok (h, n)) : wireSize ≤ bytes.length := by
  obtain ⟨rest, rfl, -⟩ := decode_eq_ok_iff.mp ok
  rw [List.length_append, WireFormat.length_encode]
  exact Nat.le_add_right ..

/-- Eight bytes are a header, with the fourth as its length, or are refused for good. -/
theorem decode_of_le_length (whole : wireSize ≤ bytes.length) :
    (∃ h, MessageHeader.decode bytes = .ok (h, wireSize) ∧ bytes[3]? = some h.length) ∨
      ∃ e, MessageHeader.decode bytes = .error e ∧ e.isShort = false := by
  obtain ⟨k, length_eq⟩ := Nat.exists_eq_add_of_le' whole
  match bytes, length_eq with
  | start :: crc :: version :: length :: code :: flags :: lo :: hi :: rest, _ =>
    by_cases starts : start = startCode
    · subst starts
      rw [Message.decode_header_eq]
      cases MessageType.ofCode? code with
      | none => exact .inr ⟨_, rfl, rfl⟩
      | some type => exact .inl ⟨_, rfl, rfl⟩
    · exact .inr ⟨_, Message.decode_header_of_ne starts _, rfl⟩

end MessageHeader

/-! ## Messages -/

namespace Message

variable {bytes : Bytes} {header : MessageHeader} {n : Nat}

theorem decode_of_header_error {e : WireError} (error : MessageHeader.decode bytes = .error e) :
    decode bytes = .error e := by
  unfold decode
  rw [error]
  rfl

/-- What a message comes to once its header is read. -/
theorem decode_of_header (read : MessageHeader.decode bytes = .ok (header, n)) :
    decode bytes =
      if header.length.toNat < MessageHeader.wireSize then
        .error (.lengthMismatch header.length.toNat MessageHeader.wireSize)
      else if bytes.length < header.length.toNat then
        .error (.insufficientData header.length.toNat bytes.length)
      else (fun body => (⟨header.address, header.flags, body⟩, header.length.toNat)) <$>
        Body.decode header ((bytes.take header.length.toNat).drop MessageHeader.wireSize) := by
  unfold decode
  rw [read]
  rfl

/-- While bytes are missing that the header declares, these are asked for. -/
theorem decode_of_short (read : MessageHeader.decode bytes = .ok (header, n))
    (short : bytes.length < header.length.toNat) :
    decode bytes = .error (.insufficientData header.length.toNat bytes.length) := by
  have := MessageHeader.le_length_of_decode read
  rw [decode_of_header read, if_neg (by omega), if_pos short]

/-- Once all bytes are there that the header declares, those behind them decide nothing. -/
theorem decode_append_of_header (read : MessageHeader.decode bytes = .ok (header, n))
    (whole : header.length.toNat ≤ bytes.length) (s : Bytes) :
    decode (bytes ++ s) = decode bytes := by
  have there : ¬ bytes.length < header.length.toNat := Nat.not_lt_of_le whole
  have there' : ¬ (bytes ++ s).length < header.length.toNat := by
    rw [List.length_append]
    omega
  rw [decode_of_header read, decode_of_header (MessageHeader.decode_append_of_ok read s),
    if_neg there, if_neg there', List.take_append_of_le_length whole]

/-- So do those behind eight bytes that are no header. -/
theorem decode_append_of_refused {e : WireError} (error : MessageHeader.decode bytes = .error e)
    (final : e.isShort = false) (s : Bytes) : decode (bytes ++ s) = decode bytes := by
  rw [decode_of_header_error error,
    decode_of_header_error (MessageHeader.decode_append_of_error error final s)]

/-- The first bytes of a message that was written, but not all of them. As long as the header is not
there, its bytes are asked for; then all of the message are. -/
theorem decode_of_part {m : Message} {e p : Bytes} (written : m.encode = .ok e) (start : p <+: e)
    (part : p ≠ e) : ∃ needed, decode p = .error (.insufficientData needed p.length) ∧
      p.length < needed ∧ needed ≤ e.length ∧
      (MessageHeader.wireSize ≤ p.length → needed = e.length) := by
  have fewer : p.length < e.length :=
    Nat.lt_of_le_of_ne start.length_le fun same => part (start.eq_of_length same)
  have size := length_of_encode written
  obtain ⟨fits, e_eq⟩ := encode_eq_ok_iff.mp written
  let header := m.header (UInt8.ofNat m.wireSize)
  have declared : header.length.toNat = e.length := (toNat_wireSize fits).trans size.symm
  have front : Wire.encode header <+: e := e_eq ▸ List.prefix_append ..
  have front_length : (Wire.encode header).length = MessageHeader.wireSize :=
    WireFormat.length_encode header
  by_cases has_header : MessageHeader.wireSize ≤ p.length
  · obtain ⟨rest, rfl⟩ := List.prefix_of_prefix_length_le front start (front_length ▸ has_header)
    have read : MessageHeader.decode (Wire.encode header ++ rest) = .ok (header, _) :=
      MessageHeader.decode_eq_ok_iff.mpr ⟨rest, rfl, rfl⟩
    refine ⟨e.length, ?_, fewer, Nat.le_refl _, fun _ => rfl⟩
    rw [← declared]
    exact decode_of_short read (declared ▸ fewer)
  · have inside : p.drop 0 <+: Wire.encode header :=
      List.prefix_of_prefix_length_le start front (front_length ▸ Nat.le_of_not_le has_header)
    have not_all : p.drop 0 ≠ Wire.encode header := fun same =>
      has_header (Nat.le_of_eq (front_length.symm.trans (congrArg List.length same).symm))
    obtain ⟨needed, error, behind, -, within⟩ := decodeAt_cut MessageHeader.incremental
      (WireFormat.spells_encode header) inside not_all
    rw [Nat.zero_add] at within
    exact ⟨needed, decode_of_header_error error, behind, Nat.le_trans within front.length_le,
      fun h => absurd h has_header⟩

/-- What is said of bytes is also said when more follow, unless more were asked for, and also then
once all bytes are there that the fourth declares. Of a message that was written, every part but the
whole has the missing bytes asked for, no more of them than the message has, and nothing else is
said. -/
theorem decode_arriving :
    (∀ bytes s : Bytes,
      (∀ needed available, decode bytes ≠ .error (.insufficientData needed available)) →
        decode (bytes ++ s) = decode bytes) ∧
    (∀ bytes s : Bytes, (h : 8 ≤ bytes.length) → bytes[3].toNat ≤ bytes.length →
      decode (bytes ++ s) = decode bytes) ∧
    ∀ (m : Message) (e p : Bytes), m.encode = .ok e → p <+: e → p ≠ e →
      ∃ needed, decode p = .error (.insufficientData needed p.length) ∧ p.length < needed ∧
        needed ≤ e.length ∧ (8 ≤ p.length → needed = e.length) := by
  refine ⟨fun bytes s answered => ?_, fun bytes s h declared => ?_, fun m e p => decode_of_part⟩
  · cases read : MessageHeader.decode bytes with
    | error e =>
      cases e with
      | insufficientData needed available =>
        exact absurd (decode_of_header_error read) (answered needed available)
      | _ => exact decode_append_of_refused read rfl s
    | ok result =>
      refine decode_append_of_header read (Nat.le_of_not_lt fun short => ?_) s
      exact answered _ _ (decode_of_short read short)
  · obtain ⟨header, read, fourth⟩ | ⟨e, error, final⟩ := MessageHeader.decode_of_le_length h
    · obtain ⟨_, fourth⟩ := List.getElem?_eq_some_iff.mp fourth
      exact decode_append_of_header read (fourth ▸ declared) s
    · exact decode_append_of_refused error final s

/-- A value for an output, of which ten bytes have come; the same ten bytes where they are declared
to be all, so that two more are no help; and a byte no message begins with. -/
theorem decode_arriving_value :
    let m : Message := .value 0x1234 2 300
    let e : Bytes := [0xFC, 0, 2, 12, 1, 0, 0x34, 0x12, 1, 2, 44, 1]
    m.encode = .ok e ∧
      decode (e.take 10) = .error (.insufficientData 12 10) ∧
      decode ((e.set 3 10).take 10 ++ [44, 1]) = .error (.insufficientData 4 2) ∧
      decode ([0xAB] ++ e) = .error (.badStartCode 0xAB) := by
  intro m e
  obtain ⟨answered, declared, part⟩ := decode_arriving
  have written : m.encode = .ok e := encode_eq_ok_iff.mpr ⟨by decide, by decide⟩
  refine ⟨written, ?_, ?_, ?_⟩
  · obtain ⟨needed, error, -, -, all⟩ :=
      part m e (e.take 10) written (List.take_prefix ..) (by decide)
    rw [error, all (by decide)]
    rfl
  · exact (declared ((e.set 3 10).take 10) _ (by decide) (by decide)).trans rfl
  · exact (answered [0xAB] e nofun).trans rfl

end Message

end LightLink
