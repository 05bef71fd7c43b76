import LightLink.Proofs.Message.Formats

/-!
# Messages written and read back

* `Message.decode_eq_ok_iff`: which bytes a message is read from, whatever follows them;
* `Message.encode_eq_ok_iff`, `Message.encode_eq_error_iff`: when a message is written, and as what;
* `Message.decode_encode_append`: a message that is written is read back, and it is written unless
  its parts take up more than a header can count.
-/

namespace LightLink

theorem MessageHeader.decode_eq_ok_iff {bytes : Bytes} {h : MessageHeader} {n : Nat} :
    MessageHeader.decode bytes = .ok (h, n) ↔
      ∃ rest, bytes = Wire.encode h ++ rest ∧ n = MessageHeader.wireSize := by
  refine WireFormat.decodeAt_eq_ok_iff.trans ⟨?_, ?_⟩
  · intro h
    obtain ⟨_, rest, rfl, r, rfl⟩ := h
    exact ⟨rest, r, WireFormat.length_encode h⟩
  · intro h
    obtain ⟨rest, rfl, rfl⟩ := h
    exact ⟨_, rest, rfl, rfl, (WireFormat.length_encode h).symm⟩

namespace Message

/-- A message is read exactly from a header of its type, flags and address, whose length counts it,
and bytes that stand for its body. -/
theorem decode_eq_ok_iff {bytes : Bytes} {m : Message} {n : Nat} :
    decode bytes = .ok (m, n) ↔ ∃ crc version length payload rest,
      bytes = Wire.encode (⟨crc, version, length, m.type, m.flags, m.address⟩ : MessageHeader) ++
        payload ++ rest ∧
      m.body.Spells payload ∧ n = length.toNat ∧ n = MessageHeader.wireSize + payload.length := by
  refine except_bind_eq_ok.trans ⟨?_, ?_⟩
  · intro h
    obtain ⟨⟨header, k⟩, h, e⟩ := h
    obtain ⟨rest, rfl, rfl⟩ := MessageHeader.decode_eq_ok_iff.mp h
    have len := WireFormat.length_encode header
    change _ = MessageHeader.wireSize at len
    simp only [List.length_append, len] at e
    split at e
    · cases e
    · rename_i le
      split at e
      · cases e
      · rename_i le'
        obtain ⟨body, hb, e⟩ := except_bind_eq_ok.mp e
        cases e
        obtain ⟨type, spells⟩ := Body.decode_eq_ok_iff.mp hb
        have split : ((Wire.encode header ++ rest).take header.length.toNat).drop
            MessageHeader.wireSize = rest.take (header.length.toNat - MessageHeader.wireSize) := by
          rw [List.drop_take, List.drop_left' len]
        rw [split] at spells
        refine ⟨header.crc, header.version, header.length, _,
          rest.drop (header.length.toNat - MessageHeader.wireSize), ?_, spells, rfl, ?_⟩
        · rw [List.append_assoc, List.take_append_drop]
          exact congrArg (Wire.encode · ++ rest) (by rw [Message.type, type])
        · rw [List.length_take]
          omega
  · intro h
    obtain ⟨crc, version, length, payload, rest, rfl, spells, rfl, size⟩ := h
    refine ⟨_, MessageHeader.decode_eq_ok_iff.mpr ⟨_, List.append_assoc .., rfl⟩, ?_⟩
    generalize hd : (⟨crc, version, length, m.type, m.flags, m.address⟩ : MessageHeader) = header
    have len := WireFormat.length_encode header
    change _ = MessageHeader.wireSize at len
    obtain rfl : header.length = length := by rw [← hd]
    have split : ((Wire.encode header ++ payload ++ rest).take header.length.toNat).drop
        MessageHeader.wireSize = payload := by
      rw [List.take_left' (by rw [List.length_append, len, size]), List.drop_left' len]
    have hb : Body.decode header payload = .ok m.body :=
      Body.decode_eq_ok_iff.mpr ⟨by rw [← hd]; rfl, spells⟩
    simp only [List.length_append, len]
    rw [if_neg (by omega), if_neg (by omega), split, hb, ← hd]
    rfl

theorem length_body_add (m : Message) :
    MessageHeader.wireSize + m.body.encode.length = m.wireSize := by
  rw [Body.length_encode]
  rfl

theorem encode_eq_ok_iff {m : Message} {e : Bytes} :
    m.encode = .ok e ↔ m.wireSize ≤ maxMessageSize ∧
      e = Wire.encode (m.header (UInt8.ofNat m.wireSize)) ++ m.body.encode := by
  simp only [encode, length_body_add]
  split
  · exact ⟨nofun, fun h => by omega⟩
  · rw [Except.ok.injEq, eq_comm]
    exact ⟨fun h => ⟨by omega, h⟩, fun h => h.2⟩

theorem encode_eq_error_iff {m : Message} {err : WireError} :
    m.encode = .error err ↔ maxMessageSize < m.wireSize ∧
      err = .oversizedPayload m.wireSize maxMessageSize := by
  simp only [encode, length_body_add]
  split
  · rw [Except.error.injEq, eq_comm]
    exact ⟨fun h => ⟨by omega, h⟩, fun h => h.2⟩
  · exact ⟨nofun, fun h => by omega⟩

theorem length_of_encode {m : Message} {e : Bytes} (h : m.encode = .ok e) :
    e.length = m.wireSize := by
  obtain ⟨-, rfl⟩ := encode_eq_ok_iff.mp h
  rw [List.length_append, WireFormat.length_encode]
  exact length_body_add m

theorem toNat_wireSize {m : Message} (h : m.wireSize ≤ maxMessageSize) :
    (UInt8.ofNat m.wireSize).toNat = m.wireSize :=
  UInt8.toNat_ofNat_of_lt' (Nat.lt_succ_of_le h)

/-- A message is what is read from its bytes. -/
theorem decode_of_encode {m : Message} {e : Bytes} (h : m.encode = .ok e) :
    decode e = .ok (m, e.length) := by
  have length := length_of_encode h
  obtain ⟨le, rfl⟩ := encode_eq_ok_iff.mp h
  refine decode_eq_ok_iff.mpr ⟨0, protocolVersion, UInt8.ofNat m.wireSize, m.body.encode, [],
    (List.append_nil _).symm, m.body.spells_encode, ?_, ?_⟩
  · rw [length, toNat_wireSize le]
  · rw [length, length_body_add]

/-- A message is read back from its bytes, whatever follows them; they number from 8 to 255, as
their fourth says. The one reason not to be written is a size of more than 255 bytes, which is
reported. -/
theorem decode_encode_append (m : Message) :
    (∀ e, m.encode = .ok e →
      8 ≤ e.length ∧ e.length ≤ 255 ∧ e[3]?.map UInt8.toNat = some e.length ∧
      ∀ s, decode (e ++ s) = .ok (m, e.length)) ∧
    ∀ err, m.encode = .error err ↔ 255 < m.wireSize ∧ err = .oversizedPayload m.wireSize 255 := by
  refine ⟨fun e h => ?_, fun err => encode_eq_error_iff⟩
  have len := length_of_encode h
  obtain ⟨le, rfl⟩ := encode_eq_ok_iff.mp h
  rw [len]
  refine ⟨Nat.le_add_right .., le, ?_, fun s => ?_⟩
  · exact congrArg some (toNat_wireSize le)
  · refine decode_eq_ok_iff.mpr ⟨0, protocolVersion, UInt8.ofNat m.wireSize, m.body.encode, s, rfl,
      m.body.spells_encode, (toNat_wireSize le).symm, ?_⟩
    exact (length_body_add m).symm

/-- A dump of two records, one of them of a sensor, is written in 29 bytes and read back. -/
theorem decode_encode_append_dump :
    let m : Message := ⟨0x1234, .response, .dumpConfig
      [.output ⟨1, .mpr121 2 true ⟨List.replicate 12 0xFC, rfl⟩⟩, .baud ⟨8⟩]⟩
    ∃ e, m.encode = .ok e ∧ e.length = 29 ∧ decode (e ++ [0xFC, 10]) = .ok (m, 29) := by
  intro m
  have h := (decode_encode_append m).1 _ rfl
  exact ⟨_, rfl, rfl, h.2.2.2 _⟩

end Message

end LightLink
