import LightLink.Proofs.Message.RoundTrip

/-!
# One form for each message

Reading accepts few bytes that are never written. Nobody looks at the second and third byte of a
header, and the byte that turns a sensor's interrupt on may be any but zero. `Message.normal` puts
these bytes as they are written and leaves all others alone:

* `Message.decode_eq_ok_iff_normal`: a message is read exactly from bytes whose normal form is
  written for it;
* `Message.decode_set`: what the two bytes of the header are makes no difference, also where no
  message is read;
* `Message.decode_canonical`: both together.
-/

namespace LightLink

/-! ## Records -/

namespace ConfigRecord

/-- The bytes of a record with the byte that turns a sensor's interrupt on, the sixth, as it is
written. -/
def normal : ConfigRecord → Bytes → Bytes
  | .output ⟨_, .mpr121 ..⟩, bs => bs.modify 5 fun b => if b = 0 then 0 else 1
  | _, bs => bs

/-- The bytes of records, each with its normal form. -/
def normalAll : List ConfigRecord → Bytes → Bytes
  | [], bs => bs
  | r :: rs, bs => r.normal (bs.take (Wire.size r)) ++ normalAll rs (bs.drop (Wire.size r))

@[simp] theorem length_normal (r : ConfigRecord) (bs : Bytes) : (r.normal bs).length = bs.length := by
  unfold normal
  split
  · exact List.length_modify ..
  · rfl

@[simp] theorem length_normalAll (rs : List ConfigRecord) (bs : Bytes) :
    (normalAll rs bs).length = bs.length := by
  induction rs generalizing bs with
  | nil => rfl
  | cons r rs ih =>
    rw [normalAll, List.length_append, length_normal, ih, ← List.length_append,
      List.take_append_drop]

/-- A sensor's interrupt byte stands for what is written of it. -/
theorem switch_eq_iff (b : UInt8) (use : Bool) :
    (if b = 0 then 0 else 1) = (if use then (1 : UInt8) else 0) ↔ use = (b != 0) := by
  by_cases h : b = 0 <;> cases use <;> simp [h]

/-- The bytes of a sensor's record. -/
theorem spells_sensor_iff {index irq : UInt8} {use : Bool} {thresholds : Row UInt8 12}
    {bs : Bytes} :
    WireFormat.Spells (ConfigRecord.output ⟨index, .mpr121 irq use thresholds⟩) bs ↔
      ∃ b, use = (b != 0) ∧ bs = configStart :: 5 :: 5 :: index :: irq :: b :: thresholds.toList := by
  constructor
  · intro h
    obtain ⟨_, rfl, _, rfl, b, h, rfl⟩ := h
    exact ⟨b, h, rfl⟩
  · intro h
    obtain ⟨b, h, rfl⟩ := h
    exact ⟨_, rfl, _, rfl, b, h, rfl⟩

theorem spells_iff_normal {r : ConfigRecord} {bs : Bytes} :
    WireFormat.Spells r bs ↔ r.normal bs = Wire.encode r := by
  rcases r with h | ⟨index, s⟩ | a | d | b
  case output =>
    cases s with
    | mpr121 irq use thresholds =>
      rw [spells_sensor_iff]
      constructor
      · intro h
        obtain ⟨b, h, rfl⟩ := h
        show configStart :: 5 :: 5 :: index :: irq :: (if b = 0 then 0 else 1) :: thresholds.toList = _
        rw [(switch_eq_iff b use).mpr h]
        rfl
      · intro h
        change bs.modify 5 (fun b => if b = 0 then 0 else 1) = configStart :: 5 :: 5 :: index :: irq ::
          (if use then 1 else 0) :: thresholds.toList at h
        match bs, h with
        | x₀ :: x₁ :: x₂ :: x₃ :: x₄ :: b :: rest, h =>
          simp only [List.modify_succ_cons, List.modify_zero_cons, List.cons.injEq] at h
          obtain ⟨rfl, rfl, rfl, rfl, rfl, hb, rfl⟩ := h
          exact ⟨b, (switch_eq_iff b use).mp hb, rfl⟩
    | _ =>
      show _ ↔ bs = _
      constructor
      · intro ⟨_, e, _, e', h⟩
        rw [e, e', h]
        rfl
      · exact fun h => ⟨_, h, _, rfl, rfl⟩
  all_goals
    show _ ↔ bs = _
    constructor
    · intro ⟨_, e, h⟩
      rw [e, h]
      rfl
    · exact fun h => ⟨_, h, rfl⟩

theorem all_spells_iff_normalAll {rs : List ConfigRecord} {bs : Bytes} :
    Format.all WireFormat.Spells rs bs ↔ normalAll rs bs = rs.flatMap Wire.encode := by
  induction rs generalizing bs with
  | nil => exact Iff.rfl
  | cons r rs ih =>
    constructor
    · intro h
      obtain ⟨bs₁, bs₂, rfl, h, all⟩ := h
      have len := WireFormat.length_eq h
      rw [normalAll, List.take_left' len, List.drop_left' len, spells_iff_normal.mp h, ih.mp all]
      rfl
    · intro h
      have total := congrArg List.length h
      rw [length_normalAll, List.flatMap_cons, List.length_append, WireFormat.length_encode] at total
      have len : (bs.take (Wire.size r)).length = Wire.size r := by
        rw [List.length_take]
        omega
      have parts := List.append_inj h (by rw [length_normal, len, WireFormat.length_encode])
      exact ⟨_, _, (List.take_append_drop _ bs).symm, spells_iff_normal.mpr parts.1, ih.mpr parts.2⟩

end ConfigRecord

/-! ## Bodies -/

namespace Body

/-- The bytes of a body as they are written. -/
def normal : Body → Bytes → Bytes
  | dumpConfig rs, bs => ConfigRecord.normalAll rs bs
  | _, bs => bs

@[simp] theorem length_normal (body : Body) (bs : Bytes) :
    (body.normal bs).length = bs.length := by
  cases body with
  | dumpConfig rs => exact ConfigRecord.length_normalAll rs bs
  | _ => rfl

theorem spells_iff_normal {body : Body} {bs : Bytes} :
    Spells body bs ↔ body.normal bs = body.encode := by
  cases body with
  | dumpConfig rs => exact ConfigRecord.all_spells_iff_normalAll
  | _ => exact Iff.rfl

end Body

/-! ## Messages -/

namespace Message

/-- The bytes of a message as they are written: nothing as the second byte, the version of the
protocol as the third. -/
def normal (m : Message) (bs : Bytes) : Bytes :=
  ((bs.take MessageHeader.wireSize).set 1 0).set 2 protocolVersion ++
    m.body.normal (bs.drop MessageHeader.wireSize)

theorem normal_append (m : Message) (h : MessageHeader) (payload : Bytes) :
    m.normal (Wire.encode h ++ payload) =
      Wire.encode { h with crc := 0, version := protocolVersion } ++ m.body.normal payload := rfl

@[simp] theorem length_normal (m : Message) (bs : Bytes) : (m.normal bs).length = bs.length := by
  rw [normal, List.length_append, List.length_set, List.length_set, Body.length_normal,
    ← List.length_append, List.take_append_drop]

/-- Bytes whose normal form begins with a header begin with one that differs in two bytes. -/
theorem exists_of_normal_eq {m : Message} {bs payload : Bytes} {h : MessageHeader}
    (e : m.normal bs = Wire.encode h ++ payload) : ∃ crc version,
      bs = Wire.encode { h with crc := crc, version := version } ++
        bs.drop MessageHeader.wireSize ∧
      m.body.normal (bs.drop MessageHeader.wireSize) = payload := by
  have len := congrArg List.length e
  rw [length_normal, List.length_append, WireFormat.length_encode] at len
  rw [show Wire.size h = 8 from rfl, Nat.add_comm] at len
  match bs, e, len with
  | b₀ :: b₁ :: b₂ :: b₃ :: b₄ :: b₅ :: b₆ :: b₇ :: rest, e, _ =>
    change b₀ :: 0 :: protocolVersion :: b₃ :: b₄ :: b₅ :: b₆ :: b₇ :: m.body.normal rest =
      startCode :: h.crc :: h.version :: h.length :: h.type.code :: h.flags.bits ::
        (little16 h.address ++ payload) at e
    simp only [little16, List.cons_append, List.nil_append, List.cons.injEq] at e
    obtain ⟨rfl, -, -, rfl, rfl, rfl, rfl, rfl, spells⟩ := e
    exact ⟨b₁, b₂, rfl, spells⟩

/-- A message is read exactly from bytes whose normal form is written for it. -/
theorem decode_eq_ok_iff_normal {bytes : Bytes} {m : Message} {n : Nat} :
    decode bytes = .ok (m, n) ↔ n ≤ bytes.length ∧ m.encode = .ok (m.normal (bytes.take n)) := by
  rw [decode_eq_ok_iff, encode_eq_ok_iff]
  constructor
  · intro ⟨crc, version, length, payload, rest, bytes_eq, spells, n_eq, n_eq'⟩
    have size : n = m.wireSize := by
      rw [n_eq', Body.length_of_spells spells]
      rfl
    have max : m.wireSize ≤ maxMessageSize := by
      rw [← size, n_eq]
      exact Nat.le_of_lt_succ length.toNat_lt
    obtain rfl : length = UInt8.ofNat m.wireSize := by
      rw [← size, n_eq, UInt8.ofNat_toNat]
    have len : (Wire.encode (⟨crc, version, UInt8.ofNat m.wireSize, m.type, m.flags, m.address⟩ :
        MessageHeader) ++ payload).length = n := by
      rw [List.length_append, WireFormat.length_encode, n_eq']
      rfl
    refine ⟨?_, max, ?_⟩
    · rw [bytes_eq, List.length_append, len]
      omega
    · rw [bytes_eq, List.take_left' len, normal_append, Body.spells_iff_normal.mp spells]
      rfl
  · intro ⟨le, max, h⟩
    have size : n = m.wireSize := by
      have len := congrArg List.length h
      rw [length_normal, List.length_take_of_le le, List.length_append,
        WireFormat.length_encode] at len
      exact len.trans (length_body_add m)
    obtain ⟨crc, version, bytes_eq, spells⟩ := exists_of_normal_eq h
    refine ⟨crc, version, UInt8.ofNat m.wireSize, (bytes.take n).drop MessageHeader.wireSize,
      bytes.drop n, ?_, Body.spells_iff_normal.mpr spells, ?_, ?_⟩
    · exact (List.take_append_drop n bytes).symm.trans (congrArg (· ++ bytes.drop n) bytes_eq)
    · rw [toNat_wireSize max, size]
    · rw [List.length_drop, List.length_take_of_le le, size]
      exact (Nat.add_sub_cancel' (Nat.le_add_right ..)).symm

/-- A whole header is read unless its type is unknown. -/
theorem decode_header_eq (crc version length code flags lo hi : UInt8) (rest : Bytes) :
    MessageHeader.decode
        (startCode :: crc :: version :: length :: code :: flags :: lo :: hi :: rest) =
      (MessageType.ofCode? code).elim (.error (.unknownMessageType code)) fun type =>
        .ok (⟨crc, version, length, type, ⟨flags⟩, ofLittle16 lo hi⟩, 8) := by
  have e : MessageHeader.decode
      (startCode :: crc :: version :: length :: code :: flags :: lo :: hi :: rest) = (do
        let p ← (do
          let type ← Decoder.ofOption (.unknownMessageType code) (MessageType.ofCode? code)
          pure ⟨crc, version, length, type, ⟨flags⟩, ofLittle16 lo hi⟩ : Decoder MessageHeader)
            ⟨rest.length + 8, 8, rest⟩
        pure (p.1, p.2.pos - 0)) := rfl
  rw [e]
  cases MessageType.ofCode? code <;> rfl

theorem decode_header_of_ne {start : UInt8} (h : start ≠ startCode) (rest : Bytes) :
    MessageHeader.decode (start :: rest) = .error (.badStartCode start) := by
  have e : MessageHeader.decode (start :: rest) = (do
      let p ← (if start ≠ startCode then Decoder.fail (.badStartCode start) >>= _ else _ :
        Decoder MessageHeader) ⟨rest.length + 1, 1, rest⟩
      pure (p.1, p.2.pos - 0)) := rfl
  rw [e, if_pos h]
  rfl

/-- The second and third byte of a header are read as they stand and decide nothing. -/
theorem decode_header_cons (start x y crc version : UInt8) (rest : Bytes) :
    MessageHeader.decode (start :: x :: y :: rest) =
      (fun p => ({ p.1 with crc := x, version := y }, p.2)) <$>
        MessageHeader.decode (start :: crc :: version :: rest) := by
  by_cases h : start = startCode
  · subst h
    rcases rest with _ | ⟨length, _ | ⟨code, _ | ⟨flags, _ | ⟨lo, _ | ⟨hi, rest⟩⟩⟩⟩⟩
    case cons.cons.cons.cons.cons =>
      rw [decode_header_eq, decode_header_eq]
      cases MessageType.ofCode? code <;> rfl
    all_goals rfl
  · rw [decode_header_of_ne h, decode_header_of_ne h]
    rfl

/-- What stands as the second and third byte makes no difference. -/
theorem decode_set {bytes : Bytes} (h : 3 ≤ bytes.length) (x y : UInt8) :
    decode ((bytes.set 1 x).set 2 y) = decode bytes := by
  obtain ⟨k, len⟩ := Nat.exists_eq_add_of_le' h
  match bytes, len with
  | start :: crc :: version :: rest, _ =>
    show decode (start :: x :: y :: rest) = _
    rw [decode, decode, decode_header_cons start x y crc version]
    cases MessageHeader.decode (start :: crc :: version :: rest) with
    | error e => rfl
    | ok p =>
      obtain ⟨header, n⟩ := p
      have drop : ∀ k, ((start :: x :: y :: rest).take k).drop MessageHeader.wireSize =
          ((start :: crc :: version :: rest).take k).drop MessageHeader.wireSize := by
        intro k
        rw [List.drop_take, List.drop_take]
        rfl
      show (if header.length.toNat < _ then _ else if _ then _ else _) = _
      rw [drop]
      rfl

/-- A message read from bytes is as long as their fourth declares and is written as they stand,
except for the second and third byte and for what turns a sensor's interrupt on. So it is read from
other bytes exactly when they agree with these as far as it goes, except there, and the second and
third byte decide nothing. -/
theorem decode_canonical :
    (∀ bytes m n, decode bytes = .ok (m, n) →
      bytes[3]?.map UInt8.toNat = some n ∧ 8 ≤ n ∧ n ≤ bytes.length ∧
      ∃ e, m.encode = .ok e ∧ e.length = n ∧ e = m.normal (bytes.take n)) ∧
    (∀ bytes bytes' m n n', decode bytes = .ok (m, n) →
      (decode bytes' = .ok (m, n') ↔
        n' = n ∧ n ≤ bytes'.length ∧ m.normal (bytes'.take n) = m.normal (bytes.take n))) ∧
    ∀ bytes x y, 3 ≤ bytes.length → decode ((bytes.set 1 x).set 2 y) = decode bytes := by
  refine ⟨fun bytes m n h => ?_, fun bytes bytes' m n n' h => ?_, fun bytes x y h => decode_set h x y⟩
  · obtain ⟨le, e⟩ := decode_eq_ok_iff_normal.mp h
    have len : (m.normal (bytes.take n)).length = n := by
      rw [length_normal, List.length_take_of_le le]
    obtain ⟨crc, version, length, payload, rest, bytes_eq, -, n_eq, n_eq'⟩ := decode_eq_ok_iff.mp h
    refine ⟨?_, ?_, le, _, e, len, rfl⟩
    · rw [bytes_eq, n_eq]
      rfl
    · rw [n_eq']
      exact Nat.le_add_right ..
  · obtain ⟨le, e⟩ := decode_eq_ok_iff_normal.mp h
    rw [decode_eq_ok_iff_normal]
    constructor
    · intro ⟨le', e'⟩
      obtain rfl : n' = n := by
        have size := length_of_encode e
        have size' := length_of_encode e'
        rw [length_normal, List.length_take_of_le le] at size
        rw [length_normal, List.length_take_of_le le'] at size'
        exact size'.trans size.symm
      exact ⟨rfl, le', Except.ok.inj (e'.symm.trans e)⟩
    · intro ⟨n_eq, le', same⟩
      rw [n_eq, same]
      exact ⟨le', e⟩

/-- A dump whose header is of another version and whose one sensor has its interrupt turned on by a
seven is read as the one that is written with a one, and so it is with more bytes behind it. -/
theorem decode_canonical_dump :
    let m : Message := ⟨0x1234, .none, .dumpConfig
      [.output ⟨1, .mpr121 2 true ⟨List.replicate 12 0, rfl⟩⟩]⟩
    let bytes : Bytes := [0xFC, 9, 7, 26, 4, 0, 0x34, 0x12, 0xFD, 5, 5, 1, 2, 7] ++
      List.replicate 12 0
    let written : Bytes := [0xFC, 0, 2, 26, 4, 0, 0x34, 0x12, 0xFD, 5, 5, 1, 2, 1] ++
      List.replicate 12 0
    decode bytes = .ok (m, 26) ∧ m.encode = .ok written ∧
      decode (written ++ [10]) = .ok (m, 26) ∧
      decode ((bytes.set 1 200).set 2 100) = .ok (m, 26) := by
  intro m bytes written
  have h : decode bytes = .ok (m, 26) := rfl
  have ⟨sound, same, header⟩ := decode_canonical
  obtain ⟨-, -, -, _, e, -, rfl⟩ := sound _ _ _ h
  refine ⟨h, e, ?_, ?_⟩
  · exact (same _ _ _ _ _ h).mpr ⟨rfl, by decide, rfl⟩
  · rw [header bytes 200 100 (by decide), h]

end Message

end LightLink
