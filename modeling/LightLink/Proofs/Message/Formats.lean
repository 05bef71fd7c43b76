import LightLink.Message.Codec
import LightLink.Proofs.Wire.Reads

/-!
# The formats of messages and their parts

What each decoder of a message, of its parts and of configuration records reads. Every part stands
in one way only, with one exception: the byte that turns a sensor's interrupt on may be any but zero
(`OutputSetup.Spells`), and with it the records and dumps that hold a sensor.

* `WireFormat` instances: one for each type that has a wire format;
* `Body.Spells`, `Body.decode_eq_ok_iff`: a body is read exactly from bytes that stand for it.
-/

namespace LightLink

open Decoder.Reads

/-! ## Headers -/

theorem MessageHeader.reads : (Wire.decoder : Decoder MessageHeader).Reads (.exact Wire.encode) := by
  refine toExact (andThen byte fun _ => require (andThen byte fun _ => andThen byte fun _ =>
    andThen byte fun _ => andThen byte fun _ => andThen byte fun _ => andThen word fun _ =>
    lookup fun _ => pure _)) ?_ ?_
  · intro h
    refine ⟨_, _, rfl, rfl, ?_⟩
    repeat refine ⟨_, _, rfl, ?_⟩
    exact ⟨_, MessageType.ofCode?_code _, rfl, rfl⟩
  · intro _ _ h
    obtain ⟨_, _, rfl, rfl, crc, _, rfl, version, _, rfl, length, _, rfl, code, _, rfl, flags, _,
      rfl, address, _, rfl, type, h, rfl, rfl⟩ := h
    simp [Wire.encode, MessageType.code_eq_of_ofCode? h]

instance : WireFormat MessageHeader := .ofExact MessageHeader.reads fun _ => rfl

theorem OutputHeader.reads : (Wire.decoder : Decoder OutputHeader).Reads (.exact Wire.encode) := by
  refine toExact (andThen byte fun _ => andThen byte fun _ => lookup fun _ => pure _) ?_ ?_
  · exact fun h => ⟨_, _, rfl, _, _, rfl, _, OutputType.ofCode?_code _, rfl, rfl⟩
  · intro _ _ h
    obtain ⟨code, _, rfl, index, _, rfl, type, h, rfl, rfl⟩ := h
    simp [Wire.encode, OutputType.code_eq_of_ofCode? h]

instance : WireFormat OutputHeader := .ofExact OutputHeader.reads fun _ => rfl

theorem ConfigHeader.reads : (Wire.decoder : Decoder ConfigHeader).Reads (.exact Wire.encode) := by
  refine toExact (andThen byte fun _ => andThen byte fun _ => andThen byte fun _ =>
    andThen byte fun _ => andThen byte fun _ => andThen byte fun _ => andThen word fun _ =>
    andThen word fun _ => pure _) ?_ ?_
  · intro h
    repeat refine ⟨_, _, rfl, ?_⟩
    exact ⟨rfl, rfl⟩
  · simp only [forall_exists_index, and_imp]
    intros
    subst_vars
    simp [Wire.encode]

instance : WireFormat ConfigHeader := .ofExact ConfigHeader.reads fun _ => rfl

/-! ## Messages without records -/

theorem Decoder.Reads.colour : Decoder.colour.Reads (.exact Colour.bytes) := by
  intro h c c'
  obtain ⟨n, p, rest⟩ := h
  match rest with
  | [] => simp [Decoder.colour, Format.exact, Colour.bytes]
  | [x] => simp [Decoder.colour, Format.exact, Colour.bytes]
  | [x, y] => simp [Decoder.colour, Format.exact, Colour.bytes]
  | r :: g :: b :: tail =>
    simp only [Decoder.colour, Cursor.advance]
    constructor
    · intro h
      cases h
      exact ⟨_, tail, rfl, rfl, rfl⟩
    · intro h
      obtain ⟨_, _, rfl, ⟨⟩, rfl⟩ := h
      rfl

theorem Program.reads : (Wire.decoder : Decoder Program).Reads (.exact Wire.encode) := by
  refine toExact (andThen byte fun _ => andThen (row 32) fun _ => pure _) ?_ ?_
  · exact fun p => ⟨_, _, rfl, _, [], (List.append_nil _).symm, rfl, rfl⟩
  · intro _ _ h
    obtain ⟨code, _, rfl, params, _, rfl, rfl, rfl⟩ := h
    simp [Wire.encode]

instance : WireFormat Program := .ofExact Program.reads fun p => by
  simp [Wire.encode, Wire.size, Program.wireSize, Program.paramsSize, p.params.length_toList]

theorem OutputAction.reads (t : OutputType) :
    (OutputAction.bodyDecoder t).Reads fun a bs => a.type = t ∧ bs = a.body := by
  cases t with
  | value =>
    refine thenPure signed (fun v => ⟨rfl, rfl⟩) fun a bs h => ?_
    obtain ⟨type, rfl⟩ := h
    cases a <;> cases type
    exact ⟨_, rfl, rfl⟩
  | rgb =>
    refine thenPure colour (fun c => ⟨rfl, rfl⟩) fun a bs h => ?_
    obtain ⟨type, rfl⟩ := h
    cases a <;> cases type
    exact ⟨_, rfl, rfl⟩
  | program =>
    refine thenPure Program.reads (fun p => ⟨rfl, rfl⟩) fun a bs h => ?_
    obtain ⟨type, rfl⟩ := h
    cases a <;> cases type
    exact ⟨_, rfl, rfl⟩
  | _ =>
    refine (fail _).congr fun a bs => ⟨False.elim, fun h => ?_⟩
    obtain ⟨type, -⟩ := h
    cases a <;> cases type

theorem OutputAction.length_body (a : OutputAction) : a.body.length = a.bodySize := by
  cases a with
  | program p => exact WireFormat.length_encode p
  | _ => rfl

theorem OutputCommand.reads : (Wire.decoder : Decoder OutputCommand).Reads (.exact Wire.encode) := by
  refine toExact (andThen OutputHeader.reads fun h => bind (OutputAction.reads h.type) fun _ =>
    pure _) ?_ ?_
  · exact fun c => ⟨c.header, _, rfl, c.action, _, [], (List.append_nil _).symm, ⟨rfl, rfl⟩, rfl, rfl⟩
  · intro _ _ h
    obtain ⟨⟨type, index⟩, _, rfl, action, _, _, rfl, ⟨rfl, rfl⟩, rfl, rfl⟩ := h
    rw [List.append_nil]
    rfl

instance : WireFormat OutputCommand := .ofExact OutputCommand.reads fun c => by
  rw [Wire.encode, instWireOutputCommand, List.length_append, WireFormat.length_encode,
    OutputAction.length_body]
  rfl

theorem Identity.reads : (Wire.decoder : Decoder Identity).Reads (.exact Wire.encode) := by
  refine toExact (andThen byte fun _ => andThen byte fun _ => andThen byte fun _ =>
    andThen byte fun _ => andThen byte fun _ => andThen byte fun _ => andThen word fun _ =>
    andThen word fun _ => andThen word fun _ => andThen word fun _ => andThen byte fun _ =>
    pure _) ?_ ?_
  · intro i
    repeat refine ⟨_, _, rfl, ?_⟩
    exact ⟨rfl, rfl⟩
  · simp only [forall_exists_index, and_imp]
    intros
    subst_vars
    simp [Wire.encode]

instance : WireFormat Identity := .ofExact Identity.reads fun _ => rfl

theorem AddressChange.reads : (Wire.decoder : Decoder AddressChange).Reads (.exact Wire.encode) := by
  refine toExact (andThen word fun _ => andThen word fun _ => pure _) ?_ ?_
  · exact fun a => ⟨_, _, rfl, _, [], (List.append_nil _).symm, rfl, rfl⟩
  · intro _ _ h
    obtain ⟨deviceId, _, rfl, address, _, rfl, rfl, rfl⟩ := h
    simp [Wire.encode]

instance : WireFormat AddressChange := .ofExact AddressChange.reads fun _ => rfl

/-! ## Configuration records -/

/-- The bytes stand for what follows an output header. Whether a sensor's interrupt is used may be
said by any byte, as long as it is zero only for no. -/
def OutputSetup.Spells : Format OutputSetup
  | .mpr121 irq useInterrupt thresholds, bs =>
    ∃ b : UInt8, useInterrupt = (b != 0) ∧ bs = irq :: b :: thresholds.toList
  | s, bs => bs = s.body

theorem OutputSetup.spells_body (s : OutputSetup) : Spells s s.body := by
  cases s with
  | mpr121 irq useInterrupt thresholds =>
    exact ⟨if useInterrupt then 1 else 0, by cases useInterrupt <;> rfl, rfl⟩
  | _ => exact rfl

theorem OutputSetup.length_of_spells {s : OutputSetup} {bs : Bytes} (h : Spells s bs) :
    bs.length = s.bodySize := by
  cases s with
  | mpr121 irq useInterrupt thresholds =>
    obtain ⟨b, -, rfl⟩ := h
    simp [bodySize, thresholds.length_toList]
  | rgb pins values =>
    obtain rfl : bs = _ := h
    simp [body, bodySize, pins.length_toList, values.length_toList]
  | program values =>
    obtain rfl : bs = _ := h
    simp [body, bodySize, values.length_toList, List.length_flatMap, List.map_const']
  | _ => obtain rfl : bs = _ := h; rfl

theorem OutputSetup.reads (t : OutputType) :
    (OutputSetup.bodyDecoder t).Reads fun s bs => s.type = t ∧ Spells s bs := by
  cases t with
  | value =>
    refine (andThen byte fun _ => andThen signed fun _ => pure _).congr fun s bs => ⟨?_, ?_⟩
    · intro h
      obtain ⟨pin, _, rfl, v, _, rfl, rfl, rfl⟩ := h
      exact ⟨rfl, by simp [Spells, body]⟩
    · intro h
      obtain ⟨h, spells⟩ := h
      cases s <;> cases h
      exact ⟨_, _, spells, _, [], (List.append_nil _).symm, rfl, rfl⟩
  | rgb =>
    refine (andThen (row 3) fun _ => andThen (row 3) fun _ => pure _).congr fun s bs => ⟨?_, ?_⟩
    · intro h
      obtain ⟨pins, _, rfl, values, _, rfl, rfl, rfl⟩ := h
      exact ⟨rfl, by simp [Spells, body]⟩
    · intro h
      obtain ⟨h, spells⟩ := h
      cases s <;> cases h
      exact ⟨_, _, spells, _, [], (List.append_nil _).symm, rfl, rfl⟩
  | program =>
    refine thenPure (rowOf signed 12) (fun values => ⟨rfl, rfl⟩) fun s bs h => ?_
    obtain ⟨type, spells⟩ := h
    cases s <;> cases type
    exact ⟨_, rfl, spells⟩
  | pixels =>
    refine (andThen byte fun _ => andThen byte fun _ => andThen word fun _ => andThen byte fun _ =>
      pure _).congr fun s bs => ⟨?_, ?_⟩
    · intro h
      obtain ⟨clock, _, rfl, data, _, rfl, n, _, rfl, t, _, rfl, rfl, rfl⟩ := h
      exact ⟨rfl, by simp [Spells, body]⟩
    · intro h
      obtain ⟨h, spells⟩ := h
      cases s <;> cases h
      exact ⟨_, _, spells, _, _, rfl, _, _, rfl, _, _, rfl, rfl, rfl⟩
  | mpr121 =>
    refine (andThen byte fun _ => andThen byte fun _ => andThen (row 12) fun _ =>
      pure _).congr fun s bs => ⟨?_, ?_⟩
    · intro h
      obtain ⟨irq, _, rfl, b, _, rfl, thresholds, _, rfl, rfl, rfl⟩ := h
      exact ⟨rfl, b, rfl, by simp⟩
    · intro h
      obtain ⟨h, spells⟩ := h
      cases s <;> cases h
      obtain ⟨b, rfl, rfl⟩ := spells
      exact ⟨_, _, rfl, b, _, rfl, _, [], (List.append_nil _).symm, rfl, rfl⟩
  | rs485 =>
    refine (andThen byte fun _ => andThen byte fun _ => andThen byte fun _ =>
      pure _).congr fun s bs => ⟨?_, ?_⟩
    · intro h
      obtain ⟨recv, _, rfl, xmit, _, rfl, enable, _, rfl, rfl, rfl⟩ := h
      exact ⟨rfl, rfl⟩
    · intro h
      obtain ⟨h, spells⟩ := h
      cases s <;> cases h
      exact ⟨_, _, spells, _, _, rfl, _, _, rfl, rfl, rfl⟩
  | xbee =>
    refine (andThen byte fun _ => andThen byte fun _ => pure _).congr fun s bs => ⟨?_, ?_⟩
    · intro h
      obtain ⟨recv, _, rfl, xmit, _, rfl, rfl, rfl⟩ := h
      exact ⟨rfl, rfl⟩
    · intro h
      obtain ⟨h, spells⟩ := h
      cases s <;> cases h
      exact ⟨_, _, spells, _, _, rfl, rfl, rfl⟩

/-- The bytes stand for an output of a module. -/
def OutputConfig.Spells : Format OutputConfig := fun o bs =>
  ∃ setup, bs = Wire.encode o.header ++ setup ∧ OutputSetup.Spells o.setup setup

instance : WireFormat OutputConfig where
  Spells := OutputConfig.Spells
  reads := by
    refine (andThen OutputHeader.reads fun h => bind (OutputSetup.reads h.type) fun _ =>
      pure _).congr fun o bs => ⟨?_, ?_⟩
    · intro h
      obtain ⟨⟨type, index⟩, _, rfl, setup, bs, _, rfl, ⟨rfl, spells⟩, rfl, rfl⟩ := h
      exact ⟨bs, by rw [List.append_nil]; rfl, spells⟩
    · intro h
      obtain ⟨bs, rfl, spells⟩ := h
      exact ⟨o.header, bs, rfl, o.setup, bs, [], (List.append_nil _).symm, ⟨rfl, spells⟩, rfl, rfl⟩
  spells_encode o := ⟨_, rfl, o.setup.spells_body⟩
  length_eq := by
    intro o _ h
    obtain ⟨setup, rfl, spells⟩ := h
    rw [List.length_append, WireFormat.length_encode, OutputSetup.length_of_spells spells]
    rfl

/-- The bytes stand for what follows the tag of a record. -/
def ConfigRecord.SpellsBody : Format ConfigRecord
  | .output o, bs => WireFormat.Spells o bs
  | r, bs => bs = r.body

theorem ConfigRecord.reads_body (t : ConfigType) :
    (ConfigRecord.bodyDecoder t).Reads fun r bs => r.type = t ∧ SpellsBody r bs := by
  cases t with
  | header =>
    refine thenPure ConfigHeader.reads (fun h => ⟨rfl, rfl⟩) fun r bs h => ?_
    obtain ⟨type, spells⟩ := h
    cases r <;> cases type
    exact ⟨_, rfl, spells⟩
  | output t =>
    refine (bind (WireFormat.reads (α := OutputConfig)) fun o => ite (p := o.setup.type = t)
      (pure _) (fail _)).congr fun r bs => ⟨?_, ?_⟩
    · intro h
      obtain ⟨o, bs₁, bs₂, rfl, spells, h⟩ := h
      split at h
      · rename_i type
        obtain ⟨rfl, rfl⟩ := h
        exact ⟨congrArg _ type, by rwa [List.append_nil]⟩
      · exact h.elim
    · intro h
      obtain ⟨h, spells⟩ := h
      cases r with
      | output o =>
        refine ⟨o, bs, [], (List.append_nil _).symm, spells, ?_⟩
        rw [if_pos (ConfigType.output.inj h)]
        exact ⟨rfl, rfl⟩
      | _ => cases h
  | address =>
    refine thenPure word (fun a => ⟨rfl, rfl⟩) fun r bs h => ?_
    obtain ⟨type, spells⟩ := h
    cases r <;> cases type
    exact ⟨_, rfl, spells⟩
  | deviceId =>
    refine thenPure word (fun d => ⟨rfl, rfl⟩) fun r bs h => ?_
    obtain ⟨type, spells⟩ := h
    cases r <;> cases type
    exact ⟨_, rfl, spells⟩
  | baud =>
    refine thenPure byte (fun b => ⟨rfl, rfl⟩) fun r bs h => ?_
    obtain ⟨type, spells⟩ := h
    cases r <;> cases type
    exact ⟨_, rfl, spells⟩

theorem ConfigRecord.spellsBody_body (r : ConfigRecord) : SpellsBody r r.body := by
  cases r with
  | output o => exact WireFormat.spells_encode o
  | _ => exact rfl

theorem ConfigRecord.length_of_spellsBody {r : ConfigRecord} {bs : Bytes} (h : SpellsBody r bs) :
    bs.length = r.bodySize := by
  cases r with
  | output o => exact WireFormat.length_eq (α := OutputConfig) h
  | _ => obtain rfl : bs = _ := h; rfl

/-- The bytes stand for a record. -/
def ConfigRecord.Spells : Format ConfigRecord := fun r bs =>
  ∃ body, bs = configStart :: r.type.code :: body ∧ r.SpellsBody body

instance : WireFormat ConfigRecord where
  Spells := ConfigRecord.Spells
  reads := by
    refine (andThen byte fun _ => require (andThen byte fun _ => lookup fun t =>
      ConfigRecord.reads_body t)).congr fun r bs => ⟨?_, ?_⟩
    · intro h
      obtain ⟨_, _, rfl, rfl, code, body, rfl, t, h, rfl, spells⟩ := h
      exact ⟨body, by simp [ConfigType.code_eq_of_ofCode? h], spells⟩
    · intro h
      obtain ⟨body, rfl, spells⟩ := h
      exact ⟨_, _, rfl, rfl, _, _, rfl, _, ConfigType.ofCode?_code _, rfl, spells⟩
  spells_encode r := ⟨_, rfl, r.spellsBody_body⟩
  length_eq := by
    intro r _ h
    obtain ⟨body, rfl, spells⟩ := h
    rw [List.length_cons, List.length_cons, ConfigRecord.length_of_spellsBody spells]
    show r.bodySize + 1 + 1 = 2 + r.bodySize
    omega

/-- A record is never without bytes, so that records can be told apart one after the other. -/
theorem ConfigRecord.size_pos (r : ConfigRecord) : 0 < Wire.size r := by
  show 0 < 2 + r.bodySize
  omega

/-! ## Bodies -/

namespace Body

/-- The bytes stand for a body. -/
def Spells : Format Body
  | dumpConfig rs, bs => Format.all WireFormat.Spells rs bs
  | body, bs => bs = body.encode

theorem spells_encode (body : Body) : Spells body body.encode := by
  cases body with
  | dumpConfig rs => exact WireFormat.all_spells_flatMap rs
  | _ => exact rfl

theorem length_encode (body : Body) : body.encode.length = body.wireSize := by
  cases body with
  | output c => exact WireFormat.length_encode c
  | pollRequest => rfl
  | pollResponse i => exact WireFormat.length_encode i
  | setAddress a => exact WireFormat.length_encode a
  | dumpConfig rs => exact WireFormat.length_flatMap_encode rs

theorem length_of_spells {body : Body} {bs : Bytes} (h : Spells body bs) :
    bs.length = body.wireSize := by
  cases body with
  | dumpConfig rs => exact WireFormat.length_of_all_spells h
  | _ => obtain rfl : bs = _ := h; exact length_encode _

/-- A value that has to take up the whole payload. -/
theorem exactly_eq_ok_iff {α : Type} [Wire α] [WireFormat α] {length : UInt8} {payload : Bytes}
    {a : α} : exactly length payload = .ok a ↔ WireFormat.Spells a payload := by
  unfold exactly
  rw [except_bind_eq_ok]
  constructor
  · intro h
    obtain ⟨⟨a', used⟩, h, e⟩ := h
    simp only at e
    split at e
    · rename_i len
      cases e
      exact WireFormat.spells_of_decodeAt h len.symm
    · cases e
  · exact fun spells => ⟨_, WireFormat.decodeAt_of_spells spells, if_pos rfl⟩

/-- A body is read exactly from bytes that stand for it, under a header of its type. -/
theorem decode_eq_ok_iff {header : MessageHeader} {payload : Bytes} {body : Body} :
    decode header payload = .ok body ↔ body.type = header.type ∧ Spells body payload := by
  obtain ⟨crc, version, length, type, flags, address⟩ := header
  cases type with
  | output =>
    refine except_map_eq_ok.trans ⟨?_, ?_⟩
    · intro h
      obtain ⟨c, h, rfl⟩ := h
      exact ⟨rfl, exactly_eq_ok_iff.mp h⟩
    · intro h
      obtain ⟨type, spells⟩ := h
      cases body <;> cases type
      exact ⟨_, exactly_eq_ok_iff.mpr spells, rfl⟩
  | poll =>
    simp only [decode]
    constructor
    · intro h
      split at h
      · rename_i len
        cases h
        exact ⟨rfl, List.eq_nil_of_length_eq_zero len⟩
      · split at h
        · rename_i len
          obtain ⟨⟨i, used⟩, hd, e⟩ := except_bind_eq_ok.mp h
          cases e
          have size := WireFormat.size_of_decodeAt hd
          exact ⟨rfl, WireFormat.spells_of_decodeAt hd (len.trans size.symm)⟩
        · cases h
    · intro h
      obtain ⟨type, spells⟩ := h
      cases body <;> cases type
      · obtain rfl : payload = [] := spells
        rfl
      · rename_i i
        have spells : WireFormat.Spells i payload := spells
        have len : payload.length = Identity.wireSize := WireFormat.length_eq spells
        have some : payload.length ≠ 0 := by rw [len]; decide
        rw [if_neg some, if_pos len, except_bind_eq_ok]
        exact ⟨_, WireFormat.decodeAt_of_spells spells, rfl⟩
  | setAddress =>
    refine except_map_eq_ok.trans ⟨?_, ?_⟩
    · intro h
      obtain ⟨c, h, rfl⟩ := h
      exact ⟨rfl, exactly_eq_ok_iff.mp h⟩
    · intro h
      obtain ⟨type, spells⟩ := h
      cases body <;> cases type
      exact ⟨_, exactly_eq_ok_iff.mpr spells, rfl⟩
  | dumpConfig =>
    refine except_bind_eq_ok.trans ⟨?_, ?_⟩
    · intro h
      obtain ⟨⟨rs, c⟩, h, e⟩ := h
      cases e
      exact ⟨rfl, ((WireFormat.decodeAll_eq_ok_iff ConfigRecord.size_pos).mp h).1⟩
    · intro h
      obtain ⟨type, spells⟩ := h
      cases body <;> cases type
      exact ⟨_, (WireFormat.decodeAll_eq_ok_iff ConfigRecord.size_pos).mpr ⟨spells, rfl⟩, rfl⟩

end Body

end LightLink
