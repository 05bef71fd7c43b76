import Mathlib.Data.List.Flatten
import Mathlib.Data.Set.List
import LightLink.Config.Description
import LightLink.Proofs.Message.Responses

/-!
# A configuration in parts

A module sends its configuration as records, some in each message. The header counts the outputs, so
a configuration is put together again exactly if no record is missing.

* `ModuleConfig.ofRecords_eq_ok_iff`: the records that make up a configuration are those it lists;
* `ModuleConfig.ofOutputs_eq_ok_iff`: the configuration that is built from a header and outputs;
* `ModuleConfig.records_correspond`: which lists of records make up a configuration, and which
  outputs can be counted;
* `ModuleConfig.eq_of_sublist`: some of its records, in order, make up no other configuration;
* `DumpPart`: a part of a configuration on its way;
* `Response.ofFragments_arrived`: which parts have to arrive.
-/

namespace LightLink

/-! ## Records -/

namespace ModuleConfig

theorem outputsOf_eq_ok_iff {rs : List ConfigRecord} {outputs : List OutputConfig} :
    outputsOf rs = .ok outputs ↔ rs = outputs.map .output := by
  induction rs generalizing outputs with
  | nil => cases outputs <;> simp [outputsOf]
  | cons r rs ih =>
    cases r with
    | output o =>
      rw [outputsOf, except_map_eq_ok]
      constructor
      · intro ⟨rest, is_rest, e⟩
        rw [← e, ih.mp is_rest]
        rfl
      · intro e
        cases outputs with
        | nil => cases e
        | cons o' rest =>
          obtain ⟨same, is_rest⟩ := List.cons.inj e
          cases same
          exact ⟨rest, ih.mpr is_rest, rfl⟩
    | _ => cases outputs <;> simp [outputsOf]

/-- The records that make up a configuration are those that it lists. -/
theorem ofRecords_eq_ok_iff {rs : List ConfigRecord} {c : ModuleConfig} :
    ofRecords rs = .ok c ↔ rs = c.toRecords := by
  constructor
  · intro h
    unfold ofRecords at h
    split at h
    · obtain ⟨outputs, is_outputs, h⟩ := except_bind_eq_ok.mp h
      split at h
      · cases h
        rw [outputsOf_eq_ok_iff.mp is_outputs]
        rfl
      · cases h
    · cases h
  · intro h
    have is_outputs : outputsOf (c.outputs.map .output) = .ok c.outputs :=
      outputsOf_eq_ok_iff.mpr rfl
    rw [h, toRecords, ofRecords, is_outputs]
    exact dif_pos c.numOutputs_eq

/-- What is built from a header and outputs has these outputs, and this header but for the number
of them. -/
theorem ofOutputs_eq_ok_iff {header : ConfigHeader} {outputs : List OutputConfig}
    {c : ModuleConfig} : ofOutputs header outputs = .ok c ↔
      c.outputs = outputs ∧ c.header = { header with numOutputs := c.header.numOutputs } := by
  unfold ofOutputs ofOutputs?
  by_cases few : outputs.length ≤ maxOutputs
  · rw [dif_pos few]
    constructor
    · intro built
      obtain rfl := Except.ok.inj built
      exact ⟨rfl, rfl⟩
    · obtain ⟨header', outputs', count⟩ := c
      rintro ⟨rfl, same⟩
      -- The number is a byte, so that it is the byte of its value.
      have number : UInt8.ofNat outputs'.length = header'.numOutputs := by
        rw [← count, UInt8.ofNat_toNat]
      simp only [number]
      congr 2
      exact same.symm
  · rw [dif_neg few]
    refine iff_of_false nofun fun ⟨same, _⟩ => few ?_
    rw [← same, ← c.numOutputs_eq]
    exact Nat.le_of_lt_succ c.header.numOutputs.toNat_lt

/-- Outputs can be counted in a header if there are at most 255 of them. -/
theorem exists_ofOutputs_iff {header : ConfigHeader} {outputs : List OutputConfig} :
    (∃ c, ofOutputs header outputs = .ok c) ↔ outputs.length ≤ 255 := by
  unfold ofOutputs ofOutputs?
  by_cases few : outputs.length ≤ maxOutputs
  · rw [dif_pos few]
    exact iff_of_true ⟨_, rfl⟩ few
  · rw [dif_neg few]
    exact iff_of_false nofun few

/-- Records make up a configuration if they are a header, then as many outputs as it counts. -/
theorem exists_ofRecords_iff {rs : List ConfigRecord} : (∃ c, ofRecords rs = .ok c) ↔
    ∃ header rest, rs = .header header :: rest ∧ (∀ r ∈ rest, ∃ o, .output o = r) ∧
      rest.length = header.numOutputs.toNat := by
  have outputs_iff (rest : List ConfigRecord) :
      (∀ r ∈ rest, ∃ o, ConfigRecord.output o = r) ↔
        ∃ outputs : List OutputConfig, outputs.map .output = rest :=
    (Set.ext_iff.mp (Set.range_list_map ConfigRecord.output) rest).symm
  simp only [ofRecords_eq_ok_iff, outputs_iff]
  constructor
  · rintro ⟨c, rfl⟩
    exact ⟨c.header, _, rfl, ⟨c.outputs, rfl⟩, by rw [List.length_map, c.numOutputs_eq]⟩
  · rintro ⟨header, _, rfl, ⟨outputs, rfl⟩, count⟩
    rw [List.length_map] at count
    exact ⟨⟨header, outputs, count.symm⟩, rfl⟩

/-- Lists of records and configurations correspond. A list makes up a configuration exactly if it is
a header and then as many outputs as this counts, and then it is the list of the configuration. With
a given header a configuration is built from any outputs that can be counted, and its header differs
from the given one only in their number; its records make it up again. -/
theorem records_correspond :
    (∀ rs : List ConfigRecord, (∃ c, ofRecords rs = .ok c) ↔
      ∃ header rest, rs = .header header :: rest ∧ (∀ r ∈ rest, ∃ o, .output o = r) ∧
        rest.length = header.numOutputs.toNat) ∧
      (∀ (rs : List ConfigRecord) (c : ModuleConfig), ofRecords rs = .ok c ↔ c.toRecords = rs) ∧
      (∀ (header : ConfigHeader) (outputs : List OutputConfig),
        (∃ c, ofOutputs header outputs = .ok c) ↔ outputs.length ≤ 255) ∧
      (∀ (header : ConfigHeader) (outputs : List OutputConfig) (c : ModuleConfig),
        ofOutputs header outputs = .ok c ↔ c.outputs = outputs ∧
          c.header = { header with numOutputs := c.header.numOutputs } ∧
          c.header.numOutputs.toNat = outputs.length) ∧
      ∀ c : ModuleConfig, ofRecords c.toRecords = .ok c := by
  refine ⟨fun rs => exists_ofRecords_iff, fun rs c => ofRecords_eq_ok_iff.trans eq_comm,
    fun header outputs => exists_ofOutputs_iff, fun header outputs c => ?_,
    fun c => ofRecords_eq_ok_iff.mpr rfl⟩
  rw [ofOutputs_eq_ok_iff]
  constructor
  · rintro ⟨rfl, same⟩
    exact ⟨rfl, same, c.numOutputs_eq⟩
  · rintro ⟨outputs_eq, same, -⟩
    exact ⟨outputs_eq, same⟩

/-- Of the records of a configuration, some in their order make up no other one: its header comes
first, and as many outputs follow it as it counts. -/
theorem eq_of_sublist {c c' : ModuleConfig} (h : c'.toRecords.Sublist c.toRecords) : c' = c := by
  obtain ⟨header, outputs, count⟩ := c
  obtain ⟨header', outputs', count'⟩ := c'
  unfold toRecords at h
  cases h with
  | cons _ among_outputs =>
    obtain ⟨o, -, is_output⟩ := List.mem_map.mp (among_outputs.subset (.head _))
    cases is_output
  | cons_cons _ h =>
    have length : (outputs'.map ConfigRecord.output).length =
        (outputs.map ConfigRecord.output).length := by
      rw [List.length_map, List.length_map, ← count, ← count']
    have same := (List.map_inj_right fun _ _ => ConfigRecord.output.inj).mp (h.eq_of_length length)
    cases same
    rfl

end ModuleConfig

/-! ## Parts -/

/-- A part of a configuration on its way: a message that carries records, and whether it arrives.
Two parts may be the same but for this. -/
structure DumpPart where
  address : UInt16
  flags : Flags
  records : List ConfigRecord
  /-- The message as it is sent. -/
  bytes : Bytes
  encode_eq : (⟨address, flags, .dumpConfig records⟩ : Message).encode = .ok bytes
  arrives : Bool

namespace DumpPart

/-- A part that carries these records, which have to fit in a message. -/
def ofRecords (address : UInt16) (flags : Flags) (records : List ConfigRecord) (arrives : Bool)
    (fits : (⟨address, flags, .dumpConfig records⟩ : Message).wireSize ≤ maxMessageSize) :
    DumpPart where
  address := address
  flags := flags
  records := records
  bytes := _
  encode_eq := Message.encode_eq_ok_iff.mpr ⟨fits, rfl⟩
  arrives := arrives

/-- What arrives, in the order in which it was sent. -/
def arrived (dump : List DumpPart) : List DumpPart := dump.filter arrives

/-- Nothing is missing of what arrives exactly if all arrives that carries something. -/
theorem flatMap_arrived_iff {dump : List DumpPart} :
    (arrived dump).flatMap records = dump.flatMap records ↔
      ∀ p ∈ dump, p.records ≠ [] → p.arrives = true := by
  induction dump with
  | nil => exact iff_of_true rfl nofun
  | cons p dump ih =>
    rw [List.forall_mem_cons, ← ih, arrived, List.filter_cons, List.flatMap_cons]
    by_cases arrives : p.arrives = true
    · rw [if_pos arrives, List.flatMap_cons, List.append_cancel_left_eq]
      exact ⟨fun rest => ⟨fun _ => arrives, rest⟩, fun h => h.2⟩
    · rw [if_neg arrives]
      constructor
      · intro all
        have sublist := List.filter_sublist (p := DumpPart.arrives) (l := dump)
        have le := (sublist.flatMap records).length_le
        have length := congrArg List.length all
        rw [List.length_append] at length
        have none : p.records = [] := List.eq_nil_of_length_eq_zero (by omega)
        refine ⟨fun some_record => absurd none some_record, ?_⟩
        rw [none, List.nil_append] at all
        exact all
      · intro ⟨first, rest⟩
        have none : p.records = [] := by
          refine Decidable.byContradiction fun some_record => arrives (first some_record)
        rw [none, List.nil_append]
        exact rest

/-- What parts say together is a configuration exactly if they carry its records. -/
theorem ofFragments_eq_config_iff {parts : List DumpPart} {c : ModuleConfig} :
    Response.ofFragments (parts.map bytes) = .ok (.config c) ↔
      parts.flatMap records = c.toRecords := by
  let message (p : DumpPart) : Message := ⟨p.address, p.flags, .dumpConfig p.records⟩
  have read : Response.messagesOf (parts.map bytes) = .ok (parts.map message) :=
    Response.messagesOf_map fun p _ => p.encode_eq
  unfold Response.ofFragments
  rw [read]
  show Response.ofMessages (parts.map message) = _ ↔ _
  by_cases some_part : parts = []
  · subst some_part
    exact iff_of_false nofun nofun
  · rw [Response.ofMessages_dumps some_part fun p _ => rfl, except_map_eq_ok]
    simp only [Response.config.injEq, exists_eq_right]
    exact ModuleConfig.ofRecords_eq_ok_iff

end DumpPart

/-- A configuration whose records are sent in any number of parts, some of them without records, is
put together again exactly if all parts that carry records arrive; if one is lost, what arrives is
taken for no other configuration either. -/
theorem Response.ofFragments_arrived (c : ModuleConfig) (dump : List DumpPart)
    (cut : dump.flatMap DumpPart.records = c.toRecords) (c' : ModuleConfig) :
    Response.ofFragments ((DumpPart.arrived dump).map DumpPart.bytes) = .ok (.config c') ↔
      (∀ p ∈ dump, p.records ≠ [] → p.arrives = true) ∧ c' = c := by
  rw [DumpPart.ofFragments_eq_config_iff, ← DumpPart.flatMap_arrived_iff, cut]
  constructor
  · intro records
    have sublist := (List.filter_sublist (p := DumpPart.arrives) (l := dump)).flatMap
      DumpPart.records
    have same : c' = c := by
      apply ModuleConfig.eq_of_sublist
      rw [← records, ← cut]
      exact sublist
    exact ⟨records.trans (congrArg _ same), same⟩
  · intro ⟨records, same⟩
    rw [records, same]

/-- A configuration of two outputs that are the same, in four parts: it does not matter whether the
part without records arrives, but one of the two outputs does not stand for both. -/
theorem Response.ofFragments_arrived_twins :
    let o : OutputConfig := ⟨0, .value 5 300⟩
    let c : ModuleConfig := ⟨⟨configMagic, 2, 3, ⟨48⟩, 2, 0, 1, 128⟩, [o, o], rfl⟩
    let dump (last : Bool) : List DumpPart :=
      [.ofRecords 128 .response [.header c.header] true (by decide),
        .ofRecords 128 .response [] false (by decide),
        .ofRecords 128 .response [.output o] true (by decide),
        .ofRecords 128 .response [.output o] last (by decide)]
    (∀ last, (dump last).flatMap DumpPart.records = c.toRecords) ∧
      Response.ofFragments ((DumpPart.arrived (dump true)).map DumpPart.bytes) = .ok (.config c) ∧
      ∀ c', Response.ofFragments ((DumpPart.arrived (dump false)).map DumpPart.bytes) ≠
        .ok (.config c') := by
  intro o c dump
  have cut : ∀ last, (dump last).flatMap DumpPart.records = c.toRecords := fun _ => rfl
  refine ⟨cut, (ofFragments_arrived c (dump true) (cut true) c).mpr ⟨?_, rfl⟩, fun c' read => ?_⟩
  · intro p mem some_record
    simp only [dump, List.mem_cons, List.not_mem_nil, or_false] at mem
    rcases mem with rfl | rfl | rfl | rfl
    · rfl
    · exact absurd rfl some_record
    · rfl
    · rfl
  · have all := ((ofFragments_arrived c (dump false) (cut false) c').mp read).1
    have last : false = true :=
      all (.ofRecords 128 .response [.output o] false (by decide)) (by simp [dump]) (by nofun)
    cases last

end LightLink
