import Mathlib.Data.List.Basic
import LightLink.Config.Description
import LightLink.Proofs.Message.Formats
import LightLink.Proofs.Session.Written

/-!
# Records behind which a terminator stands

A configuration record is written with a terminator behind it, and its own bytes are not escaped. So
a terminator may be found in what is written before the one that was put there: in the record, or
across its end.

* `beforeTerminator`: what a receiver takes that cuts its input at the first terminator;
* `beforeTerminator_eq_some_iff`: it is what stands before the first terminator;
* `Clear`: bytes that a terminator can be put behind, and `beforeTerminator_append_iff`: these are
  the ones that such a receiver takes whole;
* `ConfigRecord.clear_encode`: which fields of a record that depends on;
* `Session.sendRecord_delimited`: what is written for a record, and what a receiver makes of it.
-/

namespace LightLink

/-! ## A receiver -/

/-- What stands before the first terminator of an input. -/
def beforeTerminator : Bytes → Option Bytes
  | [] => none
  | b :: rest =>
    if terminator <+: b :: rest then some [] else (beforeTerminator rest).map (b :: ·)

/-- A terminator stands behind `cut`, and none before that. -/
theorem beforeTerminator_eq_some_iff {input cut : Bytes} :
    beforeTerminator input = some cut ↔ cut ++ terminator <+: input ∧
      ∀ front, front ++ terminator <+: input → cut.length ≤ front.length := by
  induction input generalizing cut with
  | nil =>
    refine ⟨nofun, fun ⟨stands, _⟩ => ?_⟩
    cases (List.append_eq_nil_iff.mp (List.prefix_nil.mp stands)).2
  | cons b rest ih =>
    unfold beforeTerminator
    split
    · rename_i here
      rw [Option.some.injEq]
      constructor
      · rintro rfl
        exact ⟨here, fun _ _ => Nat.zero_le _⟩
      · intro ⟨_, first⟩
        exact (List.eq_nil_of_length_eq_zero (Nat.le_zero.mp (first [] here))).symm
    · rename_i elsewhere
      rw [Option.map_eq_some_iff]
      constructor
      · rintro ⟨cut, found, rfl⟩
        obtain ⟨stands, first⟩ := ih.mp found
        refine ⟨(List.prefix_cons_inj b).mpr stands, fun front there => ?_⟩
        cases front with
        | nil => exact absurd there elsewhere
        | cons b' front =>
          exact Nat.succ_le_succ (first front (List.cons_prefix_cons.mp there).2)
      · intro ⟨stands, first⟩
        cases cut with
        | nil => exact absurd stands elsewhere
        | cons b' cut =>
          obtain ⟨rfl, behind⟩ := List.cons_prefix_cons.mp stands
          refine ⟨cut, ih.mpr ⟨behind, fun front there => ?_⟩, rfl⟩
          exact Nat.le_of_succ_le_succ
            (first (b' :: front) ((List.prefix_cons_inj b').mpr there))

/-- Where there is a terminator, there is a first one. -/
theorem exists_beforeTerminator {input : Bytes} (h : terminator <:+: input) :
    ∃ cut, beforeTerminator input = some cut := by
  induction input with
  | nil => cases List.infix_nil.mp h
  | cons b rest ih =>
    unfold beforeTerminator
    split
    · exact ⟨_, rfl⟩
    · rename_i elsewhere
      obtain ⟨cut, found⟩ := ih ((List.infix_cons_iff.mp h).resolve_left elsewhere)
      exact ⟨b :: cut, by rw [found]; rfl⟩

/-! ## Bytes that a terminator can be put behind -/

/-- The bytes do not end in a byte of the terminator and have no terminator in them. -/
def Clear (bytes : Bytes) : Prop := bytes.getLast? ≠ some 0xFE ∧ ¬ terminator <:+: bytes

instance (bytes : Bytes) : Decidable (Clear bytes) := inferInstanceAs (Decidable (_ ∧ _))

section Clear

variable {bytes : Bytes}

theorem eq_of_mem_terminator {b : UInt8} (h : b ∈ terminator) : b = 0xFE := by
  simpa [terminator] using h

/-- Behind bytes that are not clear, a terminator begins before their end. -/
theorem exists_front (h : ¬ Clear bytes) :
    ∃ front, front ++ terminator <+: bytes ++ terminator ∧ front.length < bytes.length := by
  by_cases last : bytes.getLast? = some 0xFE
  · obtain ⟨front, rfl⟩ := List.getLast?_eq_some_iff.mp last
    refine ⟨front, ⟨[0xFE], ?_⟩, by rw [List.length_append]; exact Nat.lt_succ_self _⟩
    rw [List.append_assoc, List.append_assoc]
    rfl
  · have within : terminator <:+: bytes := Classical.byContradiction fun clear => h ⟨last, clear⟩
    obtain ⟨front, behind, rfl⟩ := within
    refine ⟨front, ⟨behind ++ terminator, List.append_assoc .. ▸ rfl⟩, ?_⟩
    rw [List.length_append, List.length_append]
    show _ < front.length + 4 + _
    omega

/-- Behind clear bytes, none does. -/
theorem Clear.le_of_prefix (h : Clear bytes) {front : Bytes}
    (stands : front ++ terminator <+: bytes ++ terminator) : bytes.length ≤ front.length := by
  refine Nat.le_of_not_lt fun lt => ?_
  have begins : front <+: bytes := List.prefix_of_prefix_length_le
    ((List.prefix_append ..).trans stands) (List.prefix_append ..) (Nat.le_of_lt lt)
  obtain ⟨rest, rfl⟩ := begins
  rw [List.append_assoc, List.prefix_append_right_inj] at stands
  obtain ⟨last, within⟩ := h
  have rest_ne : rest ≠ [] := by
    rintro rfl
    rw [List.append_nil] at lt
    exact Nat.lt_irrefl _ lt
  -- What is left of the bytes is either long enough for a terminator or a part of one.
  by_cases long : terminator.length ≤ rest.length
  · have in_rest : terminator <+: rest :=
      List.prefix_of_prefix_length_le stands (List.prefix_append ..) long
    exact within (in_rest.isInfix.trans (List.suffix_append ..).isInfix)
  · have of_terminator : rest <+: terminator :=
      List.prefix_of_prefix_length_le (List.prefix_append ..) stands (Nat.le_of_not_le long)
    have ends := eq_of_mem_terminator (of_terminator.subset (List.getLast_mem rest_ne))
    rw [List.getLast?_append_of_ne_nil _ rest_ne, List.getLast?_eq_some_getLast rest_ne,
      ends] at last
    exact last rfl

/-- A receiver takes bytes whole that a terminator was put behind exactly if they are clear. -/
theorem beforeTerminator_append_iff :
    beforeTerminator (bytes ++ terminator) = some bytes ↔ Clear bytes := by
  rw [beforeTerminator_eq_some_iff]
  constructor
  · intro ⟨_, first⟩
    refine Classical.byContradiction fun unclear => ?_
    obtain ⟨front, stands, lt⟩ := exists_front unclear
    exact Nat.not_le_of_lt lt (first front stands)
  · exact fun clear => ⟨List.prefix_rfl, fun _ stands => clear.le_of_prefix stands⟩

/-- In any case it takes no more than them. -/
theorem exists_beforeTerminator_append (bytes : Bytes) :
    ∃ cut, beforeTerminator (bytes ++ terminator) = some cut ∧ cut <+: bytes := by
  obtain ⟨cut, found⟩ := exists_beforeTerminator (List.suffix_append bytes terminator).isInfix
  obtain ⟨stands, first⟩ := beforeTerminator_eq_some_iff.mp found
  exact ⟨cut, found, List.prefix_of_prefix_length_le ((List.prefix_append ..).trans stands)
    (List.prefix_append ..) (first bytes List.prefix_rfl)⟩

/-- A byte in front that is none of the terminator's makes no difference. -/
theorem clear_cons {b : UInt8} (other : b ≠ 0xFE) : Clear (b :: bytes) ↔ Clear bytes := by
  have here : ¬ terminator <+: b :: bytes := fun begins =>
    other (List.cons_prefix_cons.mp begins).1.symm
  unfold Clear
  rw [List.infix_cons_iff, or_iff_right here]
  cases bytes with
  | nil => exact and_congr_left' (iff_of_true (fun e => other (Option.some.inj e)) nofun)
  | cons b' bytes => rw [List.getLast?_cons_cons]

/-- Of bytes that are no more than a terminator has, the last one decides. -/
theorem clear_iff_of_length_le (short : bytes.length ≤ 4) :
    Clear bytes ↔ bytes.getLast? ≠ some 0xFE := by
  refine ⟨And.left, fun last => ⟨last, fun within => last ?_⟩⟩
  rw [← within.eq_of_length_le short]
  rfl

end Clear

/-! ## Records -/

namespace ConfigRecord

/-- The fields of a record are such that a terminator can be put behind it: of a single setting the
most significant byte decides. -/
def Delimited : ConfigRecord → Prop
  | header h => h.address.toNat / 256 ≠ 0xFE ∧ ¬ terminator <:+: Wire.encode h
  | output o => Clear (o.index :: o.setup.body)
  | address a => a.toNat / 256 ≠ 0xFE
  | deviceId d => d.toNat / 256 ≠ 0xFE
  | baud b => b.bps ≠ 304800

/-- No config type has a byte of the terminator as its code. -/
theorem code_ne (t : ConfigType) : t.code ≠ 0xFE := by
  cases t with
  | output t => cases t <;> decide
  | header | address | deviceId | baud => decide

/-- The high byte of a word comes last. -/
theorem getLast?_append_little16 (bytes : Bytes) (w : UInt16) :
    (bytes ++ little16 w).getLast? = some 0xFE ↔ w.toNat / 256 = 0xFE := by
  have small := w.toNat_lt
  have high : (w / 256).toUInt8.toNat = w.toNat / 256 := by
    rw [UInt16.toNat_toUInt8, UInt16.toNat_div]
    show w.toNat / 256 % 256 = _
    omega
  have last : (bytes ++ little16 w).getLast? = some (w / 256).toUInt8 :=
    List.getLast?_append_of_ne_nil _ nofun
  rw [last, ← high]
  exact Option.some_inj.trans UInt8.toNat_inj.symm

theorem clear_little16 (w : UInt16) : Clear (little16 w) ↔ w.toNat / 256 ≠ 0xFE :=
  (clear_iff_of_length_le (Nat.le_of_ble_eq_true rfl)).trans
    (not_congr (getLast?_append_little16 [] w))

/-- The tag of a record makes no difference. -/
theorem clear_encode (r : ConfigRecord) : Clear (Wire.encode r) ↔ r.Delimited := by
  have tag : Clear (Wire.encode r) ↔ Clear r.body :=
    (clear_cons (by decide)).trans (clear_cons (code_ne r.type))
  rw [tag]
  cases r with
  | header h => exact and_congr_left' (not_congr (getLast?_append_little16 _ h.address))
  | output o => exact clear_cons (code_ne (.output o.setup.type))
  | address a => exact clear_little16 a
  | deviceId d => exact clear_little16 d
  | baud b =>
    refine (clear_iff_of_length_le (Nat.le_of_ble_eq_true rfl)).trans
      (not_congr (Option.some_inj.trans (UInt8.toNat_inj.symm.trans ?_)))
    show b.raw.toNat = 254 ↔ b.raw.toNat * 1200 = 304800
    omega

end ConfigRecord

/-! ## What is written -/

/-- Of what a receiver takes that cuts off too much, nothing can be read. -/
theorem ConfigRecord.decodeAt_of_cut {r : ConfigRecord} {cut : Bytes} (h : cut <+: Wire.encode r)
    {r' : ConfigRecord} {n : Nat} (read : Wire.decodeAt cut 0 = .ok (r', n)) :
    r' = r ∧ cut = Wire.encode r := by
  obtain ⟨bs, rest, spells, stands, rfl⟩ := WireFormat.decodeAt_eq_ok_iff.mp read
  obtain ⟨behind, whole⟩ := h
  have begins : Wire.decodeAt (Wire.encode r) 0 = .ok (r', bs.length) :=
    WireFormat.decodeAt_eq_ok_iff.mpr ⟨bs, rest ++ behind, spells, by
      rw [← whole, List.drop_zero, show cut = bs ++ rest from stands, List.append_assoc], rfl⟩
  have own := WireFormat.decodeAt_of_spells (WireFormat.spells_encode r)
  obtain ⟨rfl, length⟩ := Prod.mk.inj (Except.ok.inj (begins.symm.trans own))
  refine ⟨rfl, List.IsPrefix.eq_of_length_le ⟨behind, whole⟩ ?_⟩
  rw [← length, show cut = bs ++ rest from stands, List.length_append]
  exact Nat.le_add_right ..

/-- A record is written with a terminator behind it. A receiver that cuts what is written at the first
terminator takes just the record's own bytes exactly if these do not end in a byte of the terminator
and have no terminator in them, which its fields decide; otherwise it takes too few of them to read
any record. A receiver that reads as far as the record goes reads it in any case. -/
theorem Session.sendRecord_delimited {σ : Type} [FarEnd σ] (log : WriteLog σ) (r : ConfigRecord)
    (s : Session σ) :
    let written := Wire.encode r ++ terminator
    log.of (sendRecord r s).2 =
        log.of s ++ (if unwritten (sendRecord r s).1 then [] else [written]) ∧
      (beforeTerminator written = some (Wire.encode r) ↔ Clear (Wire.encode r)) ∧
      (Clear (Wire.encode r) ↔ r.Delimited) ∧
      (∃ cut, beforeTerminator written = some cut ∧ ∀ r' n, Wire.decodeAt cut 0 = .ok (r', n) ↔
        r.Delimited ∧ r' = r ∧ n = (Wire.encode r).length) ∧
      Wire.decodeAt written 0 = .ok (r, (Wire.encode r).length) := by
  have own := WireFormat.spells_encode r
  have sent : sendRecord r s = ((sendRecord r s).1, (sendRecord r s).2) := rfl
  refine ⟨log.of_sendAndConfirm sent, beforeTerminator_append_iff, r.clear_encode, ?_,
    WireFormat.decodeAt_eq_ok_iff.mpr ⟨_, _, own, rfl, rfl⟩⟩
  obtain ⟨cut, found, begins⟩ := exists_beforeTerminator_append (Wire.encode r)
  refine ⟨cut, found, fun r' n => ⟨fun read => ?_, ?_⟩⟩
  · obtain ⟨rfl, rfl⟩ := ConfigRecord.decodeAt_of_cut begins read
    have clear := r'.clear_encode.mp (beforeTerminator_append_iff.mp found)
    have whole := WireFormat.decodeAt_of_spells own
    exact ⟨clear, rfl, (Prod.mk.inj (Except.ok.inj (read.symm.trans whole))).2⟩
  · rintro ⟨delimited, rfl, rfl⟩
    have whole := beforeTerminator_append_iff.mpr (r'.clear_encode.mpr delimited)
    obtain rfl := Option.some.inj (found.symm.trans whole)
    exact WireFormat.decodeAt_of_spells own

/-- A receiver that cuts at the first terminator does not recover every record that is written, be it
of a valid description or a single setting: of the record of the address 65278 it takes two bytes. -/
theorem Session.not_sendRecord_delimited :
    ¬ ∀ r : ConfigRecord, ((∃ (d : ModuleDescription) (c : ModuleConfig),
        d.validate = .ok c ∧ r ∈ c.toRecords) ∨
          (∃ a, r = .address a) ∨ (∃ i, r = .deviceId i) ∨ ∃ b, r = .baud b) →
      ∀ (s : Session StandIn) (written : Bytes),
        StandIn.writeLog.of (sendRecord r s).2 = StandIn.writeLog.of s ++ [written] →
        beforeTerminator written = some (Wire.encode r) := by
  intro all
  let s : Session StandIn := attach "" {} {}
  let written : Bytes := [0xFD, 0xE0, 0xFE, 0xFE, 0xFE, 0xFE, 0xFE, 0xFE]
  have sent : StandIn.writeLog.of (sendRecord (.address 0xFEFE) s).2 = [written] := by decide +kernel
  have cut : beforeTerminator written = some [0xFD, 0xE0] := by decide
  cases cut.symm.trans (all (.address 0xFEFE) (.inr (.inl ⟨_, rfl⟩)) s written sent)

end LightLink
