import LightLink.Message.Codec
import LightLink.Proofs.Wire.Incremental

/-!
# The steps that decoders are made of

Every decoder reads bytes, words, colours and rows one after the other and refuses what it does not
like. So what holds of these steps, and of one decoder after another, holds of each of them.

* `Decoder.Built`: a decoder that is made of such steps;
* `Decoder.Built.ofOption`, `Decoder.Built.require`, …: more steps, from the first ones;
* `MessageHeader.built`, …: the decoder of each type is made of them.
-/

namespace LightLink

/-- The error refuses bytes that are all there. -/
def WireError.isRefusal (e : WireError) : Bool := e.isMalformed && !e.isShort

theorem WireError.isRefusal_iff {e : WireError} :
    e.isRefusal = true ↔ e.isMalformed = true ∧ e.isShort = false := by
  rw [isRefusal, Bool.and_eq_true, Bool.not_eq_true']

theorem Decoder.colour_eq_error {c : Cursor} {e : WireError} (h : colour c = .error e) :
    c.rest.length < 3 ∧ e = .insufficientData (c.pos + 3) c.size := by
  unfold colour at h
  split at h
  · cases h
  · rename_i few
    cases h
    refine ⟨?_, rfl⟩
    match ahead : c.rest with
    | [] | [_] | [_, _] => simp
    | r :: g :: b :: rest => exact absurd ahead (few r g b rest)

/-- A decoder that is made of these steps. -/
inductive Decoder.Built : {α : Type} → Decoder α → Prop where
  | pure {α : Type} (a : α) : Built (Pure.pure a)
  | fail {α : Type} {e : WireError} : e.isRefusal = true → Built (Decoder.fail e : Decoder α)
  | byte : Built Decoder.byte
  | word : Built Decoder.word
  | colour : Built Decoder.colour
  | row (n : Nat) : Built (Decoder.row n)
  /-- What is read behind a value may depend on it. -/
  | bind {α β : Type} {d : Decoder α} {k : α → Decoder β} :
    Built d → (∀ a, Built (k a)) → Built (d >>= k)

namespace Decoder.Built

variable {α β : Type} {d d' : Decoder α}

theorem ofOption {e : WireError} (refuses : e.isRefusal = true) (o : Option α) :
    (Decoder.ofOption e o).Built := by
  cases o with
  | none => exact fail refuses
  | some a => exact pure a

theorem map {f : α → β} (hd : d.Built) : (f <$> d).Built := by
  rw [← bind_pure_comp]
  exact bind hd fun a => pure (f a)

theorem ite {p : Prop} [Decidable p] (hd : d.Built) (hd' : d'.Built) :
    (if p then d else d').Built := by
  split <;> assumption

/-- A condition that has to hold before the rest is read. -/
theorem require {p : Prop} [Decidable p] {e : WireError} {k : PUnit → Decoder β}
    (refuses : e.isRefusal = true) (hk : (k ⟨⟩).Built) :
    (if ¬p then (Decoder.fail e : Decoder PUnit) >>= k else k ⟨⟩).Built :=
  -- `k` is not reached behind `fail`, so that nothing is asked of it at other arguments.
  ite (bind (fail refuses) fun _ => hk) hk

theorem signed : Decoder.signed.Built := map word

theorem rowOf (hd : d.Built) : ∀ n, (Decoder.rowOf d n).Built
  | 0 => pure _
  | n + 1 => bind hd fun _ => bind (rowOf hd n) fun _ => pure _

end Decoder.Built

open Decoder.Built

/-! ## Headers -/

theorem MessageHeader.built : (Wire.decoder : Decoder MessageHeader).Built := by
  refine bind byte fun _ => require rfl ?_
  iterate 5 refine bind byte fun _ => ?_
  exact bind word fun _ => bind (ofOption rfl _) fun _ => pure _

theorem OutputHeader.built : (Wire.decoder : Decoder OutputHeader).Built :=
  bind byte fun _ => bind byte fun _ => bind (ofOption rfl _) fun _ => pure _

theorem ConfigHeader.built : (Wire.decoder : Decoder ConfigHeader).Built := by
  iterate 6 refine bind byte fun _ => ?_
  exact bind word fun _ => bind word fun _ => pure _

/-! ## Messages without records -/

theorem Program.built : (Wire.decoder : Decoder Program).Built :=
  bind byte fun _ => bind (row 32) fun _ => pure _

theorem OutputAction.built (t : OutputType) : (OutputAction.bodyDecoder t).Built := by
  cases t with
  | value => exact bind signed fun _ => pure _
  | rgb => exact bind colour fun _ => pure _
  | program => exact bind Program.built fun _ => pure _
  | _ => exact fail rfl

theorem OutputCommand.built : (Wire.decoder : Decoder OutputCommand).Built :=
  bind OutputHeader.built fun h => bind (OutputAction.built h.type) fun _ => pure _

theorem Identity.built : (Wire.decoder : Decoder Identity).Built := by
  iterate 6 refine bind byte fun _ => ?_
  iterate 4 refine bind word fun _ => ?_
  exact bind byte fun _ => pure _

theorem AddressChange.built : (Wire.decoder : Decoder AddressChange).Built :=
  bind word fun _ => bind word fun _ => pure _

/-! ## Configuration records -/

theorem OutputSetup.built (t : OutputType) : (OutputSetup.bodyDecoder t).Built := by
  cases t with
  | value => exact bind byte fun _ => bind signed fun _ => pure _
  | rgb => exact bind (row 3) fun _ => bind (row 3) fun _ => pure _
  | program => exact bind (rowOf signed 12) fun _ => pure _
  | pixels =>
    exact bind byte fun _ => bind byte fun _ => bind word fun _ => bind byte fun _ => pure _
  | mpr121 => exact bind byte fun _ => bind byte fun _ => bind (row 12) fun _ => pure _
  | rs485 => exact bind byte fun _ => bind byte fun _ => bind byte fun _ => pure _
  | xbee => exact bind byte fun _ => bind byte fun _ => pure _

theorem OutputConfig.built : (Wire.decoder : Decoder OutputConfig).Built :=
  bind OutputHeader.built fun h => bind (OutputSetup.built h.type) fun _ => pure _

theorem ConfigRecord.built_body (t : ConfigType) : (ConfigRecord.bodyDecoder t).Built := by
  cases t with
  | header => exact bind ConfigHeader.built fun _ => pure _
  | output t => exact bind OutputConfig.built fun _ => ite (pure _) (fail rfl)
  | address => exact bind word fun _ => pure _
  | deviceId => exact bind word fun _ => pure _
  | baud => exact bind byte fun _ => pure _

theorem ConfigRecord.built : (Wire.decoder : Decoder ConfigRecord).Built :=
  bind byte fun _ => require rfl (bind byte fun _ => bind (ofOption rfl _) fun t =>
    ConfigRecord.built_body t)

end LightLink
