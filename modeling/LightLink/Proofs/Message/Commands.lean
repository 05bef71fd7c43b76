import LightLink.Message.Command
import LightLink.Proofs.Message.RoundTrip
import LightLink.Relay.Item

/-!
# Commands on the wire

A command for an address becomes the bytes of one message, and these tell which command it is and
whom it is for: a receiver that knows the programs reads the command back.

* `Program.command?`, `Command.ofMessage?`: what a receiver takes a program and a message for;
* `Command.ofMessage?_toMessage`: it takes the message of a command for that command;
* `Command.toMessage_inj`: so commands for addresses are told apart by their messages;
* `Command.toMessage_wire`: what all commands have in common on the wire.
-/

namespace LightLink

/-! ## A receiver -/

/-- The command that starts a program on an output. Its parameters stand at the front of the block,
and what fills up the block is not looked at. -/
def Program.command? (output : UInt8) (p : Program) : Option Command :=
  match p.code.toNat, p.params.toList with
  | 0x00, _ => some (.noProgram output)
  | 0x01, t₀ :: t₁ :: r :: g :: b :: u₀ :: u₁ :: r' :: g' :: b' :: _ =>
    some (.blink output (ofLittle16 t₀ t₁) ⟨r, g, b⟩ (ofLittle16 u₀ u₁) ⟨r', g', b'⟩)
  | 0x02, t₀ :: t₁ :: t₂ :: t₃ :: r :: g :: b :: r' :: g' :: b' :: _ =>
    some (.timedChange output (ofLittle32 t₀ t₁ t₂ t₃) ⟨r, g, b⟩ ⟨r', g', b'⟩)
  | 0x05, t₀ :: t₁ :: t₂ :: t₃ :: r :: g :: b :: r' :: g' :: b' :: flags :: _ =>
    some (.fade output (ofLittle32 t₀ t₁ t₂ t₃) ⟨r, g, b⟩ ⟨r', g', b'⟩ flags)
  | _, _ => none

namespace Command

/-- The command that a message gives. -/
def ofMessage? (m : Message) : Option Command :=
  match m.body with
  | .output ⟨index, .value v⟩ => some (.value index v)
  | .output ⟨index, .rgb c⟩ => some (.rgb index c)
  | .output ⟨index, .program p⟩ => p.command? index
  | .pollRequest => some .poll
  | .setAddress change => some (.setAddress change.deviceId change.address)
  | .dumpConfig [] => some .dumpConfig
  | _ => none

variable (c : Command) (a : UInt16)

/-- The message of a command gives that command. -/
theorem ofMessage?_toMessage : ofMessage? (c.toMessage a) = some c := by
  cases c with
  | blink output onPeriod on offPeriod off =>
    show some (blink output (ofLittle16 _ _) on (ofLittle16 _ _) off) = _
    rw [ofLittle16_little16, ofLittle16_little16]
  | timedChange output period start stop =>
    show some (timedChange output (ofLittle32 _ _ _ _) start stop) = _
    rw [ofLittle32_little32]
  | fade output period start stop flags =>
    show some (fade output (ofLittle32 _ _ _ _) start stop flags) = _
    rw [ofLittle32_little32]
  | _ => rfl

theorem address_toMessage : (c.toMessage a).address = a := by
  cases c <;> rfl

variable {c a} in
/-- Commands for addresses are told apart by their messages. -/
theorem toMessage_inj {c' : Command} {a' : UInt16} :
    c.toMessage a = c'.toMessage a' ↔ c = c' ∧ a = a' := by
  constructor
  · intro same
    constructor
    · apply Option.some.inj
      rw [← ofMessage?_toMessage c a, same, ofMessage?_toMessage]
    · rw [← address_toMessage c a, same, address_toMessage]
  · rintro ⟨rfl, rfl⟩
    rfl

/-! ## The bytes of a command -/

/-- A command for a program takes the most bytes: its header, the output and the whole block. -/
theorem wireSize_toMessage_le : (c.toMessage a).wireSize ≤ 43 := by
  cases c with
  | value => show 8 + (2 + 2) ≤ 43; decide
  | rgb => show 8 + (2 + 3) ≤ 43; decide
  | setAddress => show 8 + 4 ≤ 43; decide
  | poll | dumpConfig => show 8 + 0 ≤ 43; decide
  | _ => show 8 + (2 + (1 + 32)) ≤ 43; decide

theorem exists_encode_toMessage : ∃ bytes, (c.toMessage a).encode = .ok bytes := by
  have fits : (c.toMessage a).wireSize ≤ maxMessageSize :=
    Nat.le_trans (wireSize_toMessage_le c a) (by decide)
  exact ⟨_, Message.encode_eq_ok_iff.mpr ⟨fits, rfl⟩⟩

/-- A command wants data back exactly if its message says so. -/
theorem contains_response_toMessage :
    (c.toMessage a).flags.contains .response = c.expectsResponse := by
  cases c with
  | poll | dumpConfig => show (Flags.none.union .response).contains .response = true; decide
  | _ => show Flags.none.contains .response = false; decide

/-- Commands correspond to what is written for them. The message of a command can be written and is
read back as it was; what is written is neither empty nor one of the tokens by which a relay is told
something; the message asks for data exactly if the command expects some; and the same bytes are
written only for the same command and the same address. -/
theorem toMessage_wire :
    (∀ (c : Command) (a : UInt16), ∃ bytes, (c.toMessage a).encode = .ok bytes ∧
      Message.decode bytes = .ok (c.toMessage a, bytes.length) ∧
      bytes ∉ [[], Relay.ackToken, Relay.exitToken, Relay.dataToken] ∧
      ((c.toMessage a).flags.contains .response = true ↔ c.expectsResponse = true)) ∧
    ∀ (c c' : Command) (a a' : UInt16),
      (c.toMessage a).encode = (c'.toMessage a').encode ↔ c = c' ∧ a = a' := by
  refine ⟨fun c a => ?_, fun c c' a a' => ?_⟩
  · obtain ⟨bytes, written⟩ := exists_encode_toMessage c a
    have long : 8 ≤ bytes.length := ((Message.decode_encode_append _).1 bytes written).1
    have short : ∀ token ∈ [[], Relay.ackToken, Relay.exitToken, Relay.dataToken],
        token.length < 8 := by decide
    exact ⟨bytes, written, Message.decode_of_encode written,
      fun mem => Nat.not_lt_of_le long (short bytes mem),
      by rw [contains_response_toMessage]⟩
  · constructor
    · intro same
      obtain ⟨bytes, written⟩ := exists_encode_toMessage c a
      have read := Message.decode_of_encode written
      have read' := Message.decode_of_encode (same.symm.trans written)
      apply toMessage_inj.mp
      exact congrArg Prod.fst (Except.ok.inj (read.symm.trans read'))
    · rintro ⟨rfl, rfl⟩
      rfl

end Command

end LightLink
