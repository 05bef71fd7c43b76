import LightLink.Message.Program

/-!
# The parameter blocks of programs

A block is filled from its front, one parameter after the other, and never left: a writer puts the
bytes of each parameter where it stands and moves behind them. So a reader finds a parameter at the
sum of the sizes of those before it, and zeros behind the last.

* `ParamWriter`: a block that is being filled;
* `ParamWriter.writeAll_filled`: what it holds once parameters that fit have been written;
* `wordAt`, `longAt`, `colourAt`: a parameter as a reader finds it at a position;
* `Program.params_laidOut`: where each program has its parameters, and what fits into a block.
-/

namespace LightLink

/-! ## Writing -/

/-- A block that is being filled, and the position at which the next bytes go into it. -/
structure ParamWriter where
  block : Row UInt8 Program.paramsSize
  pos : Nat
  deriving DecidableEq, Repr

namespace ParamWriter

/-- Bytes that are written within a block leave it as long as it was. -/
theorem length_overwrite {block bs : Bytes} {pos : Nat} (fits : pos + bs.length ≤ block.length) :
    (block.take pos ++ bs ++ block.drop (pos + bs.length)).length = block.length := by
  simp only [List.length_append, List.length_take, List.length_drop]
  omega

/-- Puts bytes into the block, unless they would run past its end. -/
def write (w : ParamWriter) (bs : Bytes) : Option ParamWriter :=
  if fits : w.pos + bs.length ≤ w.block.toList.length then
    some ⟨⟨w.block.toList.take w.pos ++ bs ++ w.block.toList.drop (w.pos + bs.length),
      (length_overwrite fits).trans w.block.length_toList⟩, w.pos + bs.length⟩
  else none

/-- Puts one parameter after the other into the block. -/
def writeAll (w : ParamWriter) : List Bytes → Option ParamWriter
  | [] => some w
  | bs :: pieces => (w.write bs).bind fun w => w.writeAll pieces

/-- The writer that has put these bytes into a block of zeros. -/
def filled (params : Bytes) (fits : params.length ≤ Program.paramsSize) : ParamWriter :=
  ⟨Row.padded Program.paramsSize params 0 fits, params.length⟩

/-- A block of zeros that nothing has been put into. -/
def start : ParamWriter := filled [] (Nat.zero_le _)

/-- The program with what has been written for its parameters. -/
def finish (w : ParamWriter) (code : UInt8) : Program := ⟨code, w.block⟩

theorem fits_of_append {params bs : Bytes} (fits : (params ++ bs).length ≤ Program.paramsSize) :
    params.length ≤ Program.paramsSize :=
  Nat.le_trans (List.length_append ▸ Nat.le_add_right ..) fits

/-- Bytes go behind those that have been written, in place of as many zeros. -/
theorem write_filled {params bs : Bytes} (fits : (params ++ bs).length ≤ Program.paramsSize) :
    (filled params (fits_of_append fits)).write bs = some (filled (params ++ bs) fits) := by
  have sum : params.length + bs.length ≤ Program.paramsSize := by rwa [List.length_append] at fits
  have room : params.length + bs.length ≤
      (params ++ List.replicate (Program.paramsSize - params.length) (0 : UInt8)).length := by
    rw [List.length_append, List.length_replicate]
    omega
  have zeros : Program.paramsSize - params.length - bs.length =
      Program.paramsSize - (params ++ bs).length := by
    rw [List.length_append, Nat.sub_add_eq]
  unfold write filled Row.padded
  rw [dif_pos room]
  simp only [List.take_left, ← List.drop_drop, List.drop_left, List.drop_replicate, zeros,
    List.length_append]

/-- Parameters that fit into the block together are written without ever running past its end, each
behind the one before it. -/
theorem writeAll_filled (params : Bytes) {pieces : List Bytes}
    (fits : (params ++ pieces.flatten).length ≤ Program.paramsSize) :
    (filled params (fits_of_append fits)).writeAll pieces =
      some (filled (params ++ pieces.flatten) fits) := by
  induction pieces generalizing params with
  | nil => simp only [writeAll, List.flatten_nil, List.append_nil]
  | cons bs pieces ih =>
    have whole : ((params ++ bs) ++ pieces.flatten).length ≤ Program.paramsSize := by
      rwa [List.append_assoc, ← List.flatten_cons]
    rw [writeAll, write_filled (fits_of_append whole), Option.bind_some, ih _ whole]
    simp only [List.flatten_cons, List.append_assoc]

end ParamWriter

/-! ## Reading -/

/-- The word at a position, least significant byte first. -/
def wordAt (block : Bytes) (i : Nat) : Option UInt16 :=
  return ofLittle16 (← block[i]?) (← block[i + 1]?)

/-- The long word at a position, least significant byte first. -/
def longAt (block : Bytes) (i : Nat) : Option UInt32 :=
  return ofLittle32 (← block[i]?) (← block[i + 1]?) (← block[i + 2]?) (← block[i + 3]?)

/-- The colour at a position. -/
def colourAt (block : Bytes) (i : Nat) : Option Colour :=
  return ⟨← block[i]?, ← block[i + 1]?, ← block[i + 2]?⟩

namespace Program

/-- The program is what a writer leaves that has put these parameters into a block of zeros, one
after the other. -/
def WrittenAs (p : Program) (code : UInt8) (pieces : List Bytes) : Prop :=
  ∃ w, ParamWriter.start.writeAll pieces = some w ∧ w.pos = pieces.flatten.length ∧
    w.finish code = p

theorem writtenAs_ofParams (code : UInt8) {pieces : List Bytes}
    (fits : pieces.flatten.length ≤ paramsSize) :
    (ofParams code pieces.flatten fits).WrittenAs code pieces :=
  ⟨_, ParamWriter.writeAll_filled [] fits, rfl, rfl⟩

/-- The bytes of a block behind a position are all zero. -/
def ZeroFrom (p : Program) (n : Nat) : Prop := p.params.toList.drop n = List.replicate (32 - n) 0

theorem zeroFrom_ofParams (code : UInt8) {params : Bytes} (fits : params.length ≤ paramsSize) :
    (ofParams code params fits).ZeroFrom params.length :=
  List.drop_left

theorem ofParams?_of_le (code : UInt8) {params : Bytes} (fits : params.length ≤ paramsSize) :
    ofParams? code params = .ok (ofParams code params fits) := dif_pos fits

/-- Bytes are the parameters of a program just if they fit into its block, and then they stand at
its front with zeros behind them. -/
theorem ofParams?_eq_ok_iff {code : UInt8} {params : Bytes} {p : Program} :
    ofParams? code params = .ok p ↔ params.length ≤ 32 ∧ p.code = code ∧
      p.params.toList = params ++ List.replicate (32 - params.length) 0 := by
  constructor
  · intro made
    unfold ofParams? at made
    split at made
    · rename_i fits
      cases made
      exact ⟨fits, rfl, rfl⟩
    · cases made
  · rintro ⟨fits, rfl, block⟩
    have filled : Row.padded paramsSize params 0 fits = p.params := Row.ext block.symm
    rw [ofParams?_of_le p.code fits]
    unfold ofParams
    rw [filled]

/-- Each program is written parameter by parameter without running past its block, is read back from
the positions of its parameters, and has zeros behind the last of them. Any bytes are parameters of
a program just if there are at most 32 of them; they then stand at the front of the block, with
zeros behind them. -/
theorem params_laidOut :
    (∀ (onPeriod : UInt16) (on : Colour) (offPeriod : UInt16) (off : Colour),
      let p := blink onPeriod on offPeriod off
      let block := p.params.toList
      p.WrittenAs 0x01 [little16 onPeriod, on.bytes, little16 offPeriod, off.bytes] ∧
        wordAt block 0 = some onPeriod ∧ colourAt block 2 = some on ∧
        wordAt block 5 = some offPeriod ∧ colourAt block 7 = some off ∧ p.ZeroFrom 10) ∧
    (∀ (period : UInt32) (start stop : Colour),
      let p := timedChange period start stop
      let block := p.params.toList
      p.WrittenAs 0x02 [little32 period, start.bytes, stop.bytes] ∧
        longAt block 0 = some period ∧ colourAt block 4 = some start ∧
        colourAt block 7 = some stop ∧ p.ZeroFrom 10) ∧
    (∀ (period : UInt32) (start stop : Colour) (flags : UInt8),
      let p := fade period start stop flags
      let block := p.params.toList
      p.WrittenAs 0x05 [little32 period, start.bytes, stop.bytes, [flags]] ∧
        longAt block 0 = some period ∧ colourAt block 4 = some start ∧
        colourAt block 7 = some stop ∧ block[10]? = some flags ∧ p.ZeroFrom 11) ∧
    ∀ (code : UInt8) (params : Bytes),
      ((∃ p, ofParams? code params = .ok p) ↔ params.length ≤ 32) ∧
        ∀ p, ofParams? code params = .ok p ↔ params.length ≤ 32 ∧ p.code = code ∧
          p.params.toList = params ++ List.replicate (32 - params.length) 0 := by
  refine ⟨fun onPeriod on offPeriod off => ?_, fun period start stop => ?_,
    fun period start stop flags => ?_, fun code params => ?_⟩
  · have fits : [little16 onPeriod, on.bytes, little16 offPeriod, off.bytes].flatten.length ≤
        paramsSize := show 10 ≤ 32 by decide
    exact ⟨writtenAs_ofParams 0x01 fits, congrArg some (ofLittle16_little16 onPeriod), rfl,
      congrArg some (ofLittle16_little16 offPeriod), rfl, zeroFrom_ofParams 0x01 fits⟩
  · have fits : [little32 period, start.bytes, stop.bytes].flatten.length ≤ paramsSize :=
      show 10 ≤ 32 by decide
    exact ⟨writtenAs_ofParams 0x02 fits, congrArg some (ofLittle32_little32 period), rfl, rfl,
      zeroFrom_ofParams 0x02 fits⟩
  · have fits : [little32 period, start.bytes, stop.bytes, [flags]].flatten.length ≤
        paramsSize := show 11 ≤ 32 by decide
    exact ⟨writtenAs_ofParams 0x05 fits, congrArg some (ofLittle32_little32 period), rfl, rfl, rfl,
      zeroFrom_ofParams 0x05 fits⟩
  · refine ⟨⟨fun ⟨p, made⟩ => (ofParams?_eq_ok_iff.mp made).1, fun fits => ?_⟩,
      fun p => ofParams?_eq_ok_iff⟩
    exact ⟨_, ofParams?_of_le code fits⟩

end Program

end LightLink
