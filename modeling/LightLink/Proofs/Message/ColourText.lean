import Mathlib.Data.List.Forall2
import LightLink.Message.ColourText
import LightLink.Proofs.Text.Number

/-!
# Which texts are colours

A colour is three levels with commas between them, a level a number from 0 to 255 with blanks around
it. A text that is none is refused for the first of its parts that is no level, or else for the
number of its parts.

* `Colour.Parts`, `Colour.IsLevel`: the parts of a text; a part is a level;
* `Colour.level_eq_ok_iff`, `Colour.level_eq_error_iff`: what is read of one part;
* `Colour.mapM_of_levels`, `Colour.mapM_of_refused`: parts are read up to the first that is no
  level;
* `Colour.parse_exact`: which texts are colours, which are not and why.
-/

namespace LightLink.Colour

/-! ## Parts -/

/-- The text is these parts with commas between them. -/
def Parts (cs : List Char) (parts : List (List Char)) : Prop :=
  parts ≠ [] ∧ (∀ p ∈ parts, ',' ∉ p) ∧ [','].intercalate parts = cs

theorem not_mem_of_mem_splitCommas {cs p : List Char} (mem : p ∈ splitCommas cs) : ',' ∉ p := by
  induction cs generalizing p with
  | nil =>
    obtain rfl := List.mem_singleton.mp mem
    exact List.not_mem_nil
  | cons c cs ih =>
    unfold splitCommas at mem ih
    obtain ⟨q, qs, e⟩ := List.exists_cons_of_ne_nil (List.splitOn_ne_nil ',' cs)
    rw [List.splitOn_cons_eq_if_modifyHead, e] at mem
    rw [e] at ih
    split at mem
    · rcases List.mem_cons.mp mem with rfl | mem
      · exact List.not_mem_nil
      · exact ih mem
    · rename_i other
      rcases List.mem_cons.mp mem with rfl | mem
      · rw [List.mem_cons, not_or]
        exact ⟨fun comma => other (beq_iff_eq.mpr comma.symm), ih (.head _)⟩
      · exact ih (.tail _ mem)

/-- A text has its parts and no others. -/
theorem splitCommas_eq_iff {cs : List Char} {parts : List (List Char)} :
    splitCommas cs = parts ↔ Parts cs parts := by
  constructor
  · rintro rfl
    exact ⟨List.splitOn_ne_nil ',' cs, fun _ => not_mem_of_mem_splitCommas,
      List.intercalate_splitOn ','⟩
  · rintro ⟨some_part, no_comma, rfl⟩
    exact List.splitOn_intercalate _ no_comma some_part

/-! ## Levels -/

/-- A part is a level: a number from 0 to 255 with blanks around it. -/
def IsLevel (part : List Char) (v : UInt8) : Prop :=
  ∃ before number after, AllBlank before ∧ AllBlank after ∧ part = before ++ number ++ after ∧
    Decimal.Writes number v.toNat

theorem isBlank_of_isDigit {c : Char} (digit : c.isDigit = true) : isBlank c = false := by
  simp only [Char.isDigit, Bool.and_eq_true, decide_eq_true_eq] at digit
  obtain ⟨low, high⟩ := digit
  have low : 48 ≤ c.toNat := low
  have high : c.toNat ≤ 57 := high
  simp only [isBlank, blankRanges, List.any_cons, List.any_nil, Bool.or_eq_false_iff,
    Bool.and_eq_false_imp, decide_eq_true_eq, decide_eq_false_iff_not, and_true]
  omega

/-- There is no blank in a number. -/
theorem trim_of_writes {before number after : List Char} (blank : AllBlank before)
    (blank' : AllBlank after) {n : Nat} (writes : Decimal.Writes number n) :
    trim (before ++ number ++ after) = number := by
  obtain ⟨sign, digits, is_sign, all, some_digit, rfl, -⟩ := writes
  refine trim_append blank blank' (by simp [some_digit]) fun c mem => ?_
  rcases List.mem_append.mp mem with mem | mem
  · rcases is_sign with rfl | rfl
    · cases mem
    · obtain rfl := List.mem_singleton.mp mem
      decide
  · exact isBlank_of_isDigit (all c mem)

theorem isLevel_iff {part : List Char} {v : UInt8} :
    IsLevel part v ↔ Decimal.Writes (trim part) v.toNat := by
  constructor
  · rintro ⟨before, number, after, blank, blank', rfl, writes⟩
    rwa [trim_of_writes blank blank' writes]
  · intro writes
    obtain ⟨before, after, blank, blank', e⟩ := exists_trim part
    exact ⟨before, trim part, after, blank, blank', e, writes⟩

/-- Exactly the levels are read. -/
theorem level_eq_ok_iff {part : List Char} {v : UInt8} :
    level part = .ok v ↔ IsLevel part v := by
  rw [isLevel_iff]
  unfold level
  constructor
  · intro read
    split at read
    · rename_i n number
      obtain ⟨writes, le⟩ := Decimal.natUpTo_eq_ok_iff.mp number
      cases read
      rwa [UInt8.toNat_ofNat_of_lt' (Nat.lt_succ_of_le le)]
    · cases read
  · intro writes
    have le : v.toNat ≤ 255 := Nat.le_of_lt_succ v.toNat_lt
    rw [Decimal.natUpTo_of_writes writes le]
    dsimp only
    rw [UInt8.ofNat_toNat]

/-- A part that is no level is refused as it was written. -/
theorem level_eq_error_iff {part : List Char} {e : ColourError} :
    level part = .error e ↔
      ∃ cause, Decimal.Refused 255 (trim part) cause ∧ e = .badLevel part cause := by
  unfold level
  constructor
  · intro read
    split at read
    · cases read
    · rename_i cause refused
      cases read
      exact ⟨cause, Decimal.natUpTo_eq_error_iff.mp refused, rfl⟩
  · rintro ⟨cause, refused, rfl⟩
    rw [Decimal.natUpTo_of_refused refused]

theorem not_isLevel {part : List Char} {cause : Decimal.NumberError}
    (refused : Decimal.Refused 255 (trim part) cause) (v : UInt8) : ¬ IsLevel part v := by
  intro is_level
  have read := level_eq_ok_iff.mpr is_level
  rw [level_eq_error_iff.mpr ⟨cause, refused, rfl⟩] at read
  cases read

/-- There is no comma in a level. -/
theorem IsLevel.not_mem {part : List Char} {v : UInt8} (is_level : IsLevel part v) :
    ',' ∉ part := by
  obtain ⟨before, _, after, blank, blank', rfl, sign, digits, is_sign, all, -, rfl, -⟩ := is_level
  simp only [List.mem_append, not_or]
  refine ⟨⟨fun mem => ?_, fun mem => ?_, fun mem => ?_⟩, fun mem => ?_⟩
  · exact absurd (blank _ mem) (by decide)
  · rcases is_sign with rfl | rfl
    · cases mem
    · exact absurd (List.mem_singleton.mp mem) (by decide)
  · exact absurd (all _ mem) (by decide)
  · exact absurd (blank' _ mem) (by decide)

/-! ## Parts one after the other -/

theorem mapM_of_levels {parts : List (List Char)} {levels : List UInt8}
    (all : List.Forall₂ IsLevel parts levels) : parts.mapM level = .ok levels := by
  induction all with
  | nil => rfl
  | cons is_level _ ih =>
    rw [List.mapM_cons, level_eq_ok_iff.mpr is_level, ih]
    rfl

/-- Behind a part that is no level nothing is read. -/
theorem mapM_of_refused {before : List (List Char)} {part : List Char} {e : ColourError}
    (levels : ∀ q ∈ before, ∃ v, IsLevel q v) (refused : level part = .error e)
    (after : List (List Char)) : (before ++ part :: after).mapM level = .error e := by
  induction before with
  | nil =>
    rw [List.nil_append, List.mapM_cons, refused]
    rfl
  | cons q before ih =>
    obtain ⟨v, is_level⟩ := levels q (.head _)
    rw [List.cons_append, List.mapM_cons, level_eq_ok_iff.mpr is_level,
      ih fun q mem => levels q (.tail _ mem)]
    rfl

theorem exists_levels {parts : List (List Char)} (all : ∀ q ∈ parts, ∃ v, IsLevel q v) :
    ∃ levels, List.Forall₂ IsLevel parts levels := by
  induction parts with
  | nil => exact ⟨[], .nil⟩
  | cons q parts ih =>
    obtain ⟨v, is_level⟩ := all q (.head _)
    obtain ⟨levels, rest⟩ := ih fun q mem => all q (.tail _ mem)
    exact ⟨v :: levels, .cons is_level rest⟩

/-- All parts are levels, or there is a first one that is none. -/
theorem levels_or_refused (parts : List (List Char)) : (∀ q ∈ parts, ∃ v, IsLevel q v) ∨
    ∃ before part after cause, parts = before ++ part :: after ∧
      (∀ q ∈ before, ∃ v, IsLevel q v) ∧ Decimal.Refused 255 (trim part) cause := by
  induction parts with
  | nil => exact .inl nofun
  | cons part parts ih =>
    cases read : level part with
    | error e =>
      obtain ⟨cause, refused, -⟩ := level_eq_error_iff.mp read
      exact .inr ⟨[], part, parts, cause, rfl, nofun, refused⟩
    | ok v =>
      have first := level_eq_ok_iff.mp read
      rcases ih with all | ⟨before, part', after, cause, rfl, levels, refused⟩
      · exact .inl (List.forall_mem_cons.mpr ⟨⟨v, first⟩, all⟩)
      · exact .inr ⟨part :: before, part', after, cause, rfl,
          List.forall_mem_cons.mpr ⟨⟨v, first⟩, levels⟩, refused⟩

/-! ## Colours -/

/-- A text is a colour: three levels with commas between them. -/
def IsWritten (c : Colour) (cs : List Char) : Prop :=
  ∃ r g b, cs = r ++ ',' :: (g ++ ',' :: b) ∧ IsLevel r c.red ∧ IsLevel g c.green ∧
    IsLevel b c.blue

/-- Why a text is refused as a colour: the first of its parts that is no level, as it was written,
or, if all are levels, that there are not three. -/
def Refused (cs : List Char) : ColourError → Prop
  | .badLevel part cause => ∃ before after, Parts cs (before ++ part :: after) ∧
      (∀ q ∈ before, ∃ v, IsLevel q v) ∧ (∀ v, ¬ IsLevel part v) ∧
      Decimal.Refused 255 (trim part) cause
  | .wrongCount written => written = cs ∧
      ∃ parts, Parts cs parts ∧ (∀ q ∈ parts, ∃ v, IsLevel q v) ∧ parts.length ≠ 3

/-- What an error names: a part of the text, or all of it. -/
def named : ColourError → List Char
  | .badLevel part _ => part
  | .wrongCount written => written

/-- Quotes that stand at the ends of the texts around it are around a text. -/
theorem quoted (front quote text back rest : String) :
    front ++ quote ++ text ++ (quote ++ back) ++ rest =
      front ++ (quote ++ text ++ quote) ++ (back ++ rest) := by
  simp only [String.append_assoc]

/-- An error says in quotes what it names. -/
theorem message_eq (e : ColourError) : ∃ front back,
    e.message = front ++ ("'" ++ String.ofList (named e) ++ "'") ++ back := by
  cases e with
  | badLevel part cause =>
    have front : "bad colour component '" = "bad colour component " ++ "'" := by simp
    have back : "': " = "'" ++ ": " := by simp
    refine ⟨"bad colour component ", ": " ++ cause.message, ?_⟩
    rw [← quoted, ← front, ← back]
    rfl
  | wrongCount written =>
    have front : "expected r,g,b but got '" = "expected r,g,b but got " ++ "'" := by simp
    refine ⟨"expected r,g,b but got ", "", ?_⟩
    rw [String.append_empty, ← String.append_assoc, ← String.append_assoc, ← front]
    rfl

/-- A colour in decimal digits. -/
def text (c : Colour) : List Char :=
  Nat.toDigits 10 c.red.toNat ++ ',' ::
    (Nat.toDigits 10 c.green.toNat ++ ',' :: Nat.toDigits 10 c.blue.toNat)

variable {cs : List Char}

theorem parse_of_split {parts : List (List Char)} (split : Parts cs parts) :
    parse cs = parts.mapM level >>= fun
      | [r, g, b] => pure ⟨r, g, b⟩
      | _ => .error (.wrongCount cs) := by
  obtain rfl := splitCommas_eq_iff.mpr split
  rfl

theorem parse_of_isWritten {c : Colour} (written : IsWritten c cs) : parse cs = .ok c := by
  obtain ⟨r, g, b, rfl, red, green, blue⟩ := written
  have split : Parts (r ++ ',' :: (g ++ ',' :: b)) [r, g, b] := by
    refine ⟨nofun, fun p mem => ?_, by simp [List.intercalate]⟩
    simp only [List.mem_cons, List.not_mem_nil, or_false] at mem
    rcases mem with rfl | rfl | rfl
    · exact red.not_mem
    · exact green.not_mem
    · exact blue.not_mem
  rw [parse_of_split split, mapM_of_levels (.cons red (.cons green (.cons blue .nil)))]
  rfl

theorem parse_of_refused {e : ColourError} (refused : Refused cs e) : parse cs = .error e := by
  cases e with
  | badLevel part cause =>
    obtain ⟨before, after, split, levels, -, refused⟩ := refused
    rw [parse_of_split split,
      mapM_of_refused levels (level_eq_error_iff.mpr ⟨cause, refused, rfl⟩) after]
    rfl
  | wrongCount written =>
    obtain ⟨rfl, parts, split, all, count⟩ := refused
    obtain ⟨levels, all⟩ := exists_levels all
    rw [parse_of_split split, mapM_of_levels all]
    rw [all.length_eq] at count
    match levels, count with
    | [], _ | [_], _ | [_, _], _ | _ :: _ :: _ :: _ :: _, _ => rfl

/-- A text is a colour, or there is a reason why not. -/
theorem written_or_refused (cs : List Char) : (∃ c, IsWritten c cs) ∨ ∃ e, Refused cs e := by
  have split : Parts cs (splitCommas cs) := splitCommas_eq_iff.mp rfl
  rcases levels_or_refused (splitCommas cs) with all | ⟨before, part, after, cause, e, levels, bad⟩
  · by_cases count : (splitCommas cs).length = 3
    · left
      obtain ⟨r, g, b, e⟩ := List.length_eq_three.mp count
      rw [e] at split all
      obtain ⟨v, red⟩ := all r (by simp)
      obtain ⟨v', green⟩ := all g (by simp)
      obtain ⟨v'', blue⟩ := all b (by simp)
      refine ⟨⟨v, v', v''⟩, r, g, b, ?_, red, green, blue⟩
      rw [← split.2.2]
      simp [List.intercalate]
    · exact .inr ⟨.wrongCount cs, rfl, splitCommas cs, split, all, count⟩
  · rw [e] at split
    exact .inr ⟨.badLevel part cause, before, after, split, levels, not_isLevel bad, bad⟩

/-- The decimal digits of a byte are a level. -/
theorem isLevel_toDigits (v : UInt8) : IsLevel (Nat.toDigits 10 v.toNat) v :=
  ⟨[], _, [], nofun, nofun, by rw [List.nil_append, List.append_nil],
    Decimal.writes_toDigits v.toNat⟩

/-- A text gives a colour exactly if it is its three levels with commas between them, each a number
from 0 to 255 with blanks around it; any other text is refused, for the first of its parts that is
no level or else for the number of its parts, and the error says which text it is about. So a colour
in decimal digits gives that colour. -/
theorem parse_exact :
    (∀ cs c, parse cs = .ok c ↔ IsWritten c cs) ∧
      (∀ cs e, parse cs = .error e ↔ Refused cs e) ∧
      (∀ e : ColourError, ∃ front back,
        e.message = front ++ ("'" ++ String.ofList (named e) ++ "'") ++ back) ∧
      ∀ c : Colour, parse c.text = .ok c := by
  have exact_at := fun cs =>
    except_eq_iff parse_of_isWritten parse_of_refused (written_or_refused cs)
  refine ⟨fun cs => (exact_at cs).1, fun cs => (exact_at cs).2, message_eq, fun c => ?_⟩
  exact parse_of_isWritten
    ⟨_, _, _, rfl, isLevel_toDigits c.red, isLevel_toDigits c.green, isLevel_toDigits c.blue⟩

end LightLink.Colour
