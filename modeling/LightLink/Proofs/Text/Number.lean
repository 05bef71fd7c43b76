import Mathlib.Data.List.TakeWhile
import LightLink.Text.Blank
import LightLink.Text.Decimal

/-!
# Numbers as people write them

Which text is a number that is not too large, and why any other text is none.

* `except_eq_iff`: results that are described for every case are described exactly;
* `exists_trim`, `trim_append`: what `trim` leaves is what stands between blanks;
* `Decimal.Writes`, `Decimal.Exceeds`: a text is a number; its digits go past a bound;
* `Decimal.natUpTo_eq_ok_iff`, `Decimal.natUpTo_eq_error_iff`: the numbers up to a bound are read,
  and each other text is refused for its own reason.
-/

namespace LightLink

/-- Descriptions of a result and of an error are exact if one of the two always applies. -/
theorem except_eq_iff {ε α : Type} {result : Except ε α} {P : α → Prop} {Q : ε → Prop}
    (ok : ∀ {a}, P a → result = .ok a) (error : ∀ {e}, Q e → result = .error e)
    (either : (∃ a, P a) ∨ ∃ e, Q e) :
    (∀ a, result = .ok a ↔ P a) ∧ ∀ e, result = .error e ↔ Q e := by
  refine ⟨fun a => ⟨fun is_ok => ?_, ok⟩, fun e => ⟨fun is_error => ?_, error⟩⟩
  · rcases either with ⟨a', holds⟩ | ⟨e, holds⟩
    · obtain rfl := Except.ok.inj ((ok holds).symm.trans is_ok)
      exact holds
    · cases (error holds).symm.trans is_ok
  · rcases either with ⟨a, holds⟩ | ⟨e', holds⟩
    · cases (ok holds).symm.trans is_error
    · obtain rfl := Except.error.inj ((error holds).symm.trans is_error)
      exact holds

/-! ## Blanks at the ends -/

/-- There are only blanks. -/
def AllBlank (cs : List Char) : Prop := ∀ c ∈ cs, isBlank c = true

theorem AllBlank.reverse {cs : List Char} (blank : AllBlank cs) : AllBlank cs.reverse :=
  fun c mem => blank c (List.mem_reverse.mp mem)

theorem exists_trimStart (cs : List Char) :
    ∃ before, AllBlank before ∧ cs = before ++ trimStart cs :=
  ⟨cs.takeWhile isBlank, fun _ mem => List.mem_takeWhile_imp mem,
    List.takeWhile_append_dropWhile.symm⟩

/-- What `trim` leaves stands between blanks. -/
theorem exists_trim (cs : List Char) : ∃ before after, AllBlank before ∧ AllBlank after ∧
    cs = before ++ trim cs ++ after := by
  obtain ⟨before, blank, front⟩ := exists_trimStart cs
  obtain ⟨after, blank', back⟩ := exists_trimStart (trimStart cs).reverse
  have reversed := congrArg List.reverse back
  rw [List.reverse_reverse, List.reverse_append] at reversed
  refine ⟨before, after.reverse, blank, blank'.reverse, ?_⟩
  rw [List.append_assoc]
  exact front.trans (congrArg (before ++ ·) reversed)

theorem trimStart_append {before cs : List Char} (after : List Char) (blank : AllBlank before)
    (some_char : cs ≠ []) (bare : ∀ c ∈ cs, isBlank c = false) :
    trimStart (before ++ cs ++ after) = cs ++ after := by
  unfold trimStart
  rw [List.append_assoc, List.dropWhile_append_of_pos blank]
  cases cs with
  | nil => exact absurd rfl some_char
  | cons c cs => exact List.dropWhile_cons_of_neg (by simp [bare c (.head _)])

/-- Of a text without blanks, `trim` takes away all blanks around it. -/
theorem trim_append {before after cs : List Char} (blank : AllBlank before)
    (blank' : AllBlank after) (some_char : cs ≠ []) (bare : ∀ c ∈ cs, isBlank c = false) :
    trim (before ++ cs ++ after) = cs := by
  have back : (cs ++ after).reverse = after.reverse ++ cs.reverse ++ [] := by simp
  unfold trim
  rw [trimStart_append after blank some_char bare, back,
    trimStart_append [] blank'.reverse (by simpa using some_char) (by simpa using bare),
    List.append_nil, List.reverse_reverse]

namespace Decimal

/-! ## Numbers -/

/-- A plus sign, or none. -/
def IsSign (cs : List Char) : Prop := cs = [] ∨ cs = ['+']

/-- There are only decimal digits. -/
def AllDigits (cs : List Char) : Prop := ∀ c ∈ cs, c.isDigit = true

/-- The number that digits stand for. -/
def value (digits : List Char) : Nat := Nat.ofDigitChars 10 digits 0

/-- A text is a number: a plus sign, which may be left out, and at least one digit. -/
def Writes (cs : List Char) (n : Nat) : Prop :=
  ∃ sign digits, IsSign sign ∧ AllDigits digits ∧ digits ≠ [] ∧ cs = sign ++ digits ∧
    value digits = n

/-- A text begins as a number that exceeds a bound. -/
def Exceeds (max : Nat) (cs : List Char) : Prop :=
  ∃ sign digits rest, IsSign sign ∧ AllDigits digits ∧ cs = sign ++ digits ++ rest ∧
    max < value digits

/-- Why a text is refused as a number up to a bound. -/
def Refused (max : Nat) (cs : List Char) : NumberError → Prop
  | .empty => cs = []
  | .tooLarge => Exceeds max cs
  | .invalidDigit => cs ≠ [] ∧ ¬ Exceeds max cs ∧ ∀ n, ¬ Writes cs n
  | .tooSmall => False

/-! ### Digits -/

theorem digit?_of_isDigit {c : Char} (digit : c.isDigit = true) :
    digit? c = some (c.toNat - '0'.toNat) := by
  simp only [Char.isDigit, Bool.and_eq_true, decide_eq_true_eq] at digit
  exact if_pos digit

theorem digit?_of_not_isDigit {c : Char} (other : c.isDigit = false) : digit? c = none := by
  simp only [Char.isDigit, Bool.and_eq_false_iff, decide_eq_false_iff_not] at other
  exact if_neg fun ⟨low, high⟩ => other.elim (· low) (· high)

theorem le_ofDigitChars (digits : List Char) (n : Nat) : n ≤ Nat.ofDigitChars 10 digits n := by
  rw [Nat.ofDigitChars_eq_ofDigitChars_zero]
  have : 0 < 10 ^ digits.length := Nat.pow_pos (by decide)
  have := Nat.le_mul_of_pos_left n this
  omega

section DigitsFrom

variable {max n : Nat} {excess : NumberError} {digits : List Char}

/-- Digits are read one after the other as long as the number does not exceed the bound. -/
theorem digitsFrom_append (all : AllDigits digits) (rest : List Char)
    (within : Nat.ofDigitChars 10 digits n ≤ max) :
    digitsFrom max excess n (digits ++ rest) =
      digitsFrom max excess (Nat.ofDigitChars 10 digits n) rest := by
  induction digits generalizing n with
  | nil => rw [List.nil_append, Nat.ofDigitChars_nil]
  | cons c digits ih =>
    rw [Nat.ofDigitChars_cons, Nat.mul_comm] at within ⊢
    have le := Nat.le_trans (le_ofDigitChars digits _) within
    rw [List.cons_append, digitsFrom, digit?_of_isDigit (all c (.head _))]
    dsimp only
    rw [if_pos le]
    exact ih (fun d mem => all d (.tail _ mem)) within

/-- As soon as digits exceed the bound, no more is read. -/
theorem digitsFrom_of_lt (all : AllDigits digits) (rest : List Char) (start : n ≤ max)
    (above : max < Nat.ofDigitChars 10 digits n) :
    digitsFrom max excess n (digits ++ rest) = .error excess := by
  induction digits generalizing n with
  | nil => exact absurd above (Nat.not_lt_of_le start)
  | cons c digits ih =>
    rw [Nat.ofDigitChars_cons, Nat.mul_comm] at above
    rw [List.cons_append, digitsFrom, digit?_of_isDigit (all c (.head _))]
    dsimp only
    split
    · rename_i le
      exact ih (fun d mem => all d (.tail _ mem)) le above
    · rfl

theorem digitsFrom_of_not_isDigit {c : Char} (other : c.isDigit = false) (rest : List Char) :
    digitsFrom max excess n (c :: rest) = .error .invalidDigit := by
  rw [digitsFrom, digit?_of_not_isDigit other]

end DigitsFrom

/-! ### Signs -/

theorem AllDigits.head {digits : List Char} (all : AllDigits digits) (some_digit : digits ≠ []) :
    ∃ c rest, digits = c :: rest ∧ c.isDigit = true := by
  cases digits with
  | nil => exact absurd rfl some_digit
  | cons c rest => exact ⟨c, rest, rfl, all c (.head _)⟩

/-- Digits behind a sign are read as they are without one. -/
theorem natUpTo_sign {sign digits : List Char} (max : Nat) (is_sign : IsSign sign)
    (all : AllDigits digits) (some_digit : digits ≠ []) (rest : List Char) :
    natUpTo max (sign ++ digits ++ rest) = digitsFrom max .tooLarge 0 (digits ++ rest) := by
  obtain ⟨c, digits, rfl, digit⟩ := all.head some_digit
  rcases is_sign with rfl | rfl
  · rw [List.nil_append, List.cons_append, natUpTo]
    · rfl
    · nofun
    · rintro rest ⟨⟩
      exact absurd digit (by decide)
  · rfl

/-- Any text is a sign, or none, and what is read as digits. -/
theorem exists_sign (max : Nat) {cs : List Char} (some_char : cs ≠ []) : ∃ sign rest,
    IsSign sign ∧ cs = sign ++ rest ∧ natUpTo max cs = digits max .tooLarge rest := by
  by_cases plus : cs.head? = some '+'
  · cases cs with
    | nil => cases plus
    | cons c rest =>
      obtain rfl := Option.some.inj plus
      exact ⟨['+'], rest, .inr rfl, rfl, rfl⟩
  · refine ⟨[], cs, .inl rfl, rfl, ?_⟩
    rw [natUpTo]
    · exact some_char
    · rintro rest rfl
      exact plus rfl

/-! ### Numbers up to a bound -/

variable {max : Nat} {cs : List Char}

theorem natUpTo_of_writes {n : Nat} (number : Writes cs n) (le : n ≤ max) :
    natUpTo max cs = .ok n := by
  obtain ⟨sign, digits, is_sign, all, some_digit, rfl, rfl⟩ := number
  have read := natUpTo_sign max is_sign all some_digit []
  rw [List.append_nil] at read
  rw [read, digitsFrom_append all [] le]
  rfl

theorem natUpTo_of_exceeds (exceeds : Exceeds max cs) : natUpTo max cs = .error .tooLarge := by
  obtain ⟨sign, digits, rest, is_sign, all, rfl, above⟩ := exceeds
  have some_digit : digits ≠ [] := by
    rintro rfl
    exact Nat.not_lt_zero _ above
  rw [natUpTo_sign max is_sign all some_digit rest, digitsFrom_of_lt all rest (Nat.zero_le _) above]

theorem natUpTo_of_no_number (some_char : cs ≠ []) (within : ¬ Exceeds max cs)
    (no_number : ∀ n, ¬ Writes cs n) : natUpTo max cs = .error .invalidDigit := by
  obtain ⟨sign, rest, is_sign, rfl, read⟩ := exists_sign max some_char
  have all : AllDigits (rest.takeWhile Char.isDigit) := fun _ mem => List.mem_takeWhile_imp mem
  have whole : rest.takeWhile Char.isDigit ++ rest.dropWhile Char.isDigit = rest :=
    List.takeWhile_append_dropWhile
  rw [read]
  generalize rest.takeWhile Char.isDigit = digits at all whole
  cases behind : rest.dropWhile Char.isDigit with
  | nil =>
    rw [behind, List.append_nil] at whole
    subst whole
    cases digits with
    | nil => rfl
    | cons c digits => exact absurd ⟨sign, _, is_sign, all, nofun, rfl, rfl⟩ (no_number _)
  | cons c tail =>
    have other : c.isDigit = false := by
      have first := List.head?_dropWhile_not Char.isDigit rest
      rw [behind] at first
      simpa using first
    have le : value digits ≤ max := Nat.not_lt.mp fun above =>
      within ⟨sign, digits, _, is_sign, all, by rw [List.append_assoc, whole], above⟩
    rw [behind] at whole
    have some_char' : rest ≠ [] := by
      rintro rfl
      cases behind
    rw [Decimal.digits, ← whole, digitsFrom_append all _ le, digitsFrom_of_not_isDigit other]
    exact some_char'

theorem natUpTo_of_refused {e : NumberError} (refused : Refused max cs e) :
    natUpTo max cs = .error e := by
  cases e with
  | empty =>
    obtain rfl := refused
    rfl
  | invalidDigit => exact natUpTo_of_no_number refused.1 refused.2.1 refused.2.2
  | tooLarge => exact natUpTo_of_exceeds refused
  | tooSmall => exact refused.elim

/-- A number that is not too large, or a reason to refuse. -/
theorem writes_or_refused (max : Nat) (cs : List Char) :
    (∃ n, Writes cs n ∧ n ≤ max) ∨ ∃ e, Refused max cs e := by
  by_cases nothing : cs = []
  · exact .inr ⟨.empty, nothing⟩
  by_cases exceeds : Exceeds max cs
  · exact .inr ⟨.tooLarge, exceeds⟩
  by_cases number : ∃ n, Writes cs n
  · obtain ⟨n, sign, digits, is_sign, all, some_digit, rfl, rfl⟩ := number
    refine .inl ⟨_, ⟨sign, digits, is_sign, all, some_digit, rfl, rfl⟩,
      Nat.not_lt.mp fun above => exceeds ?_⟩
    exact ⟨sign, digits, [], is_sign, all, (List.append_nil _).symm, above⟩
  · exact .inr ⟨.invalidDigit, nothing, exceeds, not_exists.mp number⟩

theorem natUpTo_exact (max : Nat) (cs : List Char) :
    (∀ n, natUpTo max cs = .ok n ↔ Writes cs n ∧ n ≤ max) ∧
      ∀ e, natUpTo max cs = .error e ↔ Refused max cs e :=
  except_eq_iff (fun number => natUpTo_of_writes number.1 number.2) natUpTo_of_refused
    (writes_or_refused max cs)

/-- Exactly the numbers up to the bound are read. -/
theorem natUpTo_eq_ok_iff {n : Nat} : natUpTo max cs = .ok n ↔ Writes cs n ∧ n ≤ max :=
  (natUpTo_exact max cs).1 n

/-- Each text that is refused is refused for its own reason. -/
theorem natUpTo_eq_error_iff {e : NumberError} : natUpTo max cs = .error e ↔ Refused max cs e :=
  (natUpTo_exact max cs).2 e

/-- The decimal digits of a number are that number. -/
theorem writes_toDigits (n : Nat) : Writes (Nat.toDigits 10 n) n :=
  ⟨[], Nat.toDigits 10 n, .inl rfl, fun _ => Nat.isDigit_of_mem_toDigits (by decide) (by decide),
    Nat.toDigits_ne_nil, rfl, Nat.ofDigitChars_ten_toDigits⟩

end Decimal

end LightLink
