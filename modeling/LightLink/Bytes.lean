/-!
# Bytes, words and rows

A link carries bytes. This module holds the byte string every other module speaks of, the words
that are written into it, and rows of a fixed length.

* `little16`, `little32`, `big32`: the bytes of a word;
* `ofLittle16_little16`, `ofLittle32_little32`: a word is read back from its bytes, and
  `little16_ofLittle16`, `little32_ofLittle32`: bytes are written back as they were read;
* `Row`: a list of exactly `n` entries, with `Row.ofList?` and `Row.padded` to build one.
-/

namespace LightLink

/-- A byte string, first byte first. -/
abbrev Bytes := List UInt8

/-! ## Words -/

/-- The two bytes of a 16-bit word, least significant first. -/
def little16 (w : UInt16) : Bytes := [w.toUInt8, (w / 256).toUInt8]

/-- The 16-bit word whose bytes are `lo` and `hi`. -/
def ofLittle16 (lo hi : UInt8) : UInt16 := lo.toUInt16 + hi.toUInt16 * 256

/-- The four bytes of a 32-bit word, least significant first. -/
def little32 (w : UInt32) : Bytes :=
  [w.toUInt8, (w / 256).toUInt8, (w / 65536).toUInt8, (w / 16777216).toUInt8]

/-- The 32-bit word with these bytes, least significant first. -/
def ofLittle32 (b₀ b₁ b₂ b₃ : UInt8) : UInt32 :=
  b₀.toUInt32 + b₁.toUInt32 * 256 + b₂.toUInt32 * 65536 + b₃.toUInt32 * 16777216

/-- The four bytes of a 32-bit word, most significant first. -/
def big32 (w : UInt32) : Bytes := (little32 w).reverse

@[simp] theorem length_little16 (w : UInt16) : (little16 w).length = 2 := rfl

@[simp] theorem length_little32 (w : UInt32) : (little32 w).length = 4 := rfl

@[simp] theorem length_big32 (w : UInt32) : (big32 w).length = 4 := rfl

/-- A 16-bit word is read back from its bytes. -/
theorem ofLittle16_little16 (w : UInt16) : ofLittle16 w.toUInt8 (w / 256).toUInt8 = w := by
  apply UInt16.toNat_inj.mp
  have := w.toNat_lt
  simp [ofLittle16, UInt16.toNat_add, UInt16.toNat_mul, UInt16.toNat_div]
  omega

/-- The bytes of a 16-bit word are the ones it was read from. -/
theorem little16_ofLittle16 (lo hi : UInt8) : little16 (ofLittle16 lo hi) = [lo, hi] := by
  have := lo.toNat_lt
  have := hi.toNat_lt
  simp only [little16, List.cons.injEq, and_true]
  constructor
  · apply UInt8.toNat_inj.mp
    simp [ofLittle16]
  · apply UInt8.toNat_inj.mp
    simp [ofLittle16, UInt16.toNat_add, UInt16.toNat_mul, UInt16.toNat_div]
    omega

/-- A 32-bit word is read back from its bytes. -/
theorem ofLittle32_little32 (w : UInt32) :
    ofLittle32 w.toUInt8 (w / 256).toUInt8 (w / 65536).toUInt8 (w / 16777216).toUInt8 = w := by
  apply UInt32.toNat_inj.mp
  have := w.toNat_lt
  simp [ofLittle32, UInt32.toNat_add, UInt32.toNat_mul, UInt32.toNat_div]
  omega

/-- The bytes of a 32-bit word are the ones it was read from. -/
theorem little32_ofLittle32 (b₀ b₁ b₂ b₃ : UInt8) :
    little32 (ofLittle32 b₀ b₁ b₂ b₃) = [b₀, b₁, b₂, b₃] := by
  have := b₀.toNat_lt
  have := b₁.toNat_lt
  have := b₂.toNat_lt
  have := b₃.toNat_lt
  simp only [little32, List.cons.injEq, and_true]
  refine ⟨?_, ?_, ?_, ?_⟩ <;> apply UInt8.toNat_inj.mp
  · simp [ofLittle32]
  all_goals
    simp [ofLittle32, UInt32.toNat_add, UInt32.toNat_mul, UInt32.toNat_div]
    omega

/-! ## Rows of a fixed length -/

/-- A list of exactly `n` entries. -/
structure Row (α : Type) (n : Nat) where
  toList : List α
  length_toList : toList.length = n := by rfl
  deriving DecidableEq, Repr

namespace Row

variable {α : Type} {n : Nat}

/-- The row with these entries, if there are exactly `n` of them. -/
def ofList? (n : Nat) (l : List α) : Option (Row α n) :=
  if h : l.length = n then some ⟨l, h⟩ else none

/-- The row that starts with `l` and goes on with `fill`. -/
def padded (n : Nat) (l : List α) (fill : α) (h : l.length ≤ n) : Row α n :=
  ⟨l ++ List.replicate (n - l.length) fill, by simp; omega⟩

/-- The row with one more entry in front. -/
def cons (a : α) (r : Row α n) : Row α (n + 1) := ⟨a :: r.toList, by simp [r.length_toList]⟩

/-- Entry by entry, from two rows of one length. -/
def zipWith {β γ : Type} (f : α → β → γ) (r : Row α n) (s : Row β n) : Row γ n :=
  ⟨List.zipWith f r.toList s.toList, by simp [r.length_toList, s.length_toList]⟩

theorem ext {r s : Row α n} (h : r.toList = s.toList) : r = s := by
  cases r; cases s; simp_all

@[simp] theorem ofList?_toList (r : Row α n) : ofList? n r.toList = some r := by
  simp [ofList?, r.length_toList]

end Row

end LightLink
