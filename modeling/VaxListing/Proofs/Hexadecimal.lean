import Mathlib.Tactic
import VaxListing.Hex
import VaxListing.Listing.Reader

set_option relaxedAutoImplicit false
set_option autoImplicit false

/-!
# Hexadecimal text can be read back

The digits of a number stand for this number again, however many of them are written, as long as
none is cut off. This is what makes addresses, bytes and constants in a listing readable.

Without leading zeros the digits are those of the standard library, and the digits of a stored
number are those of its bytes.

## Main definitions

* `VaxListing.Hex.byteDigits` — the two digits of a byte.

## Main results

* `VaxListing.Hex.exists_digit_of_mem` — hexadecimal text is made of digits.
* `VaxListing.Hex.value?_fixed`, `VaxListing.Hex.value?_minimal` — digits read back as the number.
* `VaxListing.Hex.padded_eq_fixed` — filling up changes nothing where the digits suffice.
* `VaxListing.Hex.minimal_eq_toDigits` — digits without leading zeros are the standard ones.
* `VaxListing.Hex.fixed_value` — the digits of a stored number show its bytes.
-/

namespace VaxListing.Hex

/-- The digits of a number are the digits of numbers below sixteen. -/
lemma exists_digit_of_mem {w n : Nat} {c : Char} (h : c ∈ fixed w n) :
    ∃ d : Fin 16, c = digit d := by
  induction w generalizing n with
  | zero => cases h
  | succ w ih =>
    rw [fixed, List.mem_append, List.mem_singleton] at h
    rcases h with h | rfl
    · exact ih h
    · exact ⟨⟨n % 16, Nat.mod_lt _ (by decide)⟩, rfl⟩

/-- A digit stands for its number. -/
lemma digitValue?_digit {d : Nat} (h : d < 16) : digitValue? (digit d) = some d := by
  have all : ∀ d : Fin 16, digitValue? (digit d) = some d.val := by
    decide
  exact all ⟨d, h⟩

/-- Digits are read from left to right. -/
lemma valueFrom?_append (n : Nat) (xs ys : List Char) :
    valueFrom? n (xs ++ ys) = (valueFrom? n xs).bind fun k => valueFrom? k ys := by
  induction xs generalizing n with
  | nil => rfl
  | cons c xs ih =>
    rw [List.cons_append, valueFrom?, valueFrom?]
    cases digitValue? c with
    | none => rfl
    | some d => exact ih _

/-- Reading `w` digits of a number behind others appends their value. -/
lemma valueFrom?_fixed (k w n : Nat) :
    valueFrom? k (fixed w n) = some (k * 16 ^ w + n % 16 ^ w) := by
  induction w generalizing n with
  | zero => simp [fixed, valueFrom?, Nat.mod_one]
  | succ w ih =>
    have hdigit := digitValue?_digit (Nat.mod_lt n (show 0 < 16 by decide))
    have hmod : n % 16 ^ (w + 1) = 16 * (n / 16 % 16 ^ w) + n % 16 := by
      rw [pow_succ', Nat.mod_mul]
      omega
    rw [fixed, valueFrom?_append, ih, Option.bind_some, valueFrom?, hdigit, hmod]
    simp only [valueFrom?]
    congr 1
    ring

/-- Digits read back as the number, if none is cut off. -/
lemma value?_fixed {w n : Nat} (h : n < 16 ^ w) : value? (fixed w n) = some n := by
  rw [value?, valueFrom?_fixed, Nat.zero_mul, Nat.zero_add, Nat.mod_eq_of_lt h]

/-- The fewest digits of a number suffice for it. -/
lemma lt_pow_width (n : Nat) : n < 16 ^ width n := by
  have hlog : n < 2 ^ (n.log2 + 1) := Nat.lt_log2_self
  have hle : n.log2 + 1 ≤ 4 * width n := by
    rw [width]
    omega
  calc n < 2 ^ (n.log2 + 1) := hlog
    _ ≤ 2 ^ (4 * width n) := Nat.pow_le_pow_right (by decide) hle
    _ = 16 ^ width n := by rw [show 16 = 2 ^ 4 by norm_num, pow_mul]

/-- No number has fewer digits than the fewest. -/
lemma width_le_of_lt_pow {w n : Nat} (hw : 0 < w) (h : n < 16 ^ w) : width n ≤ w := by
  rcases Nat.eq_zero_or_pos n with rfl | hn
  · exact hw
  · have hlog : n.log2 < 4 * w := by
      rw [Nat.log2_lt (by omega), pow_mul]
      exact h
    rw [width]
    omega

/-- The digits without leading zeros read back as the number. -/
lemma value?_minimal (n : Nat) : value? (minimal n) = some n :=
  value?_fixed (lt_pow_width n)

/-- Where a count of digits suffices, filling up to this count gives exactly so many. -/
lemma padded_eq_fixed {w n : Nat} (hw : 0 < w) (h : n < 16 ^ w) : padded w n = fixed w n := by
  rw [padded, Nat.max_eq_left (width_le_of_lt_pow hw h)]

/-! ## The standard digits -/

/-- The digit of a number below sixteen is the one of the standard library. -/
lemma digit_eq_digitChar {d : Nat} (h : d < 16) : digit d = Nat.digitChar d := by
  have all : ∀ d : Fin 16, digit d = Nat.digitChar d := by
    decide
  exact all ⟨d, h⟩

/-- A number from sixteen on has one digit more than its sixteenth. -/
lemma width_of_le {n : Nat} (h : 16 ≤ n) : width n = width (n / 16) + 1 := by
  have hlog : n.log2 = (n / 16).log2 + 4 := by
    rw [Nat.log2_def, if_pos (by omega), Nat.log2_def, if_pos (by omega), Nat.log2_def,
      if_pos (by omega), Nat.log2_def, if_pos (by omega)]
    simp only [Nat.div_div_eq_div_mul]
  simp only [width, hlog]
  omega

/-- **The digits without leading zeros are the standard ones.**

**Proof sketch.** Induction on the number, which both sides divide by sixteen until one digit is
left. -/
lemma minimal_eq_toDigits (n : Nat) : minimal n = Nat.toDigits 16 n := by
  induction n using Nat.strong_induction_on with
  | h n ih =>
    have hlast := digit_eq_digitChar (Nat.mod_lt n (show 0 < 16 by decide))
    rw [Nat.toDigits_eq_if (by decide)]
    split_ifs with hn
    · have hwidth : width n = 1 := le_antisymm (width_le_of_lt_pow Nat.one_pos hn) (by simp [width])
      rw [minimal, hwidth, ← digit_eq_digitChar hn]
      simp [fixed, Nat.mod_eq_of_lt hn]
    · rw [minimal, width_of_le (by omega), fixed, hlast, ← ih (n / 16) (by omega), minimal]

/-! ## The digits of bytes -/

/-- The two digits of a byte. -/
def byteDigits (b : UInt8) : List Char :=
  [Nat.digitChar (b.toNat / 16), Nat.digitChar (b.toNat % 16)]

/-- A byte is written in two digits. -/
lemma fixed_two (b : UInt8) : fixed 2 b.toNat = byteDigits b := by
  have hb := b.toNat_lt
  simp only [fixed, byteDigits, List.nil_append, List.singleton_append]
  rw [digit_eq_digitChar (by omega), digit_eq_digitChar (by omega),
    Nat.mod_eq_of_lt (show b.toNat / 16 < 16 by omega)]

/-- **The digits of a number show its bytes**, the last and most significant one first.

**Proof sketch.** Induction on the bytes. The first byte makes up the last two digits, and the
others make up the number divided by `256`. -/
lemma fixed_value (bs : List UInt8) :
    fixed (2 * bs.length) (Bytes.value bs) = bs.reverse.flatMap byteDigits := by
  induction bs with
  | nil => rfl
  | cons b bs ih =>
    have hb := b.toNat_lt
    have hrest : (b.toNat + 256 * Bytes.value bs) / 16 / 16 = Bytes.value bs := by
      omega
    have hhigh : (b.toNat + 256 * Bytes.value bs) / 16 % 16 = b.toNat / 16 % 16 := by
      omega
    have hlow : (b.toNat + 256 * Bytes.value bs) % 16 = b.toNat % 16 := by
      omega
    rw [List.reverse_cons, List.flatMap_append, List.flatMap_singleton, ← ih, ← fixed_two,
      List.length_cons, Nat.mul_succ, Bytes.value]
    simp only [fixed, hrest, hhigh, hlow, List.append_assoc, List.nil_append]

end VaxListing.Hex
