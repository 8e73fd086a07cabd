set_option relaxedAutoImplicit false
set_option autoImplicit false

/-!
# Hexadecimal text

Addresses, opcodes and constants appear in a listing as lower-case hexadecimal numbers. Every form
used by the library is an instance of one digit string, `Hex.fixed`, which writes a number in a
given count of digits.

## Main definitions

* `VaxListing.Hex.fixed` — the last `w` hexadecimal digits of a number.
* `VaxListing.Hex.minimal` — a number without leading zeros.
* `VaxListing.Hex.padded` — a number in at least `w` digits, filled up with zeros.
* `VaxListing.Hex.text`, `VaxListing.Hex.paddedText` — the same behind the marker `0x`.

## Main results

* `VaxListing.Hex.length_fixed` — `fixed w n` has exactly `w` digits.
-/

namespace VaxListing.Hex

/-- The lower-case digit that stands for a number below sixteen. -/
def digit (n : Nat) : Char :=
  if n < 10 then Char.ofNat (48 + n) else Char.ofNat (87 + n)

/-- The last `w` hexadecimal digits of `n`, most significant first, leading zeros included. -/
def fixed : Nat → Nat → List Char
  | 0, _ => []
  | w + 1, n => fixed w (n / 16) ++ [digit (n % 16)]

/-- The fewest digits in which `n` can be written; zero takes one. -/
def width (n : Nat) : Nat :=
  n.log2 / 4 + 1

/-- The digits of `n` without leading zeros; zero is the single digit `0`. -/
def minimal (n : Nat) : List Char :=
  fixed (width n) n

/-- The digits of `n`, filled up with zeros on the left to at least `w` of them. -/
def padded (w n : Nat) : List Char :=
  fixed (max w (width n)) n

/-- The number `n` as `0x` and its digits without leading zeros. -/
def text (n : Nat) : String :=
  "0x" ++ String.ofList (minimal n)

/-- The number `n` as `0x` and at least `w` digits. -/
def paddedText (w n : Nat) : String :=
  "0x" ++ String.ofList (padded w n)

@[simp]
theorem length_fixed (w n : Nat) : (fixed w n).length = w := by
  induction w generalizing n with
  | zero => rfl
  | succ w ih => simp [fixed, ih]

end VaxListing.Hex
