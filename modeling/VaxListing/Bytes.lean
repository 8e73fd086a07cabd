set_option relaxedAutoImplicit false
set_option autoImplicit false

/-!
# Byte strings as little-endian numbers

The machine stores the least significant byte of a number at the lowest address. This module reads
a byte string as a number, writes a number as a byte string, and widens a stored displacement to
the 32 bits of an address.

## Main definitions

* `VaxListing.Address` — a 32-bit address; its arithmetic wraps.
* `VaxListing.Bytes.value` — the number that a byte string stands for.
* `VaxListing.Bytes.ofValue` — the low bytes of a number.
* `VaxListing.Bytes.capacity` — the number of values that a count of bytes can hold.
* `VaxListing.signExtend` — a stored displacement as an offset modulo `2 ^ 32`.

## Main results

* `VaxListing.Bytes.length_ofValue` — `ofValue n v` has exactly `n` bytes.
* `VaxListing.Bytes.value_ofValue` — reading back what was written gives the number modulo the
  capacity of its bytes.
-/

namespace VaxListing

/-- A 32-bit address. Adding to an address wraps at `2 ^ 32`. -/
abbrev Address := UInt32

namespace Bytes

/-- The number that a byte string stands for, its first byte being the least significant. -/
def value : List UInt8 → Nat
  | [] => 0
  | b :: rest => b.toNat + 256 * value rest

/-- The `n` low bytes of `v`, least significant first. -/
def ofValue : Nat → Nat → List UInt8
  | 0, _ => []
  | n + 1, v => UInt8.ofNat v :: ofValue n (v / 256)

/-- The number of values that `n` bytes can hold. -/
def capacity : Nat → Nat
  | 0 => 1
  | n + 1 => 256 * capacity n

@[simp]
theorem length_ofValue (n v : Nat) : (ofValue n v).length = n := by
  induction n generalizing v with
  | zero => rfl
  | succ n ih => simp [ofValue, ih]

/-- Reading back what was written gives the number, as far as its bytes can hold it. -/
theorem value_ofValue (n v : Nat) : value (ofValue n v) = v % capacity n := by
  induction n generalizing v with
  | zero => simp [ofValue, value, capacity, Nat.mod_one]
  | succ n ih =>
    have byte : (UInt8.ofNat v).toNat = v % 256 := rfl
    rw [ofValue, value, ih, byte, capacity, Nat.mod_mul]

end Bytes

/-- A displacement of `width` bytes, read as the number `value`, as an offset to add to an address.
One and two bytes carry their sign into the upper bits; of anything longer the low 32 bits count. -/
def signExtend (width value : Nat) : Address :=
  match width with
  | 1 => if value < 0x80 then .ofNat value else .ofNat (value + 0xffffff00)
  | 2 => if value < 0x8000 then .ofNat value else .ofNat (value + 0xffff0000)
  | _ => .ofNat value

end VaxListing
