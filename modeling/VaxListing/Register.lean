set_option relaxedAutoImplicit false
set_option autoImplicit false

/-!
# The general registers

The machine has sixteen general registers. The last four have names of their own, and the very
last is the program counter, so that operands relative to it are relative to the code itself.

## Main definitions

* `VaxListing.Register` — one of the sixteen registers.
* `VaxListing.Register.name` — its name in a listing.
* `VaxListing.Register.ofNibble` — the register that the low half of a byte selects.
-/

namespace VaxListing

/-- One of the sixteen general registers. -/
structure Register where
  /-- The register's number. -/
  number : Fin 16
  deriving DecidableEq, Repr

namespace Register

/-- The number of general registers. -/
def count : Nat := 16

/-- The argument pointer. -/
def ap : Register := ⟨12⟩

/-- The frame pointer. -/
def fp : Register := ⟨13⟩

/-- The stack pointer. -/
def sp : Register := ⟨14⟩

/-- The program counter. -/
def pc : Register := ⟨15⟩

/-- All registers, in the order of their numbers. -/
def all : List Register :=
  (List.finRange 16).map Register.mk

/-- The register with a given number, if there is one. -/
def ofNumber? (n : Nat) : Option Register :=
  if h : n < 16 then some ⟨⟨n, h⟩⟩ else none

/-- The register that the low four bits of a byte select. -/
def ofNibble (byte : UInt8) : Register :=
  ⟨⟨byte.toNat % 16, Nat.mod_lt _ (by decide)⟩⟩

/-- Whether this is the program counter. -/
def isPc (r : Register) : Bool :=
  r == pc

/-- The register's name in a listing: `r0` to `r11`, then `ap`, `fp`, `sp` and `pc`. -/
def name (r : Register) : String :=
  match r.number with
  | 12 => "ap"
  | 13 => "fp"
  | 14 => "sp"
  | 15 => "pc"
  | n => "r" ++ Nat.repr n

/-- The register's plain numbered label, `R0` to `R15`. -/
def label (r : Register) : String :=
  "R" ++ Nat.repr r.number

/-- The register with a given label, if there is one. -/
def ofLabel? (label : String) : Option Register :=
  all.find? (·.label == label)

end Register

end VaxListing
