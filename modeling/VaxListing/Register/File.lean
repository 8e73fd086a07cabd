import VaxListing.Bytes
import VaxListing.Register

set_option relaxedAutoImplicit false
set_option autoImplicit false

/-!
# The register file

The contents of the sixteen registers, each of 32 bits. The program counter is one of them, so
moving it and writing register 15 are the same thing.

## Main definitions

* `VaxListing.RegisterFile` — the contents of all registers.
* `VaxListing.RegisterFile.get`, `VaxListing.RegisterFile.set` — reading and writing one register.
* `VaxListing.RegisterFile.advancePc` — moving the program counter forward, modulo `2 ^ 32`.

## Main results

* `VaxListing.RegisterFile.get_zeroed`, `VaxListing.RegisterFile.get_set_self`,
  `VaxListing.RegisterFile.get_set_of_ne` — what a register holds in a new register file and after
  a write.
* `VaxListing.RegisterFile.advancePc_setPc` — setting the program counter and moving it forward.
-/

namespace VaxListing

/-- The contents of the sixteen registers. -/
structure RegisterFile where
  /-- The contents, in the order of the register numbers. -/
  values : Vector UInt32 16
  deriving DecidableEq, Repr

namespace RegisterFile

/-- A register file in which every register holds zero. -/
def zeroed : RegisterFile :=
  ⟨Vector.replicate 16 0⟩

/-- The contents of one register. -/
def get (f : RegisterFile) (r : Register) : UInt32 :=
  f.values[r.number]

/-- The register file with one register overwritten. -/
def set (f : RegisterFile) (r : Register) (value : UInt32) : RegisterFile :=
  ⟨f.values.set r.number value⟩

/-- The program counter. -/
def pc (f : RegisterFile) : Address :=
  f.get .pc

/-- The register file with the program counter moved to an address. -/
def setPc (f : RegisterFile) (address : Address) : RegisterFile :=
  f.set .pc address

/-- The register file with the program counter moved forward over `count` bytes. -/
def advancePc (f : RegisterFile) (count : Nat) : RegisterFile :=
  f.setPc (f.pc + .ofNat count)

/-- The contents of all registers, in the order of their numbers. -/
def toList (f : RegisterFile) : List UInt32 :=
  f.values.toList

@[simp]
theorem get_zeroed (r : Register) : zeroed.get r = 0 := by
  simp [get, zeroed]

@[simp]
theorem get_set_self (f : RegisterFile) (r : Register) (value : UInt32) :
    (f.set r value).get r = value := by
  simp [get, set]

theorem get_set_of_ne (f : RegisterFile) {r s : Register} (h : s ≠ r) (value : UInt32) :
    (f.set r value).get s = f.get s := by
  have distinct : (r.number : Nat) ≠ s.number := fun e =>
    h (by cases r; cases s; simp_all [Fin.ext_iff])
  simp [get, set, Vector.getElem_set_ne _ _ distinct]

@[simp]
theorem pc_setPc (f : RegisterFile) (address : Address) : (f.setPc address).pc = address :=
  f.get_set_self .pc address

/-- Moving the program counter to an address and then forward is moving it to the later address. -/
theorem advancePc_setPc (f : RegisterFile) (address : Address) (count : Nat) :
    (f.setPc address).advancePc count = f.setPc (address + .ofNat count) := by
  rw [advancePc, pc_setPc]
  simp [setPc, set]

end RegisterFile

end VaxListing
