import VaxListing.Bytes
import VaxListing.Fault

set_option relaxedAutoImplicit false
set_option autoImplicit false

/-!
# Memory

A memory is a row of bytes at the addresses from zero on. It never changes its size. An access that
would leave it is refused as a whole: nothing is read and nothing is stored.

## Main definitions

* `VaxListing.Memory` — the bytes of an address space.
* `VaxListing.Memory.allocate?` — a new memory, if there can be one of the given size.
* `VaxListing.Memory.load` — storing a byte string.
* `VaxListing.Memory.slice` — the bytes of a range of addresses.
* `VaxListing.Memory.readByte`, `VaxListing.Memory.read` — the number stored at an address.

## Main results

* `VaxListing.Memory.size_zeroed`, `VaxListing.Memory.size_ofList` — the size of a new memory.
* `VaxListing.Memory.size_load` — storing bytes keeps the size.
* `VaxListing.Memory.toList_load` — storing bytes replaces exactly the bytes of their range.
* `VaxListing.Memory.slice_eq` — a slice is a segment of the bytes, or out of bounds.

## Design

Addresses are 32-bit words, sizes and offsets are natural numbers, and a range is inside the memory
when its end, computed without wrap-around, is at most the size. A memory may hold more bytes than
addresses can reach.
-/

namespace VaxListing

/-- The bytes of an address space. -/
structure Memory where
  /-- The bytes, in the order of their addresses. -/
  bytes : Array UInt8
  deriving DecidableEq

namespace Memory

/-- A memory of a given size in which every byte is zero. -/
def zeroed (size : Nat) : Memory :=
  ⟨Array.replicate size 0⟩

/-- The largest size of a memory that can be allocated, one byte less than `2 ^ 63`. -/
def maxSize : Nat := 0x7fffffffffffffff

/-- A new memory of a given size, in which every byte is zero. Beyond the largest size there is
none. -/
def allocate? (size : Nat) : Option Memory :=
  if size ≤ maxSize then some (zeroed size) else none

/-- The memory that holds exactly the given bytes. -/
def ofList (bytes : List UInt8) : Memory :=
  ⟨bytes.toArray⟩

/-- The number of bytes. -/
def size (m : Memory) : Nat :=
  m.bytes.size

/-- The bytes, in the order of their addresses. -/
def toList (m : Memory) : List UInt8 :=
  m.bytes.toList

/-- The memory with `data` stored from `offset` on. -/
def load (m : Memory) (data : List UInt8) (offset : Nat) : Except MachineFault Memory :=
  if offset + data.length ≤ m.size then
    .ok ⟨m.bytes.extract 0 offset ++ data.toArray ++
      m.bytes.extract (offset + data.length) m.size⟩
  else
    .error (.loadOverflow offset data.length m.size)

/-- The `length` bytes from `address` on. -/
def slice (m : Memory) (address : Address) (length : Nat) : Except MachineFault (List UInt8) :=
  if address.toNat + length ≤ m.size then
    .ok (m.bytes.extract address.toNat (address.toNat + length)).toList
  else
    .error (.outOfBounds address.toNat length)

/-- The byte at an address. -/
def readByte (m : Memory) (address : Address) : Except MachineFault UInt8 :=
  match m.bytes[address.toNat]? with
  | some byte => .ok byte
  | none => .error (.outOfBounds address.toNat 1)

/-- The sizes that a stored number can have. -/
def isReadSize (size : Nat) : Bool :=
  size == 1 || size == 2 || size == 4 || size == 8 || size == 16

/-- The number of `size` bytes stored at an address, least significant byte first. A size that no
number has is refused before the address is looked at. -/
def read (m : Memory) (address : Address) (size : Nat) : Except MachineFault Nat :=
  if isReadSize size then
    (m.slice address size).map Bytes.value
  else
    .error (.readSize size)

@[simp]
theorem size_zeroed (size : Nat) : (zeroed size).size = size := by
  simp [zeroed, Memory.size]

@[simp]
theorem size_ofList (bytes : List UInt8) : (ofList bytes).size = bytes.length := by
  simp [ofList, Memory.size]

theorem size_load {m m' : Memory} {data : List UInt8} {offset : Nat}
    (h : m.load data offset = .ok m') : m'.size = m.size := by
  unfold load at h
  split at h
  · rename_i fits
    cases h
    simp [Memory.size] at fits ⊢
    omega
  · cases h

@[simp]
theorem length_toList (m : Memory) : m.toList.length = m.size := by
  simp [toList, size]

/-- Storing is refused exactly when the range would leave the memory. -/
theorem exists_load_eq_ok_iff {m : Memory} {data : List UInt8} {offset : Nat} :
    (∃ m', m.load data offset = .ok m') ↔ offset + data.length ≤ m.size := by
  unfold load
  split <;> simp_all

/-- Storing replaces exactly the bytes of its range. -/
theorem toList_load {m m' : Memory} {data : List UInt8} {offset : Nat}
    (h : m.load data offset = .ok m') :
    m'.toList = m.toList.take offset ++ data ++ m.toList.drop (offset + data.length) := by
  unfold load at h
  split at h
  · cases h
    simp [toList, size, List.extract_eq_take_drop, List.take_of_length_le]
  · cases h

/-- A slice is a segment of the bytes, or out of bounds. -/
theorem slice_eq (m : Memory) (address : Address) (length : Nat) :
    m.slice address length =
      if address.toNat + length ≤ m.size then
        .ok ((m.toList.drop address.toNat).take length)
      else .error (.outOfBounds address.toNat length) := by
  unfold slice toList
  split
  · simp [List.extract_eq_take_drop]
  · rfl

end Memory

end VaxListing
