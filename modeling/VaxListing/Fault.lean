import VaxListing.Hex

set_option relaxedAutoImplicit false
set_option autoImplicit false

/-!
# Faults

Everything that can go wrong, as causes. Faults come in layers: a fault of the settings is part of
the faults of the architecture's definitions, those are part of the machine's faults, and these in
turn are part of the faults of making a listing. Each layer names itself in front of the text of
the layer below.

## Main definitions

* `VaxListing.ConfigFault` — settings that cannot be used.
* `VaxListing.ArchFault` — input that the architecture does not define.
* `VaxListing.MachineFault` — an access that the memory refuses, or a fault of the layer below.
* `VaxListing.LoadFault` — what keeps an image from being loaded.
* `VaxListing.ListingFault` — what ends a listing early.
* `message` of each layer — the fault in words.
* `causes` of each layer — the texts of the faults inside it, from the outside in.

## Design

A fault is reported to whoever asked for what could not be done. A memory that cannot be allocated
is not: the program ends at once. `LoadFault` keeps the two apart.
-/

namespace VaxListing

/-- The least number of bytes that a file header may be declared to take. -/
def minHeaderSize : Nat := 32

/-- Settings that cannot be used. -/
inductive ConfigFault where
  /-- The memory has no bytes. -/
  | zeroMemory
  /-- The header is declared shorter than a header can be. -/
  | headerTooSmall
  deriving DecidableEq, Repr

/-- Input that the architecture does not define. -/
inductive ArchFault where
  /-- The settings cannot be used. -/
  | config (fault : ConfigFault)
  /-- The header takes `expected` bytes and there are only `found`. -/
  | headerSize (expected found : Nat)
  /-- The code is no opcode. -/
  | unknownOpcode (code : UInt16)
  deriving DecidableEq, Repr

/-- An access that the memory refuses, or a fault of the architecture's definitions. -/
inductive MachineFault where
  /-- A fault of the architecture's definitions. -/
  | arch (fault : ArchFault)
  /-- An access to `size` bytes from `address` on leaves the memory. -/
  | outOfBounds (address size : Nat)
  /-- Storing `length` bytes from `offset` on leaves a memory of `capacity` bytes. -/
  | loadOverflow (offset length capacity : Nat)
  /-- No number has the given size. -/
  | readSize (size : Nat)
  deriving DecidableEq, Repr

/-- What keeps an image from being loaded. -/
inductive LoadFault where
  /-- A fault of the machine, which is reported. -/
  | machine (fault : MachineFault)
  /-- No memory of the given size can be allocated. The program ends there. -/
  | capacity (size : Nat)
  deriving DecidableEq, Repr

/-- What ends a listing early. -/
inductive ListingFault where
  /-- A fault of the machine. -/
  | machine (fault : MachineFault)
  /-- A fault of the architecture's definitions. -/
  | arch (fault : ArchFault)
  /-- The output could not be written, for the given reason. -/
  | output (reason : String)
  deriving DecidableEq, Repr

/-- The fault in words. -/
def ConfigFault.message : ConfigFault → String
  | zeroMemory => "memory_size must be non-zero"
  | headerTooSmall => s!"header_size must be at least {minHeaderSize} bytes"

namespace ArchFault

/-- The fault in words. -/
def message : ArchFault → String
  | config fault => s!"Invalid configuration: {fault.message}"
  | headerSize expected found =>
    s!"Invalid header size: expected {expected} bytes, found {found} bytes"
  | unknownOpcode code => s!"Unknown opcode: {Hex.text code.toNat}"

/-- The texts of the faults inside this one. -/
def causes : ArchFault → List String
  | config fault => [fault.message]
  | _ => []

/-- Whether the fault makes further work pointless. An undefined opcode can be stepped over. -/
def isFatal : ArchFault → Bool
  | unknownOpcode _ => false
  | _ => true

end ArchFault

namespace MachineFault

/-- The fault in words. -/
def message : MachineFault → String
  | arch fault => s!"Spec error: {fault.message}"
  | outOfBounds address size =>
    s!"Memory out of bounds: {size}-byte access at address {Hex.text address}"
  | loadOverflow offset length capacity =>
    s!"Load overflow: {length} bytes at offset {Hex.text offset} " ++
      s!"exceed memory size {Hex.text capacity}"
  | readSize size => s!"Invalid read size: {size} (expected 1, 2, 4, 8 or 16)"

/-- The texts of the faults inside this one, from the outside in. -/
def causes : MachineFault → List String
  | arch fault => fault.message :: fault.causes
  | _ => []

end MachineFault

namespace ListingFault

/-- The fault in words. -/
def message : ListingFault → String
  | machine fault => s!"Machine error: {fault.message}"
  | arch fault => s!"Spec error: {fault.message}"
  | output reason => s!"I/O error: {reason}"

/-- The texts of the faults inside this one, from the outside in. -/
def causes : ListingFault → List String
  | machine fault => fault.message :: fault.causes
  | arch fault => fault.message :: fault.causes
  | output reason => [reason]

end ListingFault

end VaxListing
