import VaxListing.Register

set_option relaxedAutoImplicit false
set_option autoImplicit false

/-!
# Addressing modes

The first byte of a general operand is its mode byte. The high half of the byte selects the
addressing mode and the low half mostly selects a register. One mode, the indexed one, announces
that the mode byte of another operand follows; all others are base modes and end the chain.

With the program counter as the register, autoincrement reads the constant that follows in the
code, so these two combinations are modes with names of their own, `immediate` and `absolute`.

## Main definitions

* `VaxListing.BaseMode` — a mode that says by itself where the value is found.
* `VaxListing.AddressingMode` — a base mode or an index.
* `VaxListing.AddressingMode.classify` — the mode that a mode byte announces.
* `VaxListing.BaseMode.extensionSize` — how many bytes of the code belong to the operand after
  its mode byte.
-/

namespace VaxListing

/-- The width of the displacement behind a mode byte. -/
inductive DisplacementWidth where
  /-- A displacement of one byte. -/
  | byte
  /-- A displacement of two bytes. -/
  | word
  /-- A displacement of four bytes. -/
  | long
  deriving DecidableEq, Repr

/-- The number of bytes of the displacement. -/
def DisplacementWidth.size : DisplacementWidth → Nat
  | byte => 1
  | word => 2
  | long => 4

/-- A mode that says by itself where the value of an operand is found. -/
inductive BaseMode where
  /-- The value is the six-bit number in the mode byte itself. -/
  | shortLiteral (value : Fin 64)
  /-- The value is in the register. -/
  | register (r : Register)
  /-- The register holds the address of the value. -/
  | registerDeferred (r : Register)
  /-- As `registerDeferred`, after counting the register down. -/
  | autodecrement (r : Register)
  /-- As `registerDeferred`, counting the register up afterwards. -/
  | autoincrement (r : Register)
  /-- The value follows in the code. -/
  | immediate
  /-- The register holds the address of the address, and is counted up afterwards. -/
  | autoincrementDeferred (r : Register)
  /-- The address of the value follows in the code. -/
  | absolute
  /-- The address is the register plus a displacement that follows in the code; if `deferred`, the
  address of the value is found there. -/
  | displacement (width : DisplacementWidth) (r : Register) (deferred : Bool)
  deriving DecidableEq, Repr

/-- What a mode byte announces. -/
inductive AddressingMode where
  /-- The operand that follows, indexed by the register. -/
  | indexed (r : Register)
  /-- The base of the operand. -/
  | base (mode : BaseMode)
  deriving DecidableEq, Repr

namespace BaseMode

/-- The mode's name. -/
def name : BaseMode → String
  | shortLiteral _ => "short literal"
  | register _ => "register"
  | registerDeferred _ => "register deferred"
  | autodecrement _ => "autodecrement"
  | autoincrement _ => "autoincrement"
  | immediate => "immediate"
  | autoincrementDeferred _ => "autoincrement deferred"
  | absolute => "absolute"
  | displacement _ _ false => "displacement"
  | displacement _ _ true => "displacement deferred"

/-- The number of bytes that follow the mode byte, for a value of `size` bytes. -/
def extensionSize (size : Nat) : BaseMode → Nat
  | immediate => size
  | absolute => 4
  | displacement width _ _ => width.size
  | _ => 0

end BaseMode

namespace AddressingMode

/-- The mode's name. -/
def name : AddressingMode → String
  | indexed _ => "indexed"
  | base mode => mode.name

/-- The number of bytes that follow the mode byte and belong to its own mode, for a value of `size`
bytes. The operand behind an index is not counted. -/
def extensionSize (size : Nat) : AddressingMode → Nat
  | indexed _ => 0
  | base mode => mode.extensionSize size

/-- The mode that a mode byte announces. -/
def classify (byte : UInt8) : AddressingMode :=
  let r := Register.ofNibble byte
  match byte.toNat / 16 with
  | 0 | 1 | 2 | 3 => .base (.shortLiteral ⟨byte.toNat % 64, Nat.mod_lt _ (by decide)⟩)
  | 4 => .indexed r
  | 5 => .base (.register r)
  | 6 => .base (.registerDeferred r)
  | 7 => .base (.autodecrement r)
  | 8 => .base (if r.isPc then .immediate else .autoincrement r)
  | 9 => .base (if r.isPc then .absolute else .autoincrementDeferred r)
  | 10 => .base (.displacement .byte r false)
  | 11 => .base (.displacement .byte r true)
  | 12 => .base (.displacement .word r false)
  | 13 => .base (.displacement .word r true)
  | 14 => .base (.displacement .long r false)
  | _ => .base (.displacement .long r true)

end AddressingMode

end VaxListing
