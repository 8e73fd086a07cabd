import VaxListing.Operand

set_option relaxedAutoImplicit false
set_option autoImplicit false

/-!
# The bytes of an operand

The other direction of decoding: the bytes that stand for an operand in the code.

## Main definitions

* `VaxListing.AddressingMode.byte` — the mode byte of a mode.
* `VaxListing.Specifier.encode`, `VaxListing.OperandForm.encode` — the bytes of an operand.
* `VaxListing.Specifier.WellFormed`, `VaxListing.OperandForm.WellFormed` — the operands that have
  bytes of their own.

## Main results

* `VaxListing.AddressingMode.byte_classify` — a mode byte is the byte of the mode it announces.
* `VaxListing.AddressingMode.classify_byte` — the byte of a well-formed mode announces that mode.

## Design

Autoincrement on the program counter has no byte of its own: the byte it would have announces the
immediate mode. The same holds for autoincrement deferred and the absolute mode. An extension must
fit the bytes that its mode takes from the code.
-/

namespace VaxListing

/-- The byte with a number in its high half and a register in its low half. -/
def Register.inByte (r : Register) (high : Nat) : UInt8 :=
  .ofNat (16 * high + r.number)

namespace BaseMode

/-- The mode byte of a base mode. -/
def byte : BaseMode → UInt8
  | shortLiteral value => .ofNat value
  | register r => r.inByte 5
  | registerDeferred r => r.inByte 6
  | autodecrement r => r.inByte 7
  | autoincrement r => r.inByte 8
  | immediate => 0x8f
  | autoincrementDeferred r => r.inByte 9
  | absolute => 0x9f
  | displacement .byte r deferred => r.inByte (if deferred then 11 else 10)
  | displacement .word r deferred => r.inByte (if deferred then 13 else 12)
  | displacement .long r deferred => r.inByte (if deferred then 15 else 14)

/-- Whether the mode has a byte of its own. -/
def WellFormed : BaseMode → Prop
  | autoincrement r | autoincrementDeferred r => r ≠ .pc
  | _ => True

instance : DecidablePred WellFormed := fun mode => by
  cases mode <;> unfold WellFormed <;> infer_instance

end BaseMode

namespace AddressingMode

/-- The mode byte of a mode. -/
def byte : AddressingMode → UInt8
  | indexed r => r.inByte 4
  | base mode => mode.byte

/-- Whether the mode has a byte of its own. -/
def WellFormed : AddressingMode → Prop
  | indexed _ => True
  | base mode => mode.WellFormed

instance : DecidablePred WellFormed := fun mode => by
  cases mode <;> unfold WellFormed <;> infer_instance

/-- A mode byte is the byte of the mode it announces. -/
theorem byte_classify (b : UInt8) : (classify b).byte = b := by
  have all : ∀ n : Fin 256, (classify (.ofNat n)).byte = .ofNat n := by
    decide +kernel
  simpa using all ⟨b.toNat, b.toNat_lt⟩

/-- The byte of a well-formed mode announces that mode. -/
theorem classify_byte {mode : AddressingMode} (h : mode.WellFormed) :
    classify mode.byte = mode := by
  revert h
  cases mode with
  | indexed r =>
    obtain ⟨n⟩ := r
    revert n
    decide
  | base mode =>
    cases mode with
    | immediate | absolute => decide
    | shortLiteral value =>
      revert value
      decide
    | displacement width r deferred =>
      obtain ⟨n⟩ := r
      revert n
      cases width <;> cases deferred <;> decide
    | register r | registerDeferred r | autodecrement r | autoincrement r
    | autoincrementDeferred r =>
      obtain ⟨n⟩ := r
      revert n
      decide

end AddressingMode

namespace Specifier

/-- The bytes of a general operand: its index bytes, its mode byte and its extension. -/
def encode (type : DataType) (s : Specifier) : List UInt8 :=
  s.indices.map (fun r => (AddressingMode.indexed r).byte) ++
    s.base.byte :: Bytes.ofValue (s.base.extensionSize type.size) s.extension

/-- Whether the operand has bytes of its own. -/
def WellFormed (type : DataType) (s : Specifier) : Prop :=
  s.base.WellFormed ∧ s.extension < Bytes.capacity (s.base.extensionSize type.size)

end Specifier

namespace OperandForm

/-- The type of the operand. -/
def type : OperandForm → OperandType
  | general type _ => .general type
  | branch width _ => .branch width

/-- The bytes of the operand. -/
def encode : OperandForm → List UInt8
  | general type specifier => specifier.encode type
  | branch width displacement => Bytes.ofValue width.size displacement

/-- Whether the operand has bytes of its own. -/
def WellFormed : OperandForm → Prop
  | general type specifier => specifier.WellFormed type
  | branch width displacement => displacement < Bytes.capacity width.size

end OperandForm

end VaxListing
