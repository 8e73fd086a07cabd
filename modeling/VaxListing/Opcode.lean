import VaxListing.Hex
import VaxListing.Operand.Type

set_option relaxedAutoImplicit false
set_option autoImplicit false

/-!
# Opcodes

An instruction begins with its opcode, one byte long or, after an escape byte, two bytes long. The
two bytes make up one code, the escape byte being the high half.

## Main definitions

* `VaxListing.Opcode` — a defined opcode: its code, its mnemonic and the operands it takes.
* `VaxListing.Opcode.isEscape` — the bytes that announce a two-byte opcode.
* `VaxListing.Opcode.widthOf` — the number of bytes of a code.
* `VaxListing.Opcode.minLength` — the length of the shortest instruction with the opcode.
-/

namespace VaxListing

/-- A defined opcode. -/
structure Opcode where
  /-- The opcode's number; above `0xff` the high half is an escape byte. -/
  code : UInt16
  /-- The instruction's name in a listing. -/
  mnemonic : String
  /-- What the instruction expects in its operand positions, in order. -/
  operands : List OperandType
  deriving DecidableEq, Repr

namespace Opcode

/-- The opcode of the instruction that does nothing. -/
def nop : UInt8 := 0x01

/-- The escape byte of the extended instructions. -/
def extendedEscape : UInt8 := 0xfd

/-- The escape byte of the instructions that report a fault of the system software. -/
def bugcheckEscape : UInt8 := 0xff

/-- Whether a byte announces an opcode of two bytes. -/
def isEscape (byte : UInt8) : Bool :=
  byte == extendedEscape || byte == bugcheckEscape

/-- The number of bytes that a code takes. -/
def widthOf (code : UInt16) : Nat :=
  if code > 0xff then 2 else 1

/-- The number of bytes that the opcode takes. -/
def width (op : Opcode) : Nat :=
  widthOf op.code

/-- The length of the shortest instruction with this opcode: each branch operand takes its
displacement, and each general operand at least its mode byte. -/
def minLength (op : Opcode) : Nat :=
  op.operands.foldl (fun n type => n + if type.isBranch then type.size else 1) op.width

/-- The abbreviations of the operand types in a row. -/
def signature (op : Opcode) : String :=
  String.ofList (op.operands.map OperandType.code)

/-- The opcode as one line of an instruction table: code, mnemonic and signature. -/
def describe (op : Opcode) : String :=
  Hex.paddedText 4 op.code.toNat ++ " " ++ op.mnemonic ++ " " ++ op.signature

end Opcode

end VaxListing
