import VaxListing.Instruction
import VaxListing.Operand.Encoding

set_option relaxedAutoImplicit false
set_option autoImplicit false

/-!
# The bytes of an instruction

## Main definitions

* `VaxListing.Opcode.bytesOf` — the bytes of a code.
* `VaxListing.InstructionBody.encode` — the bytes of an instruction.
-/

namespace VaxListing

/-- The bytes of a code: one, or the escape byte and another. -/
def Opcode.bytesOf (code : UInt16) : List UInt8 :=
  if code > 0xff then [(code >>> 8).toUInt8, code.toUInt8] else [code.toUInt8]

/-- The bytes of an instruction: its opcode and its operands, one after another. -/
def InstructionBody.encode : InstructionBody → List UInt8
  | known opcode operands =>
    Opcode.bytesOf opcode.code ++ operands.flatMap fun operand => operand.form.encode
  | unknown code => Opcode.bytesOf code

end VaxListing
