import VaxListing.Opcode.Table
import VaxListing.Operand

set_option relaxedAutoImplicit false
set_option autoImplicit false

/-!
# Instructions

An instruction as it stands in the code, its text in a listing, and its decoding. A code that is no
opcode is an instruction too: it takes the bytes of its opcode and is listed as data.

## Main definitions

* `VaxListing.Instruction` — an instruction, where it stands and which bytes it takes.
* `VaxListing.Instruction.text` — the instruction in a listing.
* `VaxListing.Instruction.decode` — the instruction at the program counter.
-/

namespace VaxListing

/-- What an instruction says. -/
inductive InstructionBody where
  /-- A defined opcode and its operands. -/
  | known (opcode : Opcode) (operands : List Operand)
  /-- A code that is no opcode. -/
  | unknown (code : UInt16)
  deriving DecidableEq, Repr

/-- An instruction as it stands in the code. -/
structure Instruction where
  /-- The address of its first byte. -/
  start : Address
  /-- The address behind its last byte. -/
  stop : Address
  /-- Its bytes. -/
  bytes : List UInt8
  /-- What it says. -/
  body : InstructionBody
  deriving DecidableEq, Repr

/-- The instruction in a listing: the mnemonic, a space, and the operands divided by commas. -/
def InstructionBody.text : InstructionBody → String
  | known opcode [] => opcode.mnemonic
  | known opcode operands =>
    opcode.mnemonic ++ " " ++ ",".intercalate (operands.map Operand.text)
  | unknown code => ".word " ++ Hex.text code.toNat

namespace Instruction

/-- The instruction in a listing. -/
def text (i : Instruction) : String :=
  i.body.text

/-- The defined opcode, if it is one. -/
def opcode? (i : Instruction) : Option Opcode :=
  match i.body with
  | .known opcode _ => some opcode
  | .unknown _ => none

/-- Fetches an opcode of one byte or, after an escape byte, of two. -/
def decodeCode (m : Memory) : Decoder UInt16 := do
  let first ← m.fetchByte
  if Opcode.isEscape first then
    let second ← m.fetchByte
    return .ofNat (first.toNat * 256 + second.toNat)
  else
    return first.toUInt16

/-- Decodes what follows the opcode of an instruction that starts at a given address. -/
def decodeBody (m : Memory) (start : Address) (code : UInt16) : Decoder InstructionBody := do
  match Opcode.find? code with
  | some opcode => return .known opcode (← Operand.decodeAll m opcode.operands)
  | none =>
    Decoder.note (.unknownOpcode code start)
    return .unknown code

/-- Decodes an instruction. -/
def decode (m : Memory) : Decoder Instruction := do
  let start ← Decoder.pc
  let code ← decodeCode m
  let body ← decodeBody m start code
  let stop ← Decoder.pc
  let bytes ← Decoder.ofExcept (m.slice start (stop - start).toNat)
  return { start, stop, bytes, body }

end Instruction

end VaxListing
