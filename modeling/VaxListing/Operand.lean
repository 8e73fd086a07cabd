import VaxListing.Cursor
import VaxListing.Operand.Type

set_option relaxedAutoImplicit false
set_option autoImplicit false

/-!
# Operands

An operand as it stands in the code, its text in a listing, and its decoding.

A general operand is a chain of index bytes, one base mode byte, and the bytes that the base mode
takes from the code. The indices are written after the base, the innermost first: the bytes
`41 42 50` are the operand `r0[r2][r1]`.

## Main definitions

* `VaxListing.Specifier` — the parts of a general operand.
* `VaxListing.Operand` — an operand of either kind, with the address behind it.
* `VaxListing.Operand.text` — the operand in a listing.
* `VaxListing.Operand.decode` — the operand of a given type at the program counter.

## Design

Decoding gives the parts of the operand, and the text is made from the parts. The address behind
the operand belongs to it, because operands relative to the code show the address they lead to.

The chain of index bytes is walked by a loop of at most `2 ^ 32` rounds. Below `2 ^ 32` bytes of
memory every chain leaves the memory or meets a base mode before that. In a larger memory the
program counter has come round to its first position after as many rounds, so a chain that has not
ended by then never ends; it is cut off there as an access out of bounds.
-/

namespace VaxListing

/-- The parts of a general operand. -/
structure Specifier where
  /-- The index registers, outermost first, which is the order of their bytes in the code. -/
  indices : List Register
  /-- The mode that ends the chain of indices. -/
  base : BaseMode
  /-- The number made up by the bytes behind the mode byte; zero if there are none. -/
  extension : Nat
  deriving DecidableEq, Repr

/-- What an operand says. -/
inductive OperandForm where
  /-- A value of a data type, found as the specifier says. -/
  | general (type : DataType) (specifier : Specifier)
  /-- A branch by a displacement, given as the number stored in the code. -/
  | branch (width : BranchWidth) (displacement : Nat)
  deriving DecidableEq, Repr

/-- An operand as it stands in the code. -/
structure Operand where
  /-- What the operand says. -/
  form : OperandForm
  /-- The address behind the operand. -/
  stop : Address
  deriving DecidableEq, Repr

namespace Specifier

/-- The mode that the first mode byte announces. -/
def mode (s : Specifier) : AddressingMode :=
  match s.indices with
  | [] => .base s.base
  | r :: _ => .indexed r

/-- The base of the operand in a listing: the value, or where it is found. -/
def baseText (type : DataType) (stop : Address) (s : Specifier) : String :=
  match s.base with
  | .shortLiteral value => "$" ++ Hex.text value ++ type.suffix
  | .register r => r.name
  | .registerDeferred r => "(" ++ r.name ++ ")"
  | .autodecrement r => "-(" ++ r.name ++ ")"
  | .autoincrement r => "(" ++ r.name ++ ")+"
  | .immediate => "$" ++ Hex.paddedText (2 * type.size) s.extension ++ type.suffix
  | .autoincrementDeferred r => "@(" ++ r.name ++ ")+"
  | .absolute => "*" ++ Hex.text s.extension
  | .displacement width r deferred =>
    let offset := signExtend width.size s.extension
    (if deferred then "*" else "") ++
      if r.isPc then Hex.text (stop + offset).toNat
      else Hex.text offset.toNat ++ "(" ++ r.name ++ ")"

/-- The indices in a listing, innermost first. -/
def indexText (s : Specifier) : String :=
  String.join (s.indices.reverse.map fun r => "[" ++ r.name ++ "]")

/-- The operand in a listing. -/
def text (type : DataType) (stop : Address) (s : Specifier) : String :=
  s.baseText type stop ++ s.indexText

/-- Walks the chain of index bytes up to the base mode byte, for at most a number of rounds. The
registers met before are in `seen`, the last one first. -/
def decodeChain (m : Memory) : Nat → List Register → Decoder (List Register × BaseMode)
  | 0, _ => do
    let address ← Decoder.pc
    throw (.outOfBounds address.toNat 1)
  | rounds + 1, seen => do
    match AddressingMode.classify (← m.fetchModeByte) with
    | .indexed r => decodeChain m rounds (r :: seen)
    | .base mode => return (seen.reverse, mode)

/-- Fetches what a base mode takes from the code behind its mode byte, as a number. -/
def decodeExtension (m : Memory) (type : DataType) : BaseMode → Decoder Nat
  | .immediate => m.fetch type.size
  | .absolute => m.fetch 4
  | .displacement width _ _ => m.fetch width.size
  | _ => return 0

/-- Decodes a general operand. -/
def decode (m : Memory) (type : DataType) : Decoder Specifier := do
  let (indices, base) ← decodeChain m UInt32.size []
  let extension ← decodeExtension m type base
  return { indices, base, extension }

end Specifier

namespace Operand

/-- The operand in a listing. -/
def text (op : Operand) : String :=
  match op.form with
  | .general type specifier => specifier.text type op.stop
  | .branch width displacement =>
    Hex.text (op.stop + signExtend width.size displacement).toNat

/-- The mode that the operand's first byte announces; a branch has none. -/
def mode? (op : Operand) : Option AddressingMode :=
  match op.form with
  | .general _ specifier => some specifier.mode
  | .branch .. => none

/-- Decodes an operand of a given type. -/
def decode (m : Memory) (type : OperandType) : Decoder Operand := do
  let form ← match type with
    | .general type => OperandForm.general type <$> Specifier.decode m type
    | .branch width => OperandForm.branch width <$> m.fetch width.size
  let stop ← Decoder.pc
  return { form, stop }

/-- Decodes operands of the given types, one after another. -/
def decodeAll (m : Memory) : List OperandType → Decoder (List Operand)
  | [] => return []
  | type :: types => do
    let operand ← decode m type
    let operands ← decodeAll m types
    return operand :: operands

end Operand

end VaxListing
