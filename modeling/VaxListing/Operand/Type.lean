set_option relaxedAutoImplicit false
set_option autoImplicit false

/-!
# Operand types

What an instruction expects in one of its operand positions. A general operand stands for a value
of some data type and says by itself where the value is found. A branch operand is a displacement
in the code itself and is never anything else.

## Main definitions

* `VaxListing.DataType` — the type of the value behind a general operand.
* `VaxListing.BranchWidth` — the width of a branch displacement.
* `VaxListing.OperandType` — either of them.
* `VaxListing.OperandType.code` — the one-character abbreviation used in operand signatures.
-/

namespace VaxListing

/-- The type of the value behind a general operand. -/
inductive DataType where
  /-- An integer of one byte. -/
  | byte
  /-- An integer of two bytes. -/
  | word
  /-- An integer of four bytes. -/
  | long
  /-- An integer of eight bytes. -/
  | quad
  /-- An integer of sixteen bytes. -/
  | octa
  /-- A floating-point number of four bytes. -/
  | fFloat
  /-- A floating-point number of eight bytes with a short exponent. -/
  | dFloat
  /-- A floating-point number of eight bytes with a long exponent. -/
  | gFloat
  /-- A floating-point number of sixteen bytes. -/
  | hFloat
  deriving DecidableEq, Repr

namespace DataType

/-- The number of bytes that a value of the type takes. -/
def size : DataType → Nat
  | byte => 1
  | word => 2
  | long | fFloat => 4
  | quad | dFloat | gFloat => 8
  | octa | hFloat => 16

/-- Whether values of the type are floating-point numbers. -/
def isFloat : DataType → Bool
  | fFloat | dFloat | gFloat | hFloat => true
  | _ => false

/-- The remark after a constant of the type in a listing; integers need none. -/
def suffix : DataType → String
  | fFloat => " [f-float]"
  | dFloat => " [d-float]"
  | gFloat => " [g-float]"
  | hFloat => " [h-float]"
  | _ => ""

end DataType

/-- The width of a branch displacement. -/
inductive BranchWidth where
  /-- A displacement of one byte. -/
  | byte
  /-- A displacement of two bytes. -/
  | word
  deriving DecidableEq, Repr

/-- The number of bytes of a branch displacement. -/
def BranchWidth.size : BranchWidth → Nat
  | byte => 1
  | word => 2

/-- What an instruction expects in one of its operand positions. -/
inductive OperandType where
  /-- An operand that says where a value of the given type is found. -/
  | general (type : DataType)
  /-- A displacement in the code, of the given width. -/
  | branch (width : BranchWidth)
  deriving DecidableEq, Repr

namespace OperandType

/-- All operand types. -/
def all : List OperandType :=
  [.general .byte, .general .word, .general .long, .general .quad, .general .octa,
    .general .fFloat, .general .dFloat, .general .gFloat, .general .hFloat,
    .branch .byte, .branch .word]

/-- The number of bytes of the value, or of the branch displacement. -/
def size : OperandType → Nat
  | general type => type.size
  | branch width => width.size

/-- Whether this is a branch displacement. -/
def isBranch : OperandType → Bool
  | general _ => false
  | branch _ => true

/-- Whether the value is a floating-point number. -/
def isFloat : OperandType → Bool
  | general type => type.isFloat
  | branch _ => false

/-- The remark after a constant of the type in a listing. -/
def suffix : OperandType → String
  | general type => type.suffix
  | branch _ => ""

/-- The one-character abbreviation of the type. -/
def code : OperandType → Char
  | general .byte => 'b'
  | general .word => 'w'
  | general .long => 'l'
  | general .quad => 'q'
  | general .octa => 'o'
  | general .fFloat => 'f'
  | general .dFloat => 'd'
  | general .gFloat => 'g'
  | general .hFloat => 'h'
  | branch .byte => '1'
  | branch .word => '2'

/-- The type with a given abbreviation, if there is one. -/
def ofCode? (code : Char) : Option OperandType :=
  all.find? (·.code == code)

/-- The type's full name. -/
def label : OperandType → String
  | general .byte => "Byte"
  | general .word => "Word"
  | general .long => "Long"
  | general .quad => "Quad"
  | general .octa => "Octa"
  | general .fFloat => "FFloat"
  | general .dFloat => "DFloat"
  | general .gFloat => "GFloat"
  | general .hFloat => "HFloat"
  | branch .byte => "Branch8"
  | branch .word => "Branch16"

/-- The type with a given full name, if there is one. -/
def ofLabel? (label : String) : Option OperandType :=
  all.find? (·.label == label)

end OperandType

end VaxListing
