import VaxListing.Instruction

set_option relaxedAutoImplicit false
set_option autoImplicit false

/-!
# Rows of a listing

An instruction takes one row for every four of its bytes. Each row shows the address of its first
byte and the bytes in hexadecimal; the first row also shows the text of the instruction, in a column
of its own.

## Main definitions

* `VaxListing.Listing.rows` — the rows for a byte string with a text.
* `VaxListing.Instruction.rows` — the rows of an instruction.
-/

namespace VaxListing

namespace Listing

/-- The number of bytes in a full row. -/
def bytesPerRow : Nat := 4

/-- The address at the beginning of a row, right-aligned in at least four columns. -/
def addressText (address : Address) : String :=
  String.ofList ((Hex.minimal address.toNat).leftpad 4 ' ') ++ ":\t"

/-- The bytes of a row, each as two digits and a space. -/
def byteText (bytes : List UInt8) : String :=
  String.ofList (bytes.flatMap fun b => Hex.fixed 2 b.toNat ++ [' '])

/-- A row without text. -/
def row (address : Address) (bytes : List UInt8) : String :=
  addressText address ++ byteText bytes

/-- The rows behind the first, which show nothing but the rest of the bytes. -/
def continuation (address : Address) : List UInt8 → List String
  | [] => []
  | a :: b :: c :: d :: rest =>
    row address [a, b, c, d] :: continuation (address + 4) rest
  | rest => [row address rest]

/-- The rows for a byte string at an address. The first shows the text, behind the columns of a full
row of bytes; it is there also if there are no bytes. -/
def rows (start : Address) (bytes : List UInt8) (text : String) : List String :=
  let first := bytes.take bytesPerRow
  let blank := String.ofList (List.replicate (3 * (bytesPerRow - first.length)) ' ')
  (row start first ++ blank ++ "\t" ++ text) ::
    continuation (start + 4) (bytes.drop bytesPerRow)

end Listing

/-- The rows of an instruction. -/
def Instruction.rows (i : Instruction) : List String :=
  Listing.rows i.start i.bytes i.text

end VaxListing
