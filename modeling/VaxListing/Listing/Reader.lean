import VaxListing.Listing.Row

set_option relaxedAutoImplicit false
set_option autoImplicit false

/-!
# Reading a listing back

A listing keeps everything that it was made from: the address, the bytes and the text of each
instruction can be read back from its rows. A row with a text column opens an instruction, and a row
without one continues the instruction before it.

## Main definitions

* `VaxListing.Hex.value?` — the number that hexadecimal digits stand for.
* `VaxListing.Listing.Row.read?` — the columns of a row.
* `VaxListing.Listing.read?` — the instructions of a listing.
-/

namespace VaxListing

namespace Hex

/-- The number that a lower-case digit stands for. -/
def digitValue? (c : Char) : Option Nat :=
  if '0' ≤ c ∧ c ≤ '9' then some (c.toNat - 48)
  else if 'a' ≤ c ∧ c ≤ 'f' then some (c.toNat - 87)
  else none

/-- The number that hexadecimal digits stand for, starting from the number of the digits before. -/
def valueFrom? : Nat → List Char → Option Nat
  | n, [] => some n
  | n, c :: rest =>
    match digitValue? c with
    | some d => valueFrom? (16 * n + d) rest
    | none => none

/-- The number that hexadecimal digits stand for. -/
def value? (digits : List Char) : Option Nat :=
  valueFrom? 0 digits

end Hex

namespace Listing

/-- The columns of a row. -/
structure Row where
  /-- The address of the first byte. -/
  address : Address
  /-- The bytes. -/
  bytes : List UInt8
  /-- The text, if the row has a text column. -/
  text : Option String
  deriving DecidableEq, Repr

/-- An instruction as a listing shows it. -/
structure Entry where
  /-- The address of the first byte. -/
  start : Address
  /-- The bytes. -/
  bytes : List UInt8
  /-- The text. -/
  text : String
  deriving DecidableEq, Repr

/-- Reads bytes of two digits and a space each, as many as there are, and gives what follows. -/
def readBytes : List Char → List UInt8 × List Char
  | a :: b :: ' ' :: rest =>
    match Hex.digitValue? a, Hex.digitValue? b with
    | some x, some y =>
      let (bytes, rest) := readBytes rest
      (.ofNat (16 * x + y) :: bytes, rest)
    | _, _ => ([], a :: b :: ' ' :: rest)
  | rest => ([], rest)

/-- Reads the columns of a row. -/
def Row.read? (line : String) : Option Row :=
  let (left, rest) := line.toList.span (· ≠ ':')
  match Hex.value? (left.dropWhile (· = ' ')), rest with
  | some address, ':' :: '\t' :: columns =>
    let (bytes, rest) := readBytes columns
    match rest.dropWhile (· = ' ') with
    | [] => some ⟨.ofNat address, bytes, none⟩
    | '\t' :: text => some ⟨.ofNat address, bytes, some (String.ofList text)⟩
    | _ => none
  | _, _ => none

/-- Puts rows together: the bytes of the rows before the first text column, and the instructions
from there on. -/
def gather : List Row → List UInt8 × List Entry
  | [] => ([], [])
  | row :: rows =>
    let (bytes, entries) := gather rows
    match row.text with
    | some text => ([], ⟨row.address, row.bytes ++ bytes, text⟩ :: entries)
    | none => (row.bytes ++ bytes, entries)

/-- Reads the instructions of a listing. The first row must open an instruction. -/
def read? (lines : List String) : Option (List Entry) :=
  match lines.mapM Row.read? with
  | none => none
  | some rows =>
    match gather rows with
    | ([], entries) => some entries
    | _ => none

end Listing

end VaxListing
