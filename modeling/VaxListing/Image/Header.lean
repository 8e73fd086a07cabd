import VaxListing.Bytes
import VaxListing.Fault

set_option relaxedAutoImplicit false
set_option autoImplicit false

/-!
# The header of an image

A file begins with eight numbers of four bytes: what kind of file it is, how large its parts are,
and where execution starts.

## Main definitions

* `VaxListing.Header` — the eight numbers.
* `VaxListing.Header.toBytes` — the header as it is stored.
* `VaxListing.Header.ofBytes` — the header at the beginning of a file.
* `VaxListing.Header.describe` — the header in words.

## Main results

* `VaxListing.Header.length_toBytes` — a stored header takes 32 bytes.
-/

namespace VaxListing

/-- The header of an image. -/
structure Header where
  /-- The kind of file. -/
  magic : UInt32
  /-- The size of the code. -/
  textSize : UInt32
  /-- The size of the initialised data. -/
  dataSize : UInt32
  /-- The size of the data that starts out as zero. -/
  bssSize : UInt32
  /-- The size of the symbol table. -/
  symbolSize : UInt32
  /-- The address at which execution starts. -/
  entryPoint : UInt32
  /-- The size of the relocation records for the code. -/
  textRelocSize : UInt32
  /-- The size of the relocation records for the data. -/
  dataRelocSize : UInt32
  deriving DecidableEq, Repr

namespace Header

/-- The number of bytes that a header takes. -/
def size : Nat := 32

/-- The fields, in the order in which they are stored. -/
def fields (h : Header) : List UInt32 :=
  [h.magic, h.textSize, h.dataSize, h.bssSize, h.symbolSize, h.entryPoint, h.textRelocSize,
    h.dataRelocSize]

/-- The header as it is stored. -/
def toBytes (h : Header) : List UInt8 :=
  h.fields.flatMap fun field => Bytes.ofValue 4 field.toNat

/-- The number stored in the `i`-th group of four bytes. -/
def field (bytes : List UInt8) (i : Nat) : UInt32 :=
  .ofNat (Bytes.value ((bytes.drop (4 * i)).take 4))

/-- The header at the beginning of a file; what comes after it is not looked at. -/
def ofBytes (bytes : List UInt8) : Except ArchFault Header :=
  if bytes.length < size then
    .error (.headerSize size bytes.length)
  else
    .ok
      { magic := field bytes 0
        textSize := field bytes 1
        dataSize := field bytes 2
        bssSize := field bytes 3
        symbolSize := field bytes 4
        entryPoint := field bytes 5
        textRelocSize := field bytes 6
        dataRelocSize := field bytes 7 }

/-- The header in words, one line for each field, each line with its line break. -/
def describe (h : Header) : String :=
  "Image Header\n" ++
  s!"  Magic:        {Hex.paddedText 8 h.magic.toNat}\n" ++
  s!"  Text size:    {h.textSize.toNat} bytes\n" ++
  s!"  Data size:    {h.dataSize.toNat} bytes\n" ++
  s!"  BSS size:     {h.bssSize.toNat} bytes\n" ++
  s!"  Symbols:      {h.symbolSize.toNat} bytes\n" ++
  s!"  Entry:        {Hex.paddedText 8 h.entryPoint.toNat}\n" ++
  s!"  Text relocs:  {h.textRelocSize.toNat} bytes\n" ++
  s!"  Data relocs:  {h.dataRelocSize.toNat} bytes\n"

@[simp]
theorem length_toBytes (h : Header) : h.toBytes.length = size := by
  simp [toBytes, fields, size]

end Header

end VaxListing
