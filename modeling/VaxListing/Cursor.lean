import VaxListing.Log
import VaxListing.Memory

set_option relaxedAutoImplicit false
set_option autoImplicit false

/-!
# Decoding as fetching

Code is decoded by fetching numbers from memory at the program counter, each fetch moving the
program counter past what it read. A failed fetch leaves the program counter where it is, and
whatever was fetched before it stays fetched.

## Main definitions

* `VaxListing.Cursor` — where decoding has come to, and the events on the way.
* `VaxListing.Decoder` — a piece of decoding: it moves the cursor and gives a result or a fault.
* `VaxListing.Memory.fetch` — a number of a given size.
* `VaxListing.Memory.fetchByte`, `VaxListing.Memory.fetchDisplacement` — a single byte, and a
  displacement widened to 32 bits.

## Main results

* `VaxListing.Memory.fetchModeByte_eq` — what fetching a mode byte does to the cursor.

## Design

The cursor is kept also when a piece of decoding fails, so that it can be seen how far decoding
came. This is the reason for `EStateM`, which returns a state with either outcome.
-/

namespace VaxListing

/-- Where decoding has come to, and the events on the way. -/
structure Cursor where
  /-- The program counter. -/
  pc : Address
  /-- The events so far, in order. -/
  events : Array Log.Event

/-- A cursor at an address, with no events behind it. -/
def Cursor.start (pc : Address) : Cursor :=
  ⟨pc, #[]⟩

/-- A piece of decoding: it moves the cursor and gives a result or a fault. -/
abbrev Decoder (α : Type) :=
  EStateM MachineFault Cursor α

namespace Decoder

/-- The program counter. -/
def pc : Decoder Address := fun c =>
  .ok c.pc c

/-- Records an event. -/
def note (event : Log.Event) : Decoder Unit := fun c =>
  .ok () { c with events := c.events.push event }

/-- Gives the result of an access to memory, or fails with its fault. -/
def ofExcept {α : Type} (result : Except MachineFault α) : Decoder α := fun c =>
  match result with
  | .ok a => .ok a c
  | .error fault => .error fault c

end Decoder

namespace Memory

/-- Fetches a number of `size` bytes. -/
def fetch (m : Memory) (size : Nat) : Decoder Nat := fun c =>
  match m.read c.pc size with
  | .ok value => .ok value { c with pc := c.pc + .ofNat size }
  | .error fault => .error fault c

/-- Fetches a single byte. -/
def fetchByte (m : Memory) : Decoder UInt8 := fun c =>
  match m.readByte c.pc with
  | .ok byte => .ok byte { c with pc := c.pc + 1 }
  | .error fault => .error fault c

/-- Fetches a displacement of `width` bytes and widens it to an offset of 32 bits. -/
def fetchDisplacement (m : Memory) (width : Nat) : Decoder Address := do
  let value ← m.fetch width
  return signExtend width value

/-- Fetches the mode byte of a general operand, and records it. -/
def fetchModeByte (m : Memory) : Decoder UInt8 := do
  let address ← Decoder.pc
  let byte ← m.fetchByte
  Decoder.note (.modeByte byte address)
  return byte

/-- Fetching a mode byte moves the program counter by one and records the byte; where there is no
byte it leaves the cursor alone. -/
theorem fetchModeByte_eq (m : Memory) (c : Cursor) :
    m.fetchModeByte c =
      match m.bytes[c.pc.toNat]? with
      | some byte => .ok byte ⟨c.pc + 1, c.events.push (.modeByte byte c.pc)⟩
      | none => .error (.outOfBounds c.pc.toNat 1) c := by
  unfold fetchModeByte fetchByte readByte Decoder.pc Decoder.note
  simp only [bind, EStateM.bind, pure, EStateM.pure]
  cases m.bytes[c.pc.toNat]? <;> simp

end Memory

end VaxListing
