import VaxListing.Listing.Row
import VaxListing.Listing.Sink
import VaxListing.Run

set_option relaxedAutoImplicit false
set_option autoImplicit false

/-!
# Listings

The listing of a memory is the rows of its instructions, from address zero to the end of the code.
It can be had as a whole, or written to a sink instruction by instruction.

## Main definitions

* `VaxListing.Listing.collect` — the whole listing, or the fault that prevents it.
* `VaxListing.Listing.write` — the listing written to a sink as far as it goes.
-/

namespace VaxListing.Listing

/-- The listing as a whole, with the events of making it. -/
structure Collected where
  /-- The rows, or the fault that prevents the listing. -/
  result : Except ListingFault (List String)
  /-- The events, in order. -/
  events : Array Log.Event

/-- How writing a listing went. -/
structure Written where
  /-- The number of instructions, or the fault that ended the listing early. -/
  result : Except ListingFault Nat
  /-- The sink afterwards. -/
  sink : Sink
  /-- The events, in order. -/
  events : Array Log.Event

/-- Adds the rows of an instruction to those before. -/
def addRows (rows : Array String) (i : Instruction) : Array String × Option ListingFault :=
  (rows ++ i.rows, none)

/-- Writes the rows of an instruction to a sink, and counts the instruction once the sink has taken
them all. -/
def writeRows (state : Sink × Nat) (i : Instruction) : (Sink × Nat) × Option ListingFault :=
  match state.1.writeLines i.rows with
  | (sink, true) => ((sink, state.2 + 1), none)
  | (sink, false) => ((sink, state.2), some (.output Sink.refusal))

/-- The listing of the code at the beginning of a memory, or the fault that prevents it. -/
def collect (m : Memory) (codeSize : UInt32) : Collected :=
  let tour := Run.tour m codeSize addRows #[]
  match tour.fault with
  | some fault => ⟨.error fault, tour.events⟩
  | none => ⟨.ok tour.state.toList, tour.events⟩

/-- Writes the listing of the code at the beginning of a memory to a sink. The rows of an
instruction are written before the next instruction is decoded. -/
def write (m : Memory) (codeSize : UInt32) (sink : Sink) : Written :=
  let tour := Run.tour m codeSize writeRows (sink, 0)
  match tour.fault with
  | some fault => ⟨.error fault, tour.state.1, tour.events⟩
  | none => ⟨.ok tour.state.2, tour.state.1, tour.events⟩

end VaxListing.Listing
