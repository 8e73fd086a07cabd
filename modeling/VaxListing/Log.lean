import VaxListing.Bytes
import VaxListing.Fault
import VaxListing.Image.Config
import VaxListing.Operand.Mode

set_option relaxedAutoImplicit false
set_option autoImplicit false

/-!
# The log

Work leaves a record of events. An event is data; its severity, its origin and its words are read
off it, so keeping a record costs little and nothing is decided by whether it is shown.

## Main definitions

* `VaxListing.Log.Level` — how grave an event is.
* `VaxListing.Log.Event` — what happened.
* `VaxListing.Log.Event.line` — the event as a line of text.
* `VaxListing.Log.Threshold` — which events are shown.
-/

namespace VaxListing.Log

/-- How grave an event is, gravest first. -/
inductive Level where
  /-- The work failed. -/
  | error
  /-- The work went on, but something looks wrong. -/
  | warn
  /-- A step of the work is done. -/
  | info
  /-- Details for following the work. -/
  | debug
  /-- Every small step. -/
  | trace
  deriving DecidableEq, Repr

namespace Level

/-- The level's place in the order, gravest first. -/
def rank : Level → Nat
  | error => 1
  | warn => 2
  | info => 3
  | debug => 4
  | trace => 5

/-- The level in front of a line. -/
def tag : Level → String
  | error => "ERROR"
  | warn => "WARN"
  | info => "INFO"
  | debug => "DEBUG"
  | trace => "TRACE"

/-- The level with a given name, if there is one. -/
def ofName? : String → Option Level
  | "error" => some error
  | "warn" => some warn
  | "info" => some info
  | "debug" => some debug
  | "trace" => some trace
  | _ => none

end Level

/-- The gravest-first cut: the least grave level that is shown, or `none` if nothing is. -/
abbrev Threshold := Option Level

namespace Threshold

/-- Whether an event of a level is shown. -/
def shows : Threshold → Level → Bool
  | none, _ => false
  | some limit, level => level.rank ≤ limit.rank

/-- The threshold with a given name: a level, or `off`. -/
def ofName? (name : String) : Option Threshold :=
  if name == "off" then some none else (Level.ofName? name).map some

end Threshold

/-- What happened. -/
inductive Event where
  /-- An image was loaded: the sizes of its payload, its code and its data. -/
  | loaded (payload : Nat) (code data : UInt32)
  /-- The code is declared longer than the whole payload. -/
  | codeExceedsPayload (code : UInt32) (payload : Nat)
  /-- A mode byte of a general operand was fetched from an address. -/
  | modeByte (byte : UInt8) (address : Address)
  /-- The instruction at an address has an undefined opcode. -/
  | unknownOpcode (code : UInt16) (start : Address)
  /-- An instruction was decoded. -/
  | decoded (start : Address) (text : String)
  /-- Decoding failed when it had come to an address. -/
  | stopped (address : Address) (fault : ListingFault)
  /-- The command was given these settings. -/
  | configured (config : Config)
  /-- The command has listed a number of instructions. -/
  | listed (count : Nat)
  deriving DecidableEq, Repr

namespace Event

/-- How grave the event is. -/
def level : Event → Level
  | loaded .. | listed _ => .info
  | codeExceedsPayload .. => .warn
  | modeByte .. => .trace
  | unknownOpcode .. | decoded .. | stopped .. | configured _ => .debug

/-- The part of the program that the event comes from. -/
def origin : Event → String
  | loaded .. | codeExceedsPayload .. => "vax_machine::loader"
  | modeByte .. => "vax_disassembler::operand"
  | unknownOpcode .. => "vax_disassembler::decoder"
  | decoded .. | stopped .. => "vax_disassembler::disassembler"
  | configured _ | listed _ => "vax_disasm"

/-- The event in words. -/
def message : Event → String
  | loaded payload code data =>
    s!"Loaded {payload} payload bytes, code segment {code.toNat} bytes, " ++
      s!"data segment {data.toNat} bytes"
  | codeExceedsPayload code payload =>
    s!"Code segment size {code.toNat} exceeds payload size {payload}"
  | modeByte byte address =>
    s!"operand {Hex.paddedText 2 byte.toNat} at {Hex.text address.toNat}: " ++
      (AddressingMode.classify byte).name
  | unknownOpcode code start =>
    s!"Unknown opcode: {Hex.text code.toNat} at {Hex.text start.toNat}"
  | decoded start text => s!"{Hex.text start.toNat}: {text}"
  | stopped address fault => s!"Decoding stopped at {Hex.text address.toNat}: {fault.message}"
  | configured config => config.describe
  | listed count => s!"Disassembled {count} instructions"

/-- The event as a line of text. -/
def line (e : Event) : String :=
  s!"{e.level.tag} {e.origin}: {e.message}"

end Event

/-- The lines of the events that `shows` picks out, in order. -/
def linesWhere (shows : Event → Bool) (events : List Event) : List String :=
  (events.filter shows).map Event.line

/-- The lines of the events that a threshold shows, in order. -/
def lines (threshold : Threshold) (events : List Event) : List String :=
  linesWhere (fun e => threshold.shows e.level) events

end VaxListing.Log
