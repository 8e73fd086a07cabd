import VaxListing.Instruction

set_option relaxedAutoImplicit false
set_option autoImplicit false

/-!
# Runs

A run decodes one instruction after another, from address zero on, until it has come to the end of
the code or an instruction cannot be decoded. Each instruction starts where the one before ended,
and the last one may reach beyond the end of the code.

## Main definitions

* `VaxListing.Run` — how far a run has come.
* `VaxListing.Run.next` — one step of a run.
* `VaxListing.Run.steps` — any number of steps, one after another.
* `VaxListing.Run.tour` — a whole run, with something done at each instruction.

## Design

A tour takes at most `2 ^ 32` steps. Each step depends only on the program counter, so a run that
has taken as many steps without coming to its end has been at some address twice, and never comes
to its end. Below `2 ^ 32` bytes of memory there is no such run.
-/

namespace VaxListing

/-- How far a run has come. -/
structure Run where
  /-- The address behind the code. -/
  codeSize : UInt32
  /-- The program counter. -/
  pc : Address
  /-- Whether an instruction could not be decoded. -/
  failed : Bool
  deriving DecidableEq, Repr

/-- What one step of a run gives: an instruction or a fault, or nothing at the end of the run. -/
structure RunStep where
  /-- The instruction or fault. -/
  item : Option (Except ListingFault Instruction)
  /-- The run after the step. -/
  run : Run
  /-- The events of the step, in order. -/
  events : Array Log.Event

/-- How a tour ended. -/
structure Tour (σ : Type) where
  /-- What the visits have led to. -/
  state : σ
  /-- The fault that ended the tour before the end of the code. -/
  fault : Option ListingFault
  /-- The events of the tour, in order. -/
  events : Array Log.Event

namespace Run

/-- A run at its beginning. -/
def start (codeSize : UInt32) : Run :=
  ⟨codeSize, 0, false⟩

/-- One step of a run. After a fault, and from the end of the code on, a run stays as it is. -/
def next (m : Memory) (run : Run) : RunStep :=
  if run.failed ∨ run.codeSize ≤ run.pc then
    ⟨none, run, #[]⟩
  else
    match Instruction.decode m (.start run.pc) with
    | .ok i c =>
      ⟨some (.ok i), { run with pc := c.pc }, c.events.push (.decoded i.start i.text)⟩
    | .error fault c =>
      let fault := ListingFault.machine fault
      ⟨some (.error fault), { run with pc := c.pc, failed := true },
        c.events.push (.stopped c.pc fault)⟩

/-- A number of steps, one after another. At the end of the run they go on with nothing to give. -/
def steps (m : Memory) (run : Run) : Nat → List RunStep
  | 0 => []
  | n + 1 =>
    let step := run.next m
    step :: step.run.steps m n

/-- Takes at most a number of steps of a run and visits each instruction. A visit changes the state
and may refuse, which ends the tour as a fault of decoding does. -/
def tourFrom {σ : Type} (m : Memory) (visit : σ → Instruction → σ × Option ListingFault) :
    Nat → Run → σ → Array Log.Event → Tour σ
  | 0, _, state, events => ⟨state, none, events⟩
  | count + 1, run, state, events =>
    let step := run.next m
    let events := events ++ step.events
    match step.item with
    | none => ⟨state, none, events⟩
    | some (.error fault) => ⟨state, some fault, events⟩
    | some (.ok i) =>
      match visit state i with
      | (state, some fault) => ⟨state, some fault, events⟩
      | (state, none) => tourFrom m visit count step.run state events

/-- A whole run over the code, with a visit at each instruction. -/
def tour {σ : Type} (m : Memory) (codeSize : UInt32)
    (visit : σ → Instruction → σ × Option ListingFault) (state : σ) : Tour σ :=
  tourFrom m visit UInt32.size (start codeSize) state #[]

end Run

end VaxListing
