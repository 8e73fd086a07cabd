set_option relaxedAutoImplicit false
set_option autoImplicit false

/-!
# Sinks for text

A sink takes text as bytes, up to a limit or without one. When the limit is reached in the middle of
a text, the sink keeps the part that still fits and takes nothing more.

## Main definitions

* `VaxListing.Sink` — what a sink has taken, and how much more it takes.
* `VaxListing.Sink.write` — offering a text to a sink.

## Main results

* `VaxListing.Sink.toList_accepted_write` — a sink keeps the part of a text that fits.
-/

namespace VaxListing

/-- What a sink has taken, and how much more it takes. -/
structure Sink where
  /-- The number of bytes that still fit; `none` if there is no limit. -/
  room : Option Nat
  /-- The bytes taken so far. -/
  accepted : Array UInt8
  deriving DecidableEq

namespace Sink

/-- A sink that has taken nothing. -/
def empty (room : Option Nat) : Sink :=
  ⟨room, #[]⟩

/-- Why a sink refuses a text. -/
def refusal : String := "no room"

/-- The bytes of a text. -/
def encode (text : String) : List UInt8 :=
  text.toUTF8.data.toList

/-- The sink after a text was offered, and whether it has taken the whole text. -/
def write (s : Sink) (text : String) : Sink × Bool :=
  let bytes := encode text
  match s.room with
  | none => ({ s with accepted := s.accepted ++ bytes }, true)
  | some room =>
    (⟨some (room - bytes.length), s.accepted ++ bytes.take room⟩, bytes.length ≤ room)

/-- The sink after lines were offered, each with a line break, and whether it has taken them all.
Nothing is offered after a refusal. -/
def writeLines (s : Sink) : List String → Sink × Bool
  | [] => (s, true)
  | line :: lines =>
    match s.write (line ++ "\n") with
    | (s, true) => writeLines s lines
    | (s, false) => (s, false)

/-- A sink keeps the part of a text that fits. -/
theorem toList_accepted_write (s : Sink) (text : String) :
    (s.write text).1.accepted.toList =
      s.accepted.toList ++ (encode text).take (s.room.getD (encode text).length) := by
  unfold write
  cases s.room <;> simp

end Sink

end VaxListing
