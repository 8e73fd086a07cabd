import VaxListing.Proofs.InstructionFormat

set_option relaxedAutoImplicit false
set_option autoImplicit false

/-!
# Decoding on after faults

A decoder can be called again after a fault, and goes on wherever its program counter stands. The
only fault there is is the end of the memory: every call inside the memory moves the program counter
forward, whether it succeeds or not, so that repeated calls come to the end of the memory and stay
there.

## Main definitions

* `VaxListing.Instruction.Attempt` — what one call can do.
* `VaxListing.Instruction.cursorAfter` — the cursor after a number of calls.

## Main results

* `VaxListing.Instruction.attempt` — every call is one of these.
* `VaxListing.Instruction.slice_of_decodeBody` — taking the bytes of an instruction never fails.
* `VaxListing.Instruction.le_pc_cursorAfter` — how far a number of calls comes at least.
* `VaxListing.repeated_decoding_progresses` — faults and progress over any number of calls.

## Design

`Instruction.Attempt` is the only place where the outcome of decoding is taken apart. A call that
fails inside the memory has read its first byte before, which is why it moves the program counter.
-/

namespace VaxListing

/-- Two pieces of decoding fail as the first does or, behind it, as the second does. -/
lemma Decoder.bind_eq_error_iff {α β : Type} {d : Decoder α} {k : α → Decoder β} {c c' : Cursor}
    {fault : MachineFault} :
    (d >>= k) c = .error fault c' ↔
      d c = .error fault c' ∨ ∃ a c₁, d c = .ok a c₁ ∧ k a c₁ = .error fault c' := by
  rw [show (d >>= k) c = EStateM.bind d k c from rfl, EStateM.bind]
  cases d c with
  | ok a c₁ => simp
  | error fault₁ c₁ => simp

namespace Overrun

variable {m : Memory} {c c' : Cursor} {fault : MachineFault}

/-- A fault does not move the cursor back. -/
lemma le_pc (h : Overrun m c c' fault) : c.pc.toNat ≤ c'.pc.toNat := by
  obtain ⟨bs, -, hpc⟩ := h.reached
  omega

/-- A fault on the way from inside the memory leaves the cursor there. -/
lemma pc_le_size (h : Overrun m c c' fault) (hc : c.pc.toNat ≤ m.size) :
    c'.pc.toNat ≤ m.size := by
  obtain ⟨bs, hat, hpc⟩ := h.reached
  by_cases hne : bs = []
  · rw [hne, List.length_nil] at hpc
    omega
  · have hle := hat.le_size hne
    omega

end Overrun

namespace Instruction

/-! ## One call -/

/-- What one call of the decoder at the cursor `c` can do. -/
inductive Attempt (m : Memory) (c : Cursor) : EStateM.Result MachineFault Cursor Instruction → Prop
  /-- An instruction is decoded, which ends at the new program counter and inside the memory. -/
  | decoded (i : Instruction) (c' : Cursor) (hstop : i.stop = c'.pc)
      (hlt : c.pc.toNat < c'.pc.toNat) (hle : c'.pc.toNat ≤ m.size) : Attempt m c (.ok i c')
  /-- The memory ends in the middle of an instruction, behind its first byte. -/
  | cutOff (n : Nat) (c' : Cursor) (hn : Memory.isReadSize n = true)
      (hlt : c.pc.toNat < c'.pc.toNat) (hle : c'.pc.toNat ≤ m.size)
      (hover : m.size < c'.pc.toNat + n) :
      Attempt m c (.error (.outOfBounds c'.pc.toNat n) c')
  /-- The program counter is not inside the memory, and stays where it is. -/
  | outside (h : m.size ≤ c.pc.toNat) : Attempt m c (.error (.outOfBounds c.pc.toNat 1) c)

section Call

variable {m : Memory} (hm : m.size < 2 ^ 32) {c c' : Cursor}

/-- Outside the memory not even an opcode can be decoded. -/
lemma decode_outside (h : m.size ≤ c.pc.toNat) :
    decode m c = .error (.outOfBounds c.pc.toNat 1) c := by
  have hnone : m.bytes[c.pc.toNat]? = none := Array.getElem?_eq_none_iff.2 h
  have hfetch : m.fetchByte c = .error (.outOfBounds c.pc.toNat 1) c := by
    rw [fetchByte_eq, hnone]
  simp only [decode_eq_bind, decodeCode, bind, EStateM.bind, hfetch]

include hm in
/-- An opcode whose second byte is missing has its first byte. -/
lemma lt_pc_of_decodeCode {fault : MachineFault} (hc : c.pc.toNat < m.size)
    (h : decodeCode m c = .error fault c') : c.pc.toNat < c'.pc.toNat := by
  obtain ⟨first, hfirst⟩ : ∃ b, m.bytes[c.pc.toNat]? = some b :=
    ⟨_, Array.getElem?_eq_getElem hc⟩
  have hpc : (c.pc + 1).toNat = c.pc.toNat + 1 := toNat_add_of_le hm hc
  have hfetch : m.fetchByte c = .ok first ⟨c.pc + 1, c.events⟩ := by
    rw [fetchByte_eq, hfirst]
  obtain herror | ⟨_, c₁, hok, hrest⟩ := Decoder.bind_eq_error_iff.1 h
  · rw [hfetch] at herror
    cases herror
  · rw [hfetch] at hok
    cases hok
    split at hrest
    · obtain hsecond | ⟨second, c₂, -, hdone⟩ := Decoder.bind_eq_error_iff.1 hrest
      · have hle := ((reads_fetchByte hm _).overrun hsecond).le_pc
        dsimp only at hle
        omega
      · cases hdone
    · cases hrest

include hm in
/-- **A fault inside the memory is progress**: a call that fails has read the first byte of its
opcode, so that its program counter has moved.

**Proof sketch.** If already the opcode fails, it is its second byte that is missing. Otherwise the
opcode takes at least one byte, and decoding what follows does not move the program counter back. -/
lemma lt_pc_of_decode_error {fault : MachineFault} (hc : c.pc.toNat < m.size)
    (h : decode m c = .error fault c') : c.pc.toNat < c'.pc.toNat := by
  have hbody : (decodeCode m >>= decodeBody m c.pc) c = .error fault c' := by
    rw [decode_eq hm] at h
    split at h
    · cases h
    · cases h
      assumption
  obtain hcode | ⟨code, c₁, hcode, hrest⟩ := Decoder.bind_eq_error_iff.1 hbody
  · exact lt_pc_of_decodeCode hm hc hcode
  · obtain ⟨-, -, hpc⟩ := (reads_decodeCode hm c).sound hcode
    have hwidth : 0 < (Opcode.bytesOf code).length := by
      rw [Opcode.length_bytesOf, Opcode.widthOf]
      split <;> omega
    have hle := ((reads_decodeBody hm c.pc code c₁).overrun hrest).le_pc
    simp only [Opcode.codeFormat] at hpc
    omega

include hm in
/-- **Every call** decodes an instruction, is cut off by the end of the memory, or is made outside
the memory. -/
lemma attempt (c : Cursor) : Attempt m c (decode m c) := by
  by_cases hc : c.pc.toNat < m.size
  · have hread := reads_instruction hm c
    cases h : decode m c with
    | ok i c' =>
      obtain ⟨⟨⟨-, hstop, -⟩, -⟩, hat, hpc⟩ := hread.sound h
      have hpos : 0 < i.body.encode.length := List.length_pos_iff.2 i.body.encode_ne_nil
      have hle : c.pc.toNat + i.body.encode.length ≤ m.size := hat.le_size i.body.encode_ne_nil
      have hpc : c'.pc.toNat = c.pc.toNat + i.body.encode.length := hpc
      exact .decoded i c' (UInt32.toNat_inj.1 (hstop.trans hpc.symm)) (by omega) (by omega)
    | error fault c' =>
      have hoverrun := hread.overrun h
      obtain ⟨n, hn, rfl, hover⟩ := hoverrun.fault_eq
      exact .cutOff n c' hn (lt_pc_of_decode_error hm hc h) (hoverrun.pc_le_size hc.le) hover
  · rw [decode_outside (Nat.not_lt.1 hc)]
    exact .outside (Nat.not_lt.1 hc)

include hm in
/-- **Taking the bytes of an instruction never fails** once the instruction is decoded. -/
lemma slice_of_decodeBody {body : InstructionBody}
    (h : (decodeCode m >>= decodeBody m c.pc) c = .ok body c') :
    m.slice c.pc (c'.pc - c.pc).toNat = .ok body.encode := by
  have heq := (decode_eq_bind m c).symm.trans (decode_eq hm c)
  simp only [h] at heq
  cases hslice : m.slice c.pc (c'.pc - c.pc).toNat with
  | error fault =>
    rw [hslice] at heq
    cases heq
  | ok bytes =>
    rw [hslice] at heq
    cases heq
    rfl

end Call

/-! ## Any number of calls -/

/-- The cursor after `k` calls of a decoder that goes on after faults, wherever it stands. -/
def cursorAfter (m : Memory) (c : Cursor) : Nat → Cursor
  | 0 => c
  | k + 1 => cursorOf (decode m (cursorAfter m c k))

section Calls

variable {m : Memory} (hm : m.size < 2 ^ 32)

/-- A call inside the memory moves the program counter forward, and not beyond the memory. -/
lemma Attempt.advances {c : Cursor} {r : EStateM.Result MachineFault Cursor Instruction}
    (h : Attempt m c r) (hc : c.pc.toNat < m.size) :
    c.pc.toNat < (cursorOf r).pc.toNat ∧ (cursorOf r).pc.toNat ≤ m.size := by
  cases h with
  | decoded i c' _ hlt hle => exact ⟨hlt, hle⟩
  | cutOff n c' _ hlt hle _ => exact ⟨hlt, hle⟩
  | outside hout => omega

include hm in
/-- **Calls come to the end of the memory**: each takes at least one byte of what is left, and none
goes beyond.

**Proof sketch.** Induction on the number of calls. A call inside the memory adds at least one
(`Attempt.advances`), and at the end of the memory a call changes nothing (`decode_outside`). -/
lemma le_pc_cursorAfter (c : Cursor) (hc : c.pc.toNat ≤ m.size) (k : Nat) :
    min m.size (c.pc.toNat + k) ≤ (cursorAfter m c k).pc.toNat ∧
      (cursorAfter m c k).pc.toNat ≤ m.size := by
  induction k with
  | zero =>
    simp only [cursorAfter]
    omega
  | succ k ih =>
    obtain ⟨hreached, hle⟩ := ih
    rw [cursorAfter]
    by_cases hinside : (cursorAfter m c k).pc.toNat < m.size
    · have hadvance := (attempt hm (cursorAfter m c k)).advances hinside
      omega
    · rw [decode_outside (by omega)]
      simp only [cursorOf]
      omega

end Calls

end Instruction

open Instruction (cursorAfter decodeCode decodeBody) in
/-- **Faults and progress of repeated decoding.** Let the memory have fewer than `2 ^ 32` bytes, and
let a decoder be called again and again, whatever its first program counter, going on after faults.
A call at the program counter `p` that leaves it at `q` either gives an instruction that ends at
`q`, behind `p` and inside the memory, or fails with an access out of bounds at `q` whose size is
that of a number and does not fit there; there is no other fault, and taking the bytes of an
instruction never fails. Inside the memory the program counter moves forward even if the call fails,
and not beyond the memory. Outside the memory the call fails for a single byte and changes nothing.
Hence after as many calls as there were bytes left the program counter is at the end of the memory,
and it stays there. -/
theorem repeated_decoding_progresses (m : Memory) (hm : m.size < 2 ^ 32) (c : Cursor) (k : Nat) :
    let before := cursorAfter m c k
    let p := before.pc.toNat
    let q := (cursorAfter m c (k + 1)).pc.toNat
    ((∃ i c', Instruction.decode m before = .ok i c' ∧ i.stop.toNat = q ∧ p < q ∧ q ≤ m.size) ∨
      ∃ size c', Instruction.decode m before = .error (.outOfBounds q size) c' ∧
        size ∈ [1, 2, 4, 8, 16] ∧ m.size < q + size) ∧
    (∀ body c', (decodeCode m >>= decodeBody m before.pc) before = .ok body c' →
      ∃ bytes, m.slice before.pc (c'.pc - before.pc).toNat = .ok bytes) ∧
    (p < m.size → p < q ∧ q ≤ m.size) ∧
    (m.size ≤ p → Instruction.decode m before = .error (.outOfBounds p 1) before ∧ q = p) ∧
    (c.pc.toNat ≤ m.size → m.size - c.pc.toNat ≤ k → p = m.size) := by
  intro before p q
  have hattempt := Instruction.attempt hm before
  have hq : q = (cursorOf (Instruction.decode m before)).pc.toNat := rfl
  refine ⟨?_, fun body c' hbody => ⟨_, Instruction.slice_of_decodeBody hm hbody⟩, ?_, ?_, ?_⟩
  · generalize Instruction.decode m before = r at hattempt hq
    cases hattempt with
    | decoded i c' hstop hlt hle =>
      refine .inl ⟨i, c', rfl, ?_, by rwa [hq], by rwa [hq]⟩
      rw [hstop, hq]
      rfl
    | cutOff n c' hn hlt hle hover =>
      refine .inr ⟨n, c', by rw [hq]; rfl, isReadSize_iff.1 hn, ?_⟩
      rwa [hq]
    | outside hout =>
      refine .inr ⟨1, before, by rw [hq]; rfl, by simp, ?_⟩
      rw [hq]
      exact Nat.lt_succ_of_le hout
  · intro hp
    rw [hq]
    exact hattempt.advances hp
  · intro hp
    have houtside := Instruction.decode_outside hp
    exact ⟨houtside, by rw [hq, houtside]; rfl⟩
  · intro hc hk
    obtain ⟨hreached, hle⟩ := Instruction.le_pc_cursorAfter hm c hc k
    rw [min_eq_left (by omega)] at hreached
    exact le_antisymm hle hreached

/-- An instruction whose constant is cut off by the end of the memory: decoding fails behind its
mode byte, goes on there with bytes of the constant, and comes to the end of the memory in four
calls. -/
theorem repeated_decoding_progresses_cut_off :
    let m := Memory.ofList [0xd0, 0x8f, 0x01, 0x50]
    m.size < 2 ^ 32 ∧
      (∃ size c', Instruction.decode m (.start 0) = .error (.outOfBounds 2 size) c' ∧
        size ∈ [1, 2, 4, 8, 16] ∧ m.size < 2 + size) ∧
      (Instruction.cursorAfter m (.start 0) 4).pc.toNat = 4 := by
  intro m
  have hm : m.size < 2 ^ 32 := by
    decide
  have hfirst : (Instruction.cursorAfter m (.start 0) 1).pc.toNat = 2 := by
    decide +kernel
  refine ⟨hm, ?_, ?_⟩
  · obtain ⟨⟨i, c', hok, -⟩ | hfault, -⟩ := repeated_decoding_progresses m hm (.start 0) 0
    · have hfails : (match Instruction.decode m (.start 0) with
          | .ok _ _ => false
          | .error _ _ => true) = true := by
        decide +kernel
      rw [show Instruction.decode m (.start 0) = .ok i c' from hok] at hfails
      cases hfails
    · rwa [hfirst] at hfault
  · obtain ⟨-, -, -, -, hend⟩ := repeated_decoding_progresses m hm (.start 0) 4
    exact hend (by decide) (by decide)

end VaxListing
