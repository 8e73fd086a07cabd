import VaxListing.Proofs.InstructionFormat

set_option relaxedAutoImplicit false
set_option autoImplicit false

/-!
# Code at another address

The same bytes are the same instruction wherever they stand. What changes with the address is what
the listing shows of operands that are relative to the code: a branch, or a displacement off the
program counter, leads to an address that is moved by the same distance. All other operands keep
their text.

## Main definitions

* `VaxListing.OperandForm.isRelative` — the operands that show an address relative to the code.
* `VaxListing.Instruction.moveBy` — an instruction at another address.
* `VaxListing.Operand.Moved` — what the texts of an operand at two addresses have in common.

## Main results

* `VaxListing.Operand.text_of_isRelative` — the text of a relative operand, around the address that
  it leads to.
* `VaxListing.Operand.text_moveBy` — the text of any other operand does not depend on the address.
* `VaxListing.Instruction.decode_moveBy` — the bytes of an instruction decode to the moved
  instruction.
* `VaxListing.decode_position_covariant` — the same, for what can be seen of the instruction.

## Design

Distances between addresses are addresses themselves, and everything is moved by adding one. Moving
wraps around, but an instruction that stands in a memory of fewer than `2 ^ 32` bytes does not, and
so the moved instruction fits the format of instructions at its new address
(`InstructionBody.placed_moveBy`).
-/

namespace VaxListing

/-! ## Operands at two addresses -/

namespace OperandForm

/-- Whether the operand shows an address relative to the code: a branch does, and so does a
displacement off the program counter. -/
def isRelative : OperandForm → Bool
  | branch .. => true
  | general _ ⟨_, .displacement _ r _, _⟩ => r.isPc
  | general .. => false

/-- What stands in front of the address that a relative operand shows. -/
def mark : OperandForm → String
  | general _ ⟨_, .displacement _ _ true, _⟩ => "*"
  | _ => ""

/-- What stands behind the address that a relative operand shows. -/
def annotation : OperandForm → String
  | general _ s => s.indexText
  | branch .. => ""

/-- The distance between the end of a relative operand and the address that it shows. -/
def offset : OperandForm → Address
  | branch width displacement => signExtend width.size displacement
  | general _ ⟨_, .displacement width _ _, extension⟩ => signExtend width.size extension
  | general .. => 0

end OperandForm

namespace Operand

/-- The operand with the address behind it moved by a distance. -/
def moveBy (distance : Address) (op : Operand) : Operand :=
  { op with stop := op.stop + distance }

/-- **The text of a relative operand** is the address that it leads to, with a mark in front of it
and the indices behind it. -/
lemma text_of_isRelative {op : Operand} (h : op.form.isRelative = true) :
    op.text =
      op.form.mark ++ Hex.text (op.stop + op.form.offset).toNat ++ op.form.annotation := by
  obtain ⟨form, stop⟩ := op
  cases form with
  | branch width displacement => simp [text, OperandForm.mark, OperandForm.offset,
      OperandForm.annotation]
  | general type s =>
    obtain ⟨indices, base, extension⟩ := s
    cases base with
    | displacement width r deferred =>
      have hpc : r.isPc = true := h
      cases deferred <;>
        simp [text, Specifier.text, Specifier.baseText, hpc, OperandForm.mark, OperandForm.offset,
          OperandForm.annotation]
    | _ => cases h

/-- **The text of an operand that is not relative** does not depend on its address. -/
lemma text_moveBy {op : Operand} (h : op.form.isRelative = false) (distance : Address) :
    (op.moveBy distance).text = op.text := by
  obtain ⟨form, stop⟩ := op
  cases form with
  | branch width displacement => cases h
  | general type s =>
    obtain ⟨indices, base, extension⟩ := s
    cases base with
    | displacement width r deferred =>
      have hpc : r.isPc = false := h
      simp [moveBy, text, Specifier.text, Specifier.baseText, hpc, Specifier.indexText]
    | _ => rfl

/-- What the texts of an operand have in common when its instruction stands at the address `s` and
when it stands at `s'`. -/
structure Moved (s s' : Address) (op op' : Operand) : Prop where
  /-- The operand says the same. -/
  form_eq : op'.form = op.form
  /-- An operand that is not relative has the same text. -/
  text_eq : op.form.isRelative = false → op'.text = op.text
  /-- A relative operand shows an address that is moved as the instruction is, and everything around
  this address stays the same. -/
  target_eq : op.form.isRelative = true →
    ∃ t : Address, op.text = op.form.mark ++ Hex.text t.toNat ++ op.form.annotation ∧
      op'.text = op.form.mark ++ Hex.text (t + s' - s).toNat ++ op.form.annotation

/-- Moving an operand changes its text as its address is changed. -/
lemma moved_moveBy (s s' : Address) (op : Operand) : Moved s s' op (op.moveBy (s' - s)) where
  form_eq := rfl
  text_eq := by
    intro h
    exact text_moveBy h _
  target_eq := by
    intro h
    refine ⟨op.stop + op.form.offset, text_of_isRelative h, ?_⟩
    have hmoved : (op.moveBy (s' - s)).form.isRelative = true := h
    have htarget : op.stop + (s' - s) + op.form.offset = op.stop + op.form.offset + s' - s := by
      grind
    rw [text_of_isRelative hmoved, moveBy, htarget]

/-- Operands that follow one another still do so when they are moved, given that they end below the
wrap of addresses at their new place as well.

**Proof sketch.** Induction on the operands. Each ends a number of bytes behind the start, before
and after moving. -/
lemma placed_moveBy {s s' : Address} {types : List OperandType} {ops : List Operand} {n : Nat}
    (h : Placed (s.toNat + n) types ops)
    (hend : s'.toNat + n + (ops.flatMap fun op => op.form.encode).length < 2 ^ 32) :
    Placed (s'.toNat + n) types (ops.map (moveBy (s' - s))) := by
  induction ops generalizing types n with
  | nil =>
    cases types with
    | nil => trivial
    | cons type types => exact h
  | cons op ops ih =>
    cases types with
    | nil => exact h
    | cons type types =>
      obtain ⟨⟨hform, hstop⟩, hrest⟩ := h
      rw [List.flatMap_cons, List.length_append] at hend
      have hmoved : (op.stop + (s' - s)).toNat = s'.toNat + (n + op.form.encode.length) := by
        have hs := s.toNat_lt
        rw [UInt32.toNat_add, UInt32.toNat_sub]
        omega
      refine ⟨⟨hform, ?_⟩, ?_⟩
      · show (op.stop + (s' - s)).toNat = s'.toNat + n + op.form.encode.length
        omega
      · show Placed (op.stop + (s' - s)).toNat types (ops.map (moveBy (s' - s)))
        rw [hmoved]
        rw [hstop, Nat.add_assoc] at hrest
        exact ih hrest (by omega)

end Operand

/-! ## Instructions at two addresses -/

namespace InstructionBody

/-- What an instruction says, with its operands moved by a distance. -/
def moveBy (distance : Address) : InstructionBody → InstructionBody
  | known op operands => known op (operands.map (Operand.moveBy distance))
  | unknown code => unknown code

/-- Moving an instruction moves its operands. -/
lemma operands_moveBy (distance : Address) (body : InstructionBody) :
    (body.moveBy distance).operands = body.operands.map (Operand.moveBy distance) := by
  cases body <;> rfl

/-- Moving an instruction keeps its bytes. -/
lemma encode_moveBy (distance : Address) (body : InstructionBody) :
    (body.moveBy distance).encode = body.encode := by
  cases body with
  | unknown code => rfl
  | known op operands =>
    simp only [moveBy, encode, List.flatMap_map]
    rfl

/-- An instruction can be decoded at its new place, given that it ends below the wrap of addresses
there. -/
lemma placed_moveBy {s s' : Address} {body : InstructionBody} (h : body.Placed s.toNat)
    (hend : s'.toNat + body.encode.length < 2 ^ 32) :
    (body.moveBy (s' - s)).Placed s'.toNat := by
  cases body with
  | unknown code => exact h
  | known op operands =>
    rw [encode, List.length_append, Opcode.length_bytesOf] at hend
    refine ⟨h.1, Operand.placed_moveBy h.2 ?_⟩
    rw [Opcode.width]
    omega

/-- Where no operand is relative, moving an instruction keeps its text. -/
lemma text_moveBy {body : InstructionBody}
    (h : ∀ op ∈ body.operands, op.form.isRelative = false) (distance : Address) :
    (body.moveBy distance).text = body.text := by
  cases body with
  | unknown code => rfl
  | known op operands =>
    have htexts : (operands.map (Operand.moveBy distance)).map Operand.text =
        operands.map Operand.text := by
      rw [List.map_map]
      exact List.map_congr_left fun operand hmem => Operand.text_moveBy (h operand hmem) distance
    cases operands with
    | nil => rfl
    | cons operand operands =>
      rw [moveBy, List.map_cons, text, text, ← List.map_cons, htexts]
      · simp
      · simp

end InstructionBody

namespace Instruction

/-- The instruction at an address that is farther by a distance. -/
def moveBy (distance : Address) (i : Instruction) : Instruction where
  start := i.start + distance
  stop := i.stop + distance
  bytes := i.bytes
  body := i.body.moveBy distance

/-- Moving an instruction keeps its opcode. -/
lemma opcode?_moveBy (distance : Address) (i : Instruction) :
    (i.moveBy distance).opcode? = i.opcode? := by
  obtain ⟨start, stop, bytes, body⟩ := i
  cases body <;> rfl

/-- **The bytes of an instruction decode to the moved instruction** wherever they stand.

**Proof sketch.** Decoding reads a format, and the moved instruction fits this format at its new
address: its operands follow one another there, since the bytes do not wrap in either memory. -/
lemma decode_moveBy {m m' : Memory} (hm : m.size < 2 ^ 32) (hm' : m'.size < 2 ^ 32)
    {c c' d : Cursor} {i : Instruction} (h : decode m c = .ok i c')
    (hat : m'.HoldsAt d.pc.toNat i.bytes) :
    ∃ d', decode m' d = .ok (i.moveBy (d.pc - c.pc)) d' := by
  obtain ⟨⟨⟨hstart, hstop, hbytes⟩, hplaced⟩, -, -⟩ := (reads_instruction hm c).sound h
  rw [hbytes] at hat
  have hend : d.pc.toNat + i.body.encode.length < 2 ^ 32 :=
    (hat.le_size i.body.encode_ne_nil).trans_lt hm'
  have hencode := i.body.encode_moveBy (d.pc - c.pc)
  have hfit : format.Fits d.pc.toNat (i.moveBy (d.pc - c.pc)) := by
    have hpc := c.pc.toNat_lt
    refine ⟨⟨?_, ?_, ?_⟩, InstructionBody.placed_moveBy hplaced hend⟩
    · show (i.start + (d.pc - c.pc)).toNat = d.pc.toNat
      rw [UInt32.toNat_add, UInt32.toNat_sub]
      omega
    · show (i.stop + (d.pc - c.pc)).toNat =
        d.pc.toNat + (i.body.moveBy (d.pc - c.pc)).encode.length
      rw [hencode, UInt32.toNat_add, UInt32.toNat_sub]
      omega
    · exact hbytes.trans hencode.symm
  refine (reads_instruction hm' d).complete hfit ?_
  rw [show format.bytes (i.moveBy (d.pc - c.pc)) = i.body.encode from hencode]
  exact hat

end Instruction

/-- **Decoding is covariant in the position.** Let two memories have fewer than `2 ^ 32` bytes. If
an instruction is decoded at an address `s` of one of them, and its bytes stand at an address `s'`
of the other, then an instruction is decoded there, too. It has the same bytes, the same opcode and
the same length. Their operands correspond: each has the same text in both, except that a branch,
and a displacement off the program counter, shows the address `t + s' - s` where the first one shows
`t`, with the same mark in front of it and the same indices behind it. In particular an instruction
without such operands has the same text at every address. -/
theorem decode_position_covariant (m m' : Memory) (hm : m.size < 2 ^ 32) (hm' : m'.size < 2 ^ 32)
    (c c' d : Cursor) (i : Instruction) (hdecode : Instruction.decode m c = .ok i c')
    (hat : m'.HoldsAt d.pc.toNat i.bytes) :
    ∃ i' d', Instruction.decode m' d = .ok i' d' ∧ i'.start = d.pc ∧ i'.bytes = i.bytes ∧
      i'.opcode? = i.opcode? ∧ i'.stop - i'.start = i.stop - i.start ∧
      List.Forall₂ (Operand.Moved c.pc d.pc) i.body.operands i'.body.operands ∧
      ((∀ op ∈ i.body.operands, op.form.isRelative = false) → i'.text = i.text) := by
  obtain ⟨d', hdecode'⟩ := Instruction.decode_moveBy hm hm' hdecode hat
  obtain ⟨⟨⟨hstart, -, -⟩, -⟩, -, -⟩ := (reads_instruction hm' d).sound hdecode'
  refine ⟨i.moveBy (d.pc - c.pc), d', hdecode', UInt32.toNat_inj.1 hstart, rfl,
    i.opcode?_moveBy _, ?_, ?_, ?_⟩
  · show i.stop + (d.pc - c.pc) - (i.start + (d.pc - c.pc)) = i.stop - i.start
    grind
  · rw [Instruction.moveBy, InstructionBody.operands_moveBy, List.forall₂_map_right_iff]
    exact List.forall₂_same.2 fun op _ => op.moved_moveBy c.pc d.pc
  · intro hfixed
    exact InstructionBody.text_moveBy hfixed _

/-- An instruction with an indexed displacement off the program counter and a branch, at address
zero and two bytes behind it. -/
theorem decode_position_covariant_sobgtr :
    let m := Memory.ofList [0xf5, 0x42, 0xbf, 0x10, 0xfe]
    let m' := Memory.ofList [0x01, 0x01, 0xf5, 0x42, 0xbf, 0x10, 0xfe, 0x05]
    ∃ i c' i' d', Instruction.decode m (.start 0) = .ok i c' ∧ i.text = "sobgtr *0x14[r2],0x3" ∧
      Instruction.decode m' (.start 2) = .ok i' d' ∧ i'.bytes = i.bytes ∧
      List.Forall₂ (Operand.Moved 0 2) i.body.operands i'.body.operands := by
  intro m m'
  have hrun : (Instruction.decode m).run' (.start 0) = some ⟨0, 5, [0xf5, 0x42, 0xbf, 0x10, 0xfe],
      .known ⟨0xf5, "sobgtr", [.general .long, .branch .byte]⟩
        [⟨.general .long ⟨[⟨2⟩], .displacement .byte .pc true, 0x10⟩, 4⟩,
          ⟨.branch .byte 0xfe, 5⟩]⟩ := by
    decide +kernel
  obtain ⟨c', hdecode⟩ := Decoder.exists_ok_of_run' hrun
  obtain ⟨i', d', hdecode', -, hbytes, -, -, hoperands, -⟩ :=
    decode_position_covariant m m' (by decide) (by decide) (.start 0) c' (.start 2) _ hdecode
      (by decide)
  exact ⟨_, c', i', d', hdecode, by decide +kernel, hdecode', hbytes, hoperands⟩

end VaxListing
