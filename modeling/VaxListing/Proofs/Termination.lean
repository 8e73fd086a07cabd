import Mathlib.Data.PFun
import VaxListing.Proofs.Tour

set_option relaxedAutoImplicit false
set_option autoImplicit false

/-!
# Decoding and runs come to an end

Below `2 ^ 32` bytes of memory every loop ends by itself: the walk over index bytes and the run over
instructions both move the program counter forward until the memory ends. At `2 ^ 32` bytes the
program counter wraps around, and there is a run that never ends.

## Main definitions

* `VaxListing.Process` — a piece of decoding that may never end.
* `VaxListing.Specifier.walkStep`, `VaxListing.Specifier.walk` — one round of the walk over index
  bytes, and the walk without a bound on its rounds.
* `VaxListing.Instruction.process` — decoding an instruction by such walks.

## Main results

* `VaxListing.Specifier.walk_eq` — the walk ends, with the result of the bounded one.
* `VaxListing.Instruction.process_eq` — so does decoding an instruction.
* `VaxListing.Tiles.add_length_le_codeSize` — a run has at most as many instructions as the code has
  bytes.
* `VaxListing.Run.endless` — a run round a memory of `2 ^ 32` bytes.
* `VaxListing.run_ends_and_bound_is_sharp` — these together.

## Design

A process has a value only where it ends. `Specifier.walk` repeats its round as long as there is
another one (`PFun.fix`), so that a walk that never ends has no value. A process that is made of
decoders and walks is a decoder again as soon as the walks are, since `Process.ofDecoder` respects
putting pieces together.
-/

namespace VaxListing

/-! ## Decoding without a bound -/

/-- A piece of decoding that may never end. If it ends, it gives a result or a fault, and a cursor
in either case. -/
abbrev Process (α : Type) :=
  ExceptT MachineFault (StateT Cursor Part) α

namespace Process

variable {α β : Type}

/-- The outcome of a piece of decoding, as that of a process. -/
def outcome : EStateM.Result MachineFault Cursor α → Except MachineFault α × Cursor
  | .ok a c => (.ok a, c)
  | .error fault c => (.error fault, c)

/-- A decoder is a process that ends. -/
def ofDecoder (d : Decoder α) : Process α := fun c =>
  Part.some (outcome (d c))

lemma ofDecoder_pure (a : α) : ofDecoder (pure a) = pure a :=
  rfl

/-- Putting decoders together gives the process that is put together of them. -/
lemma ofDecoder_bind (d : Decoder α) (k : α → Decoder β) :
    ofDecoder (d >>= k) = ofDecoder d >>= fun a => ofDecoder (k a) := by
  funext c
  simp only [bind, EStateM.bind, ExceptT.bind, ExceptT.mk, StateT.bind, ofDecoder, Part.bind_some]
  cases d c <;> rfl

/-- Rearranging the result of a decoder rearranges that of the process. -/
lemma ofDecoder_map (f : α → β) (d : Decoder α) : ofDecoder (f <$> d) = f <$> ofDecoder d := by
  have hmap : f <$> d = d >>= fun a => pure (f a) := rfl
  rw [hmap, ofDecoder_bind, ← bind_pure_comp]
  rfl

end Process

namespace Specifier

/-- One round of the walk over index bytes, from the registers met before, the last one first. It
ends the walk with its outcome, or leads to the next round. -/
def walkStep (m : Memory) (s : List Register × Cursor) :
    (Except MachineFault (List Register × BaseMode) × Cursor) ⊕ (List Register × Cursor) :=
  match m.fetchModeByte s.2 with
  | .error fault c => .inl (.error fault, c)
  | .ok b c =>
    match AddressingMode.classify b with
    | .indexed r => .inr (r :: s.1, c)
    | .base mode => .inl (.ok (s.1.reverse, mode), c)

/-- Walks the chain of index bytes up to the base mode byte, however long it is. The registers met
before are in `seen`, the last one first. -/
def walk (m : Memory) (seen : List Register) : Process (List Register × BaseMode) := fun c =>
  (PFun.lift (walkStep m)).fix (seen, c)

/-- A walk is a round, and the walk from there if the round is not the last one. -/
lemma walk_round (m : Memory) (seen : List Register) (c : Cursor) :
    walk m seen c =
      match walkStep m (seen, c) with
      | .inl outcome => Part.some outcome
      | .inr s => walk m s.1 s.2 := by
  cases hstep : walkStep m (seen, c) with
  | inl outcome =>
    refine Part.eq_some_iff.2 (PFun.fix_stop ?_)
    rw [PFun.lift, hstep]
    exact Part.mem_some _
  | inr s =>
    refine PFun.fix_fwd_eq ?_
    rw [PFun.lift, hstep]
    exact Part.mem_some _

end Specifier

/-- Decodes a general operand. -/
def Specifier.process (m : Memory) (type : DataType) : Process Specifier := do
  let (indices, base) ← walk m []
  let extension ← .ofDecoder (decodeExtension m type base)
  return { indices, base, extension }

namespace Operand

/-- Decodes an operand of a given type. -/
def process (m : Memory) (type : OperandType) : Process Operand := do
  let form ← match type with
    | .general type => OperandForm.general type <$> Specifier.process m type
    | .branch width => OperandForm.branch width <$> .ofDecoder (m.fetch width.size)
  let stop ← .ofDecoder Decoder.pc
  return { form, stop }

/-- Decodes operands of the given types, one after another. -/
def processAll (m : Memory) : List OperandType → Process (List Operand)
  | [] => return []
  | type :: types => do
    let operand ← process m type
    let operands ← processAll m types
    return operand :: operands

end Operand

namespace Instruction

/-- Decodes what follows the opcode of an instruction that starts at a given address. -/
def processBody (m : Memory) (start : Address) (code : UInt16) : Process InstructionBody := do
  match Opcode.find? code with
  | some opcode => return .known opcode (← Operand.processAll m opcode.operands)
  | none =>
    .ofDecoder (Decoder.note (.unknownOpcode code start))
    return .unknown code

/-- Decodes an instruction. -/
def process (m : Memory) : Process Instruction := do
  let start ← .ofDecoder Decoder.pc
  let code ← .ofDecoder (decodeCode m)
  let body ← processBody m start code
  let stop ← .ofDecoder Decoder.pc
  let bytes ← .ofDecoder (Decoder.ofExcept (m.slice start (stop - start).toNat))
  return { start, stop, bytes, body }

end Instruction

/-! ## Decoding ends -/

section Ends

variable {m : Memory} (hm : m.size < 2 ^ 32)

open Process (ofDecoder ofDecoder_pure ofDecoder_bind ofDecoder_map)

include hm in
/-- **The walk over index bytes ends**, with the result of the bounded walk, given rounds enough to
leave the memory.

**Proof sketch.** Induction on the rounds. With none left the program counter is behind the memory,
where fetching a mode byte fails as the exhausted loop does. Otherwise both fetch the same mode
byte, which moves the program counter by one without wrapping; behind an index byte the induction
hypothesis applies. -/
lemma Specifier.walk_eq (rounds : Nat) (seen : List Register) (c : Cursor)
    (hrounds : m.size < rounds + c.pc.toNat) :
    walk m seen c = ofDecoder (decodeChain m rounds seen) c := by
  induction rounds generalizing seen c with
  | zero =>
    have hnone : m.bytes[c.pc.toNat]? = none :=
      Array.getElem?_eq_none_iff.2 (by rw [← Memory.size]; omega)
    rw [walk_round, walkStep, Memory.fetchModeByte_eq, hnone]
    rfl
  | succ rounds ih =>
    rw [walk_round, walkStep, Memory.fetchModeByte_eq]
    simp only [ofDecoder, decodeChain, bind, EStateM.bind, Memory.fetchModeByte_eq]
    cases hbyte : m.bytes[c.pc.toNat]? with
    | none => rfl
    | some b =>
      obtain ⟨hlt, -⟩ := Array.getElem?_eq_some_iff.1 hbyte
      have hpc : (c.pc + 1).toNat = c.pc.toNat + 1 := toNat_add_of_le hm hlt
      dsimp only
      cases AddressingMode.classify b with
      | base mode => rfl
      | indexed r => exact ih (r :: seen) ⟨c.pc + 1, _⟩ (by dsimp only; omega)

include hm in
/-- Decoding a general operand ends. -/
lemma Specifier.process_eq (type : DataType) : process m type = ofDecoder (decode m type) := by
  have hwalk : walk m [] = ofDecoder (decodeChain m UInt32.size []) := by
    funext c
    exact walk_eq hm UInt32.size [] c (Nat.lt_add_right _ hm)
  simp only [process, decode, hwalk, ofDecoder_bind, ofDecoder_pure]

include hm in
/-- Decoding an operand ends. -/
lemma Operand.process_eq (type : OperandType) : process m type = ofDecoder (decode m type) := by
  cases type with
  | general type =>
    simp only [process, decode, Specifier.process_eq hm, ofDecoder_bind, ofDecoder_pure,
      ofDecoder_map]
  | branch width => simp only [process, decode, ofDecoder_bind, ofDecoder_pure, ofDecoder_map]

include hm in
/-- Decoding operands one after another ends. -/
lemma Operand.processAll_eq (types : List OperandType) :
    processAll m types = ofDecoder (decodeAll m types) := by
  induction types with
  | nil => rfl
  | cons type types ih =>
    simp only [processAll, decodeAll, process_eq hm, ih, ofDecoder_bind, ofDecoder_pure]

include hm in
/-- **Decoding an instruction ends**, with the outcome of bounded decoding. -/
lemma Instruction.process_eq : process m = ofDecoder (decode m) := by
  have hbody : ∀ start code, processBody m start code = ofDecoder (decodeBody m start code) := by
    intro start code
    rw [processBody, decodeBody]
    cases Opcode.find? code with
    | none => simp only [ofDecoder_bind, ofDecoder_pure]
    | some opcode => simp only [Operand.processAll_eq hm, ofDecoder_bind, ofDecoder_pure]
  simp only [process, decode, hbody, ofDecoder_bind, ofDecoder_pure]

end Ends

/-! ## Runs end -/

/-- Each instruction of a tiling starts inside the code, at another address than those before, so
that there are at most as many as the code has bytes. -/
lemma Tiles.add_length_le_codeSize {m : Memory} {codeSize : UInt32} {p e : Nat}
    {is : List Instruction} (h : Tiles m codeSize p is e) (hne : is ≠ []) :
    p + is.length ≤ codeSize.toNat := by
  induction is generalizing p with
  | nil => exact absurd rfl hne
  | cons i is ih =>
    obtain ⟨rfl, htile, hrest⟩ := h
    have hstart := UInt32.lt_iff_toNat_lt.1 htile.start_lt_codeSize
    have hlt := htile.start_lt_stop
    by_cases hlast : is = []
    · rw [hlast, List.length_singleton]
      omega
    · have hle := ih hrest hlast
      rw [List.length_cons]
      omega

namespace Run

/-- What any number of steps give once the run has come to its end: the instructions, the fault if
there is one, and nothing from then on. -/
lemma items_of_yields {m : Memory} (hm : m.size < 2 ^ 32) {run : Run} {is : List Instruction}
    {fault : Option ListingFault} (h : Yields m run is fault) (n : Nat) :
    run.items m (is.length + fault.toList.length + n) = is.map (fun i => some (.ok i)) ++
      fault.toList.map (fun f => some (.error f)) ++ List.replicate n none := by
  induction is generalizing run with
  | nil =>
    rw [yields_nil] at h
    generalize hstep : run.next m = step at h
    cases hstep ▸ next_outcome hm run with
    | ended hend =>
      cases fault with
      | none => simpa using items_of_ended hend n
      | some f => cases h
    | stopped f c hlive hdecode =>
      cases fault with
      | none => cases h
      | some f' =>
        cases h
        rw [Option.toList_some, List.length_singleton, List.length_nil, Nat.zero_add,
          Nat.add_comm, items_succ, hstep, items_of_ended (.inl rfl)]
        rfl
    | decoded i c hlive hdecode hstart htile => cases fault <;> cases h
  | cons i is ih =>
    obtain ⟨hitem, hrest⟩ := yields_cons.1 h
    have hcount : (i :: is).length + fault.toList.length + n =
        is.length + fault.toList.length + n + 1 := by
      rw [List.length_cons]
      omega
    rw [hcount, items_succ, hitem, ih hrest]
    rfl

/-! ## A run that never ends -/

section Endless

/-! Every byte of the memory is the opcode of a branch with a displacement of one byte. -/

variable {m : Memory} (hsize : m.size = 2 ^ 32)
  (hbytes : ∀ p : Address, m.bytes[p.toNat]? = some 0x11)

include hsize hbytes in
/-- A branch is decoded at every even address, and the program counter moves over its two bytes. The
last one ends where the addresses wrap.

**Proof sketch.** The byte at the program counter is the opcode, and the byte behind it is read as a
displacement. The two bytes are taken from memory once more; since the address is even, they lie
inside the memory. -/
lemma decode_branches (c : Cursor) (heven : c.pc.toNat % 2 = 0) :
    ∃ i c', Instruction.decode m c = .ok i c' ∧ c'.pc = c.pc + 2 := by
  have hlt := c.pc.toNat_lt
  have hlt' := (c.pc + 1).toNat_lt
  have hcode : Instruction.decodeCode m c = .ok 0x11 ⟨c.pc + 1, c.events⟩ := by
    simp only [Instruction.decodeCode, bind, EStateM.bind, fetchByte_eq, hbytes]
    rfl
  have hfind : Opcode.find? 0x11 = some ⟨0x11, "brb", [.branch .byte]⟩ := by
    decide +kernel
  have hfetch : ∃ v, m.fetch 1 ⟨c.pc + 1, c.events⟩ =
      .ok v ⟨c.pc + 1 + .ofNat 1, c.events⟩ := by
    rw [fetch_eq rfl, if_pos (by dsimp only; omega)]
    exact ⟨_, rfl⟩
  obtain ⟨v, hfetch⟩ := hfetch
  have hbody : ∃ body, Instruction.decodeBody m c.pc 0x11 ⟨c.pc + 1, c.events⟩ =
      .ok body ⟨c.pc + 1 + .ofNat 1, c.events⟩ := by
    simp only [Instruction.decodeBody, hfind, Operand.decodeAll, Operand.decode, BranchWidth.size,
      bind, EStateM.bind, Functor.map, EStateM.map, hfetch]
    exact ⟨_, rfl⟩
  obtain ⟨body, hbody⟩ := hbody
  have hpc : c.pc + 1 + .ofNat 1 = c.pc + 2 := by
    rw [UInt32.add_assoc]
    rfl
  have hlen : (c.pc + 2 - c.pc).toNat = 2 := by
    rw [UInt32.add_comm, UInt32.add_sub_cancel]
    rfl
  have hslice : ∃ bytes, m.slice c.pc (c.pc + 2 - c.pc).toNat = .ok bytes := by
    rw [hlen, Memory.slice_eq, if_pos (by omega)]
    exact ⟨_, rfl⟩
  obtain ⟨bytes, hslice⟩ := hslice
  rw [hpc] at hbody
  refine ⟨⟨c.pc, c.pc + 2, bytes, body⟩, ⟨c.pc + 2, c.events⟩, ?_, rfl⟩
  rw [Instruction.decode_eq_bind]
  simp only [bind, EStateM.bind, hcode, hbody, hslice]

include hsize hbytes in
/-- **A run that never ends**: round a memory full of branches of two bytes, the program counter is
always even, and so never at the end of the code, which is odd.

**Proof sketch.** Induction on the number of steps. A step at an even address decodes a branch and
goes on two bytes further, which is an even address also where the addresses wrap. -/
lemma endless (k : Nat) (run : Run) (hlive : run.failed = false)
    (hcode : run.codeSize = 0xffffffff) (heven : run.pc.toNat % 2 = 0) :
    ∀ item ∈ run.items m k, ∃ i, item = some (.ok i) := by
  induction k generalizing run with
  | zero => exact fun item hitem => (nomatch hitem)
  | succ k ih =>
    have hlt := run.pc.toNat_lt
    have hinside : run.pc < run.codeSize := by
      have hend : (0xffffffff : UInt32).toNat = 4294967295 := rfl
      rw [hcode, UInt32.lt_iff_toNat_lt, hend]
      omega
    obtain ⟨i, c, hdecode, hpc⟩ := decode_branches hsize hbytes (.start run.pc) heven
    have heven' : c.pc.toNat % 2 = 0 := by
      rw [hpc]
      show (run.pc + 2).toNat % 2 = 0
      rw [UInt32.toNat_add]
      have htwo : (2 : UInt32).toNat = 2 := rfl
      omega
    rw [items_succ, next_of_decode hlive hinside hdecode, List.forall_mem_cons]
    exact ⟨⟨i, rfl⟩, ih _ hlive hcode heven'⟩

end Endless

end Run

/-- **Decoding and runs come to an end, and the bound of 32 bits is sharp.** In a memory of fewer
than `2 ^ 32` bytes, decoding an instruction ends at every program counter, even if its index chains
are walked without any bound. Whatever the size of the code, the run gives at most as many
instructions as the code and the memory have bytes, then at most one fault, and nothing from then
on. But there are a memory of exactly `2 ^ 32` bytes and a size of the code such that any number of
steps give an instruction each. -/
theorem run_ends_and_bound_is_sharp :
    (∀ m : Memory, m.size < 2 ^ 32 →
      (∀ c : Cursor, Instruction.process m c = Part.some
        (match Instruction.decode m c with
        | .ok i c' => (.ok i, c')
        | .error fault c' => (.error fault, c'))) ∧
      ∀ codeSize : UInt32, ∃ (is : List Instruction) (fault : Option ListingFault),
        is.length ≤ min codeSize.toNat m.size ∧
        ∀ n, (Run.start codeSize).items m (is.length + fault.toList.length + n) =
          is.map (fun i => some (.ok i)) ++ fault.toList.map (fun f => some (.error f)) ++
            List.replicate n none) ∧
    ∃ (m : Memory) (codeSize : UInt32), m.size = 2 ^ 32 ∧
      ∀ k, ∀ item ∈ (Run.start codeSize).items m k, ∃ i, item = some (.ok i) := by
  have hbytes : ∀ p : Address, (Array.replicate (2 ^ 32) (0x11 : UInt8))[p.toNat]? = some 0x11 := by
    intro p
    rw [Array.getElem?_replicate, if_pos p.toNat_lt]
  refine ⟨fun m hm => ⟨fun c => ?_, fun codeSize => ?_⟩, ⟨Array.replicate (2 ^ 32) 0x11⟩,
    0xffffffff, Array.size_replicate, fun k => ?_⟩
  · rw [Instruction.process_eq hm, Process.ofDecoder]
    cases Instruction.decode m c <;> rfl
  · obtain ⟨is, fault, e, hyields, htiles, hsize, -⟩ :=
      Run.exists_yields hm (Run.start codeSize) rfl (Nat.zero_le _)
    refine ⟨is, fault, le_min ?_ ?_, Run.items_of_yields hm hyields⟩
    · by_cases hne : is = []
      · rw [hne, List.length_nil]
        exact Nat.zero_le _
      · exact (Nat.le_add_left _ _).trans (htiles.add_length_le_codeSize hne)
    · have hlength := htiles.add_length_le
      omega
  · exact Run.endless Array.size_replicate hbytes k _ rfl rfl rfl

/-- An index chain that runs to the end of the memory: decoding ends there, with a fault, also when
the chain is walked without a bound. -/
theorem run_ends_and_bound_is_sharp_chain :
    let m := Memory.ofList [0xd5, 0x41, 0x42]
    m.size < 2 ^ 32 ∧
      Part.map Prod.fst (Instruction.process m (.start 0)) =
        Part.some (.error (.outOfBounds 3 1)) := by
  intro m
  have hm : m.size < 2 ^ 32 := by
    decide
  refine ⟨hm, ?_⟩
  rw [(run_ends_and_bound_is_sharp.1 m hm).1, Part.map_some]
  congr 1
  decide +kernel

end VaxListing
