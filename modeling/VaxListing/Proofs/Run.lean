import VaxListing.Proofs.InstructionFormat
import VaxListing.Run

set_option relaxedAutoImplicit false
set_option autoImplicit false

/-!
# Runs tile the memory

The instructions of a run lie in memory one behind another, without gaps: each starts where the one
before ended, and its bytes are those of the memory between its two addresses. A run gives
instructions first, then at most one fault, and nothing from then on.

## Main definitions

* `VaxListing.Run.items`, `VaxListing.Run.after` — what the first steps of a run give, and the run
  after them.
* `VaxListing.Tile`, `VaxListing.Tiles` — an instruction that covers its part of the memory, and
  instructions that cover a segment.
* `VaxListing.Run.Outcome` — what one step of a run can do.

## Main results

* `VaxListing.Run.next_outcome` — every step is one of these.
* `VaxListing.Run.decoded_of_item` — what is known of a step that gives an instruction.
* `VaxListing.run_tiles_memory` — the shape of a run, over any number of steps.

## Design

`Run.Outcome` is the only place where a step is taken apart. What a whole run keeps is proved by
induction on the number of steps, with one case for each outcome of the first step.
-/

namespace VaxListing

namespace Run

/-- What the first `k` steps of a run give. -/
def items (m : Memory) (run : Run) (k : Nat) : List (Option (Except ListingFault Instruction)) :=
  (run.steps m k).map RunStep.item

/-- The run after its first `k` steps. -/
def after (m : Memory) (run : Run) : Nat → Run
  | 0 => run
  | k + 1 => (run.next m).run.after m k

@[simp]
lemma items_zero (m : Memory) (run : Run) : run.items m 0 = [] :=
  rfl

lemma items_succ (m : Memory) (run : Run) (k : Nat) :
    run.items m (k + 1) = (run.next m).item :: (run.next m).run.items m k :=
  rfl

@[simp]
lemma after_zero (m : Memory) (run : Run) : run.after m 0 = run :=
  rfl

lemma after_succ (m : Memory) (run : Run) (k : Nat) :
    run.after m (k + 1) = (run.next m).run.after m k :=
  rfl

@[simp]
lemma length_items (m : Memory) (run : Run) (k : Nat) : (run.items m k).length = k := by
  induction k generalizing run with
  | zero => rfl
  | succ k ih => rw [items_succ, List.length_cons, ih]

end Run

/-! ## Tilings -/

/-- An instruction covers its part of the memory, and starts inside the code. -/
structure Tile (m : Memory) (codeSize : UInt32) (i : Instruction) : Prop where
  /-- The instruction takes at least one byte. -/
  start_lt_stop : i.start.toNat < i.stop.toNat
  /-- The instruction ends inside the memory. -/
  stop_le_size : i.stop.toNat ≤ m.size
  /-- The instruction starts inside the code. -/
  start_lt_codeSize : i.start < codeSize
  /-- The bytes of the instruction are those of the memory. -/
  bytes_eq : i.bytes = (m.toList.drop i.start.toNat).take (i.stop.toNat - i.start.toNat)
  /-- There are as many bytes as the addresses say. -/
  length_bytes : i.bytes.length = i.stop.toNat - i.start.toNat

/-- The instructions cover the memory from the address `p` up to the address `e`: the first starts
at `p`, each other one where the one before ended, and `e` is where the last one ended. -/
def Tiles (m : Memory) (codeSize : UInt32) : Nat → List Instruction → Nat → Prop
  | p, [], e => p = e
  | p, i :: is, e => i.start.toNat = p ∧ Tile m codeSize i ∧ Tiles m codeSize i.stop.toNat is e

namespace Tiles

variable {m : Memory} {codeSize : UInt32}

/-- A tiling takes at least one byte for each instruction. -/
lemma add_length_le {p e : Nat} {is : List Instruction} (h : Tiles m codeSize p is e) :
    p + is.length ≤ e := by
  induction is generalizing p with
  | nil => exact le_of_eq h
  | cons i is ih =>
    obtain ⟨hstart, htile, hrest⟩ := h
    have hlt := htile.start_lt_stop
    have hle := ih hrest
    rw [List.length_cons]
    omega

/-- A tiling that starts inside the memory ends there. -/
lemma le_size {p e : Nat} {is : List Instruction} (h : Tiles m codeSize p is e)
    (hp : p ≤ m.size) : e ≤ m.size := by
  induction is generalizing p with
  | nil => exact h ▸ hp
  | cons i is ih => exact ih h.2.2 h.2.1.stop_le_size

/-- A tiling from address zero on has fewer instructions than there are addresses. -/
lemma length_lt_size {e : Nat} {is : List Instruction} (h : Tiles m codeSize 0 is e)
    (hm : m.size < 2 ^ 32) : is.length < UInt32.size := by
  have hlength := h.add_length_le
  have hsize := h.le_size (Nat.zero_le _)
  show is.length < 2 ^ 32
  omega

/-- Every instruction of a tiling but the last one ends inside the code, since the next one starts
there. -/
lemma stop_lt_codeSize {p e : Nat} {is : List Instruction} (h : Tiles m codeSize p is e) :
    ∀ i ∈ is.dropLast, i.stop < codeSize := by
  induction is generalizing p with
  | nil => exact fun i hi => (nomatch hi)
  | cons i is ih =>
    obtain ⟨-, -, hrest⟩ := h
    cases is with
    | nil => exact fun i hi => (nomatch hi)
    | cons j js =>
      have hothers := ih hrest
      obtain ⟨hstart, htile, -⟩ := hrest
      rw [List.dropLast_cons_cons, List.forall_mem_cons]
      refine ⟨?_, hothers⟩
      rw [← UInt32.toNat_inj.1 hstart]
      exact htile.start_lt_codeSize

/-- The bytes of a tiling, one after another, are those of the segment that it covers. -/
lemma flatMap_bytes {p e : Nat} {is : List Instruction} (h : Tiles m codeSize p is e) :
    is.flatMap Instruction.bytes = (m.toList.drop p).take (e - p) := by
  induction is generalizing p with
  | nil =>
    obtain rfl : p = e := h
    simp
  | cons i is ih =>
    obtain ⟨rfl, htile, hrest⟩ := h
    have hlt := htile.start_lt_stop
    have hle := hrest.add_length_le
    have hdrop : m.toList.drop i.stop.toNat =
        (m.toList.drop i.start.toNat).drop (i.stop.toNat - i.start.toNat) := by
      rw [List.drop_drop]
      congr 1
      omega
    rw [List.flatMap_cons, ih hrest, htile.bytes_eq, hdrop, ← List.take_add]
    congr 1
    omega

end Tiles

/-! ## One step -/

/-- What one step of a run can do. -/
inductive Run.Outcome (m : Memory) (run : Run) : RunStep → Prop
  /-- The run is at its end and stays there. -/
  | ended (h : run.failed = true ∨ run.codeSize ≤ run.pc) : Outcome m run ⟨none, run, #[]⟩
  /-- An instruction is decoded, and the run goes on behind it. -/
  | decoded (i : Instruction) (c : Cursor) (hlive : run.failed = false)
      (hdecode : Instruction.decode m (.start run.pc) = .ok i c) (hstart : i.start = run.pc)
      (htile : Tile m run.codeSize i) :
      Outcome m run
        ⟨some (.ok i), { run with pc := i.stop }, c.events.push (.decoded i.start i.text)⟩
  /-- No instruction can be decoded, and the run fails. -/
  | stopped (fault : MachineFault) (c : Cursor) (hlive : run.failed = false)
      (hdecode : Instruction.decode m (.start run.pc) = .error fault c) :
      Outcome m run
        ⟨some (.error (.machine fault)), { run with pc := c.pc, failed := true },
          c.events.push (.stopped c.pc (.machine fault))⟩

namespace Run

variable {m : Memory} (hm : m.size < 2 ^ 32)

include hm in
/-- A decoded instruction covers its part of the memory. -/
lemma tile_of_decode {c c' : Cursor} {i : Instruction} (h : Instruction.decode m c = .ok i c')
    {codeSize : UInt32} (hinside : c.pc < codeSize) :
    i.start = c.pc ∧ c'.pc = i.stop ∧ Tile m codeSize i := by
  obtain ⟨⟨⟨hstart, hstop, hbytes⟩, -⟩, hat, hpc⟩ := (reads_instruction hm c).sound h
  have hpos : 0 < i.body.encode.length := List.length_pos_iff.2 i.body.encode_ne_nil
  have hle : c.pc.toNat + i.body.encode.length ≤ m.size := hat.le_size i.body.encode_ne_nil
  have hlen : i.stop.toNat - i.start.toNat = i.body.encode.length := by omega
  have hstart' : i.start = c.pc := UInt32.toNat_inj.1 hstart
  -- the addresses are compared as numbers, where nothing wraps below the size of the memory
  refine ⟨hstart', UInt32.toNat_inj.1 (hpc.trans hstop.symm), ?_⟩
  exact {
    start_lt_stop := by omega
    stop_le_size := by omega
    start_lt_codeSize := hstart' ▸ hinside
    bytes_eq := by
      rw [hlen, hstart, hbytes]
      exact hat.eq_take.symm
    length_bytes := by rw [hlen, hbytes] }

include hm in
/-- **Every step of a run** ends it, decodes an instruction, or fails. -/
lemma next_outcome (run : Run) : Outcome m run (run.next m) := by
  rw [next]
  split
  case isTrue h => exact .ended h
  case isFalse h =>
    have hlive : run.failed = false := by simpa using fun hfailed => h (.inl hfailed)
    have hinside : run.pc < run.codeSize := UInt32.not_le.1 fun hle => h (.inr hle)
    cases hdecode : Instruction.decode m (.start run.pc) with
    | ok i c =>
      obtain ⟨hstart, hpc, htile⟩ := tile_of_decode hm hdecode hinside
      dsimp only
      rw [hpc]
      exact .decoded i c hlive hdecode hstart htile
    | error fault c => exact .stopped fault c hlive hdecode

include hm in
/-- **A step that gives an instruction** has decoded it inside the code, and the run goes on behind
it. -/
lemma decoded_of_item {run : Run} {i : Instruction} (h : (run.next m).item = some (.ok i)) :
    run.failed = false ∧ Tile m run.codeSize i ∧ i.start = run.pc ∧
      (run.next m).run = { run with pc := i.stop } ∧
      ∃ c, Instruction.decode m (.start run.pc) = .ok i c := by
  generalize hstep : run.next m = step at h ⊢
  cases hstep ▸ next_outcome hm run with
  | ended hend => cases h
  | stopped fault c hlive hdecode => cases h
  | decoded j c hlive hdecode hstart htile =>
    cases h
    exact ⟨hlive, htile, hstart, rfl, c, hdecode⟩

/-! ## Any number of steps -/

/-- A run at its end gives nothing. -/
lemma next_of_ended {run : Run} (h : run.failed = true ∨ run.codeSize ≤ run.pc) :
    run.next m = ⟨none, run, #[]⟩ :=
  if_pos h

/-- Inside the code a run gives the instruction that is decoded there, and goes on behind it. -/
lemma next_of_decode {run : Run} {i : Instruction} {c : Cursor} (hlive : run.failed = false)
    (hinside : run.pc < run.codeSize) (hdecode : Instruction.decode m (.start run.pc) = .ok i c) :
    run.next m =
      ⟨some (.ok i), { run with pc := c.pc }, c.events.push (.decoded i.start i.text)⟩ := by
  have hgoes : ¬ (run.failed = true ∨ run.codeSize ≤ run.pc) := by
    simp [hlive, hinside]
  rw [next, if_neg hgoes, hdecode]

/-- A run at its end gives nothing for ever. -/
lemma items_of_ended {run : Run} (h : run.failed = true ∨ run.codeSize ≤ run.pc) (k : Nat) :
    run.items m k = List.replicate k none := by
  induction k with
  | zero => rfl
  | succ k ih => rw [items_succ, next_of_ended h, ih, List.replicate_succ]

/-- A run at its end stays as it is. -/
lemma after_of_ended {run : Run} (h : run.failed = true ∨ run.codeSize ≤ run.pc) (k : Nat) :
    run.after m k = run := by
  induction k with
  | zero => rfl
  | succ k ih => rw [after_succ, next_of_ended h, ih]

/-- What the first `k` steps of a run that has not failed look like: they give the instructions
`is`, then perhaps a fault, then `n` times nothing, and the instructions end at the address `e`. -/
structure Trace (m : Memory) (run : Run) (k : Nat) (is : List Instruction)
    (fault : Option ListingFault) (n e : Nat) : Prop where
  /-- Instructions come first, then at most one fault, then nothing. -/
  items_eq : run.items m k = is.map (fun i => some (.ok i)) ++
    fault.toList.map (fun f => some (.error f)) ++ List.replicate n none
  /-- Once something else than an instruction was given, the run stays as it is. -/
  frozen : ∀ j, is.length < j → j ≤ k → run.after m j = run.after m k
  /-- The instructions tile the memory. -/
  tiles : Tiles m run.codeSize run.pc.toNat is e
  /-- Without a fault, the program counter is where the last instruction ended. -/
  pc_eq : fault = none → (run.after m k).pc.toNat = e
  /-- Nothing is given only from the end of the code on, or after a fault. -/
  ended : fault = none → 0 < n → run.codeSize ≤ (run.after m k).pc

include hm in
/-- **Every run leaves a trace.**

**Proof sketch.** Induction on the number of steps, by the outcome of the first one
(`next_outcome`). A run that is at its end gives nothing and does not move. A run that fails is at
its end afterwards. A run that decodes an instruction goes on behind it, where the induction
hypothesis gives the rest of the trace. -/
lemma exists_trace (k : Nat) (run : Run) (hlive : run.failed = false) :
    ∃ is fault n e, Trace m run k is fault n e := by
  induction k generalizing run with
  | zero =>
    refine ⟨[], none, 0, run.pc.toNat, rfl, fun j hj hj' => ?_, rfl, fun _ => rfl, ?_⟩
    · rw [List.length_nil] at hj
      omega
    · exact fun _ h => absurd h (by omega)
  | succ k ih =>
    generalize hnext : run.next m = step
    have houtcome := next_outcome hm run
    rw [hnext] at houtcome
    cases houtcome with
    | ended h =>
      have hafter := fun j => after_of_ended (m := m) h j
      refine ⟨[], none, k + 1, run.pc.toNat, items_of_ended h _, fun j _ _ => ?_, rfl, ?_, ?_⟩
      · rw [hafter, hafter]
      · rw [hafter]
        exact fun _ => rfl
      · rw [hafter]
        exact fun _ _ => h.resolve_left (by simp [hlive])
    | stopped fault c _ _ =>
      set failed : Run := { run with pc := c.pc, failed := true } with hfailed
      have hend : failed.failed = true ∨ failed.codeSize ≤ failed.pc := .inl rfl
      refine ⟨[], some (.machine fault), k, run.pc.toNat, ?_, fun j hj _ => ?_, rfl,
        fun h => (nomatch h), fun h => (nomatch h)⟩
      · rw [items_succ, hnext, items_of_ended hend]
        rfl
      · obtain ⟨j, rfl⟩ : ∃ j', j = j' + 1 := ⟨j - 1, by rw [List.length_nil] at hj; omega⟩
        rw [after_succ, after_succ, hnext, after_of_ended hend, after_of_ended hend]
    | decoded i c _ _ hstart htile =>
      obtain ⟨is, fault, n, e, htrace⟩ := ih { run with pc := i.stop } hlive
      refine ⟨i :: is, fault, n, e, ?_, fun j hj hj' => ?_, ?_, ?_, ?_⟩
      · rw [items_succ, hnext, htrace.items_eq]
        rfl
      · rw [List.length_cons] at hj
        obtain ⟨j, rfl⟩ : ∃ j', j = j' + 1 := ⟨j - 1, by omega⟩
        rw [after_succ, after_succ, hnext]
        exact htrace.frozen j (by omega) (by omega)
      · exact ⟨by rw [hstart], htile, htrace.tiles⟩
      · rw [after_succ, hnext]
        exact htrace.pc_eq
      · rw [after_succ, hnext]
        exact htrace.ended

end Run

/-- **Runs tile the memory.** Let the memory have fewer than `2 ^ 32` bytes. Whatever the size of
the code and the number of steps, the run from the beginning gives instructions, then at most one
fault, then nothing, and the program counter does not move once it has given something else than an
instruction. The instructions tile the memory from address zero on: each starts where the one before
ended, takes at least one byte, ends inside the memory, starts inside the code, and has exactly the
bytes that stand between its two addresses. As long as there is no fault, the program counter is
where the last instruction ended; and if then the run has given nothing, the program counter has
come to the end of the code, which all instructions but the last end strictly before. -/
theorem run_tiles_memory (m : Memory) (hm : m.size < 2 ^ 32) (codeSize : UInt32) (k : Nat) :
    ∃ (is : List Instruction) (fault : Option ListingFault) (n e : Nat),
      (Run.start codeSize).items m k = is.map (fun i => some (.ok i)) ++
        fault.toList.map (fun f => some (.error f)) ++ List.replicate n none ∧
      (∀ j, is.length < j → j ≤ k →
        ((Run.start codeSize).after m j).pc = ((Run.start codeSize).after m k).pc) ∧
      Tiles m codeSize 0 is e ∧
      (fault = none → ((Run.start codeSize).after m k).pc.toNat = e) ∧
      (fault = none → 0 < n → codeSize ≤ ((Run.start codeSize).after m k).pc ∧
        ∀ i ∈ is.dropLast, i.stop < codeSize) := by
  obtain ⟨is, fault, n, e, htrace⟩ := Run.exists_trace hm k (Run.start codeSize) rfl
  refine ⟨is, fault, n, e, htrace.items_eq, fun j hj hj' => ?_, htrace.tiles, htrace.pc_eq, ?_⟩
  · rw [htrace.frozen j hj hj']
  · exact fun hfault hn => ⟨htrace.ended hfault hn, htrace.tiles.stop_lt_codeSize⟩

/-- Two instructions and the beginning of a third: seven steps of the run over them, with the end of
the code beyond the memory. -/
theorem run_tiles_memory_truncated :
    ∃ (is : List Instruction) (fault : Option ListingFault) (n e : Nat),
      (Run.start 100).items (.ofList [0x01, 0xd0, 0x50, 0x51, 0xd0]) 7 =
        is.map (fun i => some (.ok i)) ++ fault.toList.map (fun f => some (.error f)) ++
          List.replicate n none ∧
      Tiles (.ofList [0x01, 0xd0, 0x50, 0x51, 0xd0]) 100 0 is e := by
  obtain ⟨is, fault, n, e, hitems, -, htiles, -⟩ :=
    run_tiles_memory (.ofList [0x01, 0xd0, 0x50, 0x51, 0xd0]) (by decide) 100 7
  exact ⟨is, fault, n, e, hitems, htiles⟩

end VaxListing
