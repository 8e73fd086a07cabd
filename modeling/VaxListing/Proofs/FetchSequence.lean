import VaxListing.Proofs.Format
import VaxListing.Proofs.RegisterHistory

set_option relaxedAutoImplicit false
set_option autoImplicit false

/-!
# Sequences of fetches

Fetches made one after another read the code as a stream. Each one that succeeds gives the number
that the next bytes make up and moves the program counter behind them; one that fails leaves the
program counter where it is. So the bytes of all numbers fetched, one behind another, are the bytes
of the memory between the first and the last position of the program counter, each of them once.

The program counter is a register. A fetch that succeeds is what advances it in the register file,
and a sequence of fetches is a history of such operations.

## Main definitions

* `VaxListing.FetchCall` — one call of a sequence of fetches.
* `VaxListing.Memory.fetchCalls`, `VaxListing.Memory.cursorAfter` — the calls of a sequence, and the
  cursor after them.
* `VaxListing.Cursor.registers` — the register file that belongs to a cursor.

## Main results

* `VaxListing.Bytes.value_eq_sum`, `VaxListing.Bytes.value_append` — the number of a byte string as
  a sum over its bytes, and as a sum of two parts.
* `VaxListing.fetch_eq_ok_iff` — when a fetch succeeds, and what it does.
* `VaxListing.fetch_halves` — a fetch of two halves.
* `VaxListing.holdsAt_fetchCalls` — the bytes of a whole sequence.
* `VaxListing.registers_of_fetch`, `VaxListing.registers_of_fetchByte`,
  `VaxListing.registers_cursorAfter` — what one fetch and a sequence of fetches do to the register
  file.
* `VaxListing.toNat_pc_cursorAfter` — the program counter after a sequence, also where it wraps.
* `VaxListing.fetches_read_stream_once` — these together.

## Design

That the program counter does not wrap is settled for a single fetch (`reads_fetch`). A sequence
only puts byte strings behind one another (`Memory.holdsAt_append`).
-/

namespace VaxListing

/-! ## Numbers as sums -/

namespace Bytes

/-- The bytes of a number have the powers of `256` as their weights. -/
lemma value_eq_sum (bs : List UInt8) :
    value bs = ∑ i ∈ Finset.range bs.length, (bs.getD i 0).toNat * 256 ^ i := by
  induction bs with
  | nil => simp [value]
  | cons b bs ih =>
    have hrest : ∑ i ∈ Finset.range bs.length, (bs.getD i 0).toNat * 256 ^ (i + 1) =
        256 * value bs := by
      rw [ih, Finset.mul_sum]
      apply Finset.sum_congr rfl
      intro i _
      ring
    rw [value, List.length_cons, Finset.sum_range_succ']
    simp only [List.getD_cons_succ, List.getD_cons_zero, hrest, pow_zero, mul_one]
    omega

/-- The bytes behind others count as many times more as those can hold values. -/
lemma value_append (xs ys : List UInt8) :
    value (xs ++ ys) = value xs + 256 ^ xs.length * value ys := by
  induction xs with
  | nil => simp [value]
  | cons b xs ih =>
    simp only [List.cons_append, value, ih, List.length_cons, pow_succ']
    ring

end Bytes

/-- The number that a segment of the memory makes up. -/
lemma Memory.value_segment {m : Memory} {p n : Nat} (h : p + n ≤ m.size) :
    Bytes.value ((m.toList.drop p).take n) =
      ∑ i ∈ Finset.range n, (m.bytes.getD (p + i) 0).toNat * 256 ^ i := by
  have hlen : ((m.toList.drop p).take n).length = n := by
    rw [List.length_take, List.length_drop, length_toList]
    omega
  rw [Bytes.value_eq_sum, hlen]
  apply Finset.sum_congr rfl
  intro i hi
  have hlt : i < n := Finset.mem_range.1 hi
  simp [List.getD_eq_getElem?_getD, List.getElem?_take_of_lt hlt, toList]

/-! ## One fetch -/

section OneFetch

variable {m : Memory} {n : Nat} {c c' : Cursor}

/-- **When a fetch succeeds, and what it does**: the size is one that numbers have, the bytes are
there, they make up the number, and the program counter moves over them. -/
lemma fetch_eq_ok_iff {v : Nat} :
    m.fetch n c = .ok v c' ↔
      n ∈ [1, 2, 4, 8, 16] ∧ c.pc.toNat + n ≤ m.size ∧
        v = Bytes.value ((m.toList.drop c.pc.toNat).take n) ∧
        c' = { c with pc := c.pc + .ofNat n } := by
  rw [← isReadSize_iff]
  by_cases hn : Memory.isReadSize n = true
  · rw [fetch_eq hn]
    split_ifs with hle
    · simp [hn, hle, eq_comm]
    · simp [hle]
  · simp [Memory.fetch, Memory.read, hn]

/-- A fetch that fails leaves the cursor alone. -/
lemma eq_of_fetch_eq_error {fault : MachineFault} (h : m.fetch n c = .error fault c') : c' = c := by
  unfold Memory.fetch at h
  split at h
  · cases h
  · cases h
    rfl

/-- **A number is fetched in two halves** as well, the low one first, and the cursor comes to the
same place.

**Proof sketch.** Half of an even size is again a size that numbers have. The segment of `2 * n`
bytes is the segment of `n` bytes with the one behind it, and the number of the latter counts
`256 ^ n` times. -/
lemma fetch_halves (hm : m.size < 2 ^ 32) {v : Nat} (h : m.fetch (2 * n) c = .ok v c') :
    ∃ low high mid, m.fetch n c = .ok low mid ∧ m.fetch n mid = .ok high c' ∧
      v = low + 256 ^ n * high := by
  obtain ⟨hsize, hle, rfl, rfl⟩ := fetch_eq_ok_iff.1 h
  have hhalf : n ∈ [1, 2, 4, 8, 16] := by
    simp only [List.mem_cons, List.not_mem_nil, or_false] at hsize ⊢
    omega
  have hmid : (c.pc + .ofNat n).toNat = c.pc.toNat + n := toNat_add_of_le hm (by omega)
  have hstop : c.pc + .ofNat n + .ofNat n = c.pc + .ofNat (2 * n) := by
    rw [two_mul, UInt32.ofNat_add, UInt32.add_assoc]
  have hlow : ((m.toList.drop c.pc.toNat).take n).length = n := by
    rw [List.length_take, List.length_drop, Memory.length_toList]
    omega
  refine ⟨_, _, _, fetch_eq_ok_iff.2 ⟨hhalf, by omega, rfl, rfl⟩,
    fetch_eq_ok_iff.2 ⟨hhalf, by dsimp only; omega, rfl, by rw [hstop]⟩, ?_⟩
  rw [two_mul, List.take_add, Bytes.value_append, hlow, List.drop_drop, hmid]

end OneFetch

/-! ## Sequences -/

/-- One call of a sequence of fetches. -/
structure FetchCall where
  /-- The number of bytes asked for. -/
  size : Nat
  /-- The cursor before the call. -/
  start : Cursor
  /-- The number or the fault, with the cursor after the call. -/
  result : EStateM.Result MachineFault Cursor Nat

/-- The bytes of the number that a call gives; a call that fails has none. -/
def FetchCall.bytes (call : FetchCall) : List UInt8 :=
  match call.result with
  | .ok value _ => Bytes.ofValue call.size value
  | .error .. => []

namespace Memory

/-- Fetches of the given sizes, one after another. Each starts where the one before it has left the
cursor, whether that one failed or not. -/
def fetchCalls (m : Memory) (c : Cursor) : List Nat → List FetchCall
  | [] => []
  | n :: sizes => ⟨n, c, m.fetch n c⟩ :: m.fetchCalls (cursorOf (m.fetch n c)) sizes

/-- The cursor after fetches of the given sizes. -/
def cursorAfter (m : Memory) (c : Cursor) (sizes : List Nat) : Cursor :=
  sizes.foldl (fun c n => cursorOf (m.fetch n c)) c

@[simp]
lemma cursorAfter_cons (m : Memory) (c : Cursor) (n : Nat) (sizes : List Nat) :
    m.cursorAfter c (n :: sizes) = m.cursorAfter (cursorOf (m.fetch n c)) sizes :=
  rfl

@[simp]
lemma cursorAfter_append (m : Memory) (c : Cursor) (xs ys : List Nat) :
    m.cursorAfter c (xs ++ ys) = m.cursorAfter (m.cursorAfter c xs) ys :=
  List.foldl_append

/-- Every call of a sequence is a fetch of its size from where it starts. -/
lemma result_of_mem_fetchCalls {m : Memory} {c : Cursor} {sizes : List Nat} {call : FetchCall}
    (h : call ∈ m.fetchCalls c sizes) : call.result = m.fetch call.size call.start := by
  induction sizes generalizing c with
  | nil => simp [fetchCalls] at h
  | cons n sizes ih =>
    rw [fetchCalls, List.mem_cons] at h
    rcases h with rfl | h
    · rfl
    · exact ih h

end Memory

section Sequences

variable {m : Memory} (hm : m.size < 2 ^ 32)

include hm in
/-- The bytes that one fetch gives stand in memory between its cursors. -/
lemma holdsAt_fetch (n : Nat) (c : Cursor) :
    m.HoldsAt c.pc.toNat (FetchCall.bytes ⟨n, c, m.fetch n c⟩) ∧
      (cursorOf (m.fetch n c)).pc.toNat =
        c.pc.toNat + (FetchCall.bytes ⟨n, c, m.fetch n c⟩).length := by
  unfold FetchCall.bytes
  cases h : m.fetch n c with
  | ok v c' =>
    obtain ⟨hsize, -⟩ := fetch_eq_ok_iff.1 h
    obtain ⟨-, hat, hpc⟩ := (reads_fetch hm (isReadSize_iff.2 hsize) c).sound h
    exact ⟨hat, hpc⟩
  | error fault c' =>
    simp [cursorOf, eq_of_fetch_eq_error h]

include hm in
/-- **The bytes that a sequence of fetches gives stand in memory between its cursors.**

**Proof sketch.** Induction on the sequence. The bytes of the first fetch stand at the first cursor,
and those of the others stand where it has moved to, which is right behind them. -/
lemma holdsAt_fetchCalls (sizes : List Nat) (c : Cursor) :
    m.HoldsAt c.pc.toNat ((m.fetchCalls c sizes).flatMap FetchCall.bytes) ∧
      (m.cursorAfter c sizes).pc.toNat =
        c.pc.toNat + ((m.fetchCalls c sizes).flatMap FetchCall.bytes).length := by
  induction sizes generalizing c with
  | nil => simp [Memory.fetchCalls, Memory.cursorAfter]
  | cons n sizes ih =>
    obtain ⟨hat, hpc⟩ := holdsAt_fetch hm n c
    obtain ⟨hrest, hstop⟩ := ih (cursorOf (m.fetch n c))
    rw [hpc] at hrest hstop
    rw [Memory.fetchCalls, List.flatMap_cons, Memory.holdsAt_append, List.length_append,
      Memory.cursorAfter_cons, hstop, Nat.add_assoc]
    exact ⟨⟨hat, hrest⟩, rfl⟩

end Sequences

/-! ## The program counter as a register -/

/-- The register file that belongs to a cursor. Decoding starts with a new register file whose
program counter is set, and changes nothing else in it. -/
def Cursor.registers (c : Cursor) : RegisterFile :=
  RegisterFile.zeroed.setPc c.pc

/-- **A fetch advances the program counter of the register file by its size**, if it succeeds. -/
lemma registers_of_fetch {m : Memory} {n v : Nat} {c c' : Cursor} (h : m.fetch n c = .ok v c') :
    c'.registers = c.registers.advancePc n := by
  obtain ⟨-, -, -, rfl⟩ := fetch_eq_ok_iff.1 h
  exact (RegisterFile.zeroed.advancePc_setPc c.pc n).symm

/-- A byte that is fetched advances it by one. -/
lemma registers_of_fetchByte {m : Memory} {b : UInt8} {c c' : Cursor}
    (h : m.fetchByte c = .ok b c') : c'.registers = c.registers.advancePc 1 := by
  rw [fetchByte_eq] at h
  split at h
  · cases h
    exact (RegisterFile.zeroed.advancePc_setPc c.pc 1).symm
  · cases h

namespace FetchCall

/-- What a call does to the register file; a call that fails does nothing. -/
def operations (call : FetchCall) : List RegisterFile.Operation :=
  match call.result with
  | .ok .. => [.advancePc call.size]
  | .error .. => []

/-- A call never puts the program counter anywhere. -/
lemma jump?_of_mem_operations {call : FetchCall} {op : RegisterFile.Operation}
    (h : op ∈ call.operations) : op.jump? = none := by
  unfold operations at h
  split at h
  · rw [List.mem_singleton.1 h]
    rfl
  · cases h

/-- A call advances the program counter over the bytes of its number. -/
lemma sum_advance_operations (call : FetchCall) :
    (call.operations.map RegisterFile.Operation.advance).sum = call.bytes.length := by
  unfold operations bytes
  split
  · simp [RegisterFile.Operation.advance]
  · rfl

/-- Calls advance the program counter over the bytes of all their numbers. -/
lemma sum_advance_flatMap (calls : List FetchCall) :
    ((calls.flatMap operations).map RegisterFile.Operation.advance).sum =
      (calls.flatMap bytes).length := by
  induction calls with
  | nil => rfl
  | cons call calls ih =>
    rw [List.flatMap_cons, List.flatMap_cons, List.map_append, List.sum_append, List.length_append,
      sum_advance_operations, ih]

end FetchCall

/-- One call takes the register file of its cursor to that of the next one. -/
lemma foldl_operations_fetch (m : Memory) (n : Nat) (c : Cursor) :
    (FetchCall.operations ⟨n, c, m.fetch n c⟩).foldl RegisterFile.Operation.perform c.registers =
      (cursorOf (m.fetch n c)).registers := by
  unfold FetchCall.operations
  cases h : m.fetch n c with
  | ok v c' => exact (registers_of_fetch h).symm
  | error fault c' =>
    rw [eq_of_fetch_eq_error h]
    rfl

/-- **A sequence of fetches is a history of the register file**: the program counter is set, and
each fetch that succeeds advances it. -/
lemma registers_cursorAfter (m : Memory) (sizes : List Nat) (c : Cursor) :
    (m.cursorAfter c sizes).registers =
      RegisterFile.after (.setPc c.pc :: (m.fetchCalls c sizes).flatMap FetchCall.operations) := by
  change _ = ((m.fetchCalls c sizes).flatMap FetchCall.operations).foldl
    RegisterFile.Operation.perform c.registers
  induction sizes generalizing c with
  | nil => rfl
  | cons n sizes ih =>
    rw [Memory.fetchCalls, List.flatMap_cons, List.foldl_append, foldl_operations_fetch,
      Memory.cursorAfter_cons, ih]

/-- **The program counter after a sequence of fetches**, in a memory of any size: it has moved over
the bytes of all numbers that were fetched, modulo `2 ^ 32`. -/
lemma toNat_pc_cursorAfter (m : Memory) (sizes : List Nat) (c : Cursor) :
    (m.cursorAfter c sizes).pc.toNat =
      (c.pc.toNat + ((m.fetchCalls c sizes).flatMap FetchCall.bytes).length) % 2 ^ 32 := by
  have hjumps : ∀ op ∈ (m.fetchCalls c sizes).flatMap FetchCall.operations, op.jump? = none := by
    intro op hop
    obtain ⟨call, -, hop⟩ := List.mem_flatMap.1 hop
    exact FetchCall.jump?_of_mem_operations hop
  calc (m.cursorAfter c sizes).pc.toNat
      = (m.cursorAfter c sizes).registers.pc.toNat := by
        rw [Cursor.registers, RegisterFile.pc_setPc]
    _ = (c.pc.toNat + (((m.fetchCalls c sizes).flatMap FetchCall.operations).map
          RegisterFile.Operation.advance).sum) % 2 ^ 32 := by
        rw [registers_cursorAfter, RegisterFile.toNat_pc_after_setPc _ hjumps]
    _ = _ := by
        rw [FetchCall.sum_advance_flatMap]

/-- **Sequences of fetches read the code once.** Let fetches of any sizes be made one after another
in a memory of fewer than `2 ^ 32` bytes, from any program counter on and going on after faults.

Each call succeeds exactly if its size is one that numbers have and as many bytes are there. Then it
gives the sum of these bytes, weighted with the powers of `256`, and moves the program counter
behind them without wrapping; a call that fails leaves the program counter alone. The bytes of all
numbers that were given are the bytes of the memory between the first and the last program counter.
A call that succeeds can be replaced by two calls for half the size: they give the low and the high
half of the number, and the program counter is the same afterwards and at the end. -/
theorem fetches_read_stream_once (m : Memory) (hm : m.size < 2 ^ 32) (c : Cursor)
    (sizes : List Nat) :
    let stop := (m.cursorAfter c sizes).pc.toNat
    (∀ call ∈ m.fetchCalls c sizes,
      ((∃ v c', call.result = .ok v c') ↔
        call.size ∈ [1, 2, 4, 8, 16] ∧ call.start.pc.toNat + call.size ≤ m.size) ∧
      (∀ v c', call.result = .ok v c' →
        v = ∑ i ∈ Finset.range call.size,
          (m.bytes.getD (call.start.pc.toNat + i) 0).toNat * 256 ^ i ∧
        c'.pc.toNat = call.start.pc.toNat + call.size) ∧
      ∀ fault c', call.result = .error fault c' → c'.pc = call.start.pc) ∧
    (c.pc.toNat ≤ stop ∧ (stop = c.pc.toNat ∨ stop ≤ m.size) ∧
      (m.fetchCalls c sizes).flatMap FetchCall.bytes =
        (m.toList.drop c.pc.toNat).take (stop - c.pc.toNat)) ∧
    ∀ before n later v c', sizes = before ++ 2 * n :: later →
      m.fetch (2 * n) (m.cursorAfter c before) = .ok v c' →
      ∃ low high mid, m.fetch n (m.cursorAfter c before) = .ok low mid ∧
        m.fetch n mid = .ok high c' ∧ v = low + 256 ^ n * high ∧
        m.cursorAfter c (before ++ n :: n :: later) = m.cursorAfter c sizes := by
  intro stop
  refine ⟨fun call hcall => ?_, ?_, ?_⟩
  · rw [Memory.result_of_mem_fetchCalls hcall]
    refine ⟨?_, fun v c' h => ?_, fun fault c' h => ?_⟩
    · simp only [fetch_eq_ok_iff]
      constructor
      · rintro ⟨v, c', hsize, hle, -⟩
        exact ⟨hsize, hle⟩
      · rintro ⟨hsize, hle⟩
        exact ⟨_, _, hsize, hle, rfl, rfl⟩
    · obtain ⟨-, hle, rfl, rfl⟩ := fetch_eq_ok_iff.1 h
      exact ⟨Memory.value_segment hle, toNat_add_of_le hm hle⟩
    · rw [eq_of_fetch_eq_error h]
  · obtain ⟨hat, hstop⟩ := holdsAt_fetchCalls hm sizes c
    change stop = _ at hstop
    set bs := (m.fetchCalls c sizes).flatMap FetchCall.bytes with hbs
    refine ⟨by omega, ?_, ?_⟩
    · by_cases hne : bs = []
      · simp [hstop, hne]
      · have hle := hat.le_size hne
        omega
    · rw [hstop, Nat.add_sub_cancel_left, hat.eq_take]
  · rintro before n later v c' rfl hfetch
    obtain ⟨low, high, mid, hlow, hhigh, hv⟩ := fetch_halves hm hfetch
    refine ⟨low, high, mid, hlow, hhigh, hv, ?_⟩
    simp [hfetch, hlow, hhigh, cursorOf]

/-- Two fetches that succeed, one that fails for its size in between, and one that fails at the end
of the memory. -/
theorem fetches_read_stream_once_between_faults :
    let m := Memory.ofList [0x01, 0x34, 0x12, 0xff, 0x78, 0x56, 0x34, 0x12]
    let third := m.cursorAfter (.start 1) [2, 3]
    m.size < 2 ^ 32 ∧ (m.cursorAfter (.start 1) [2, 3, 4, 4]).pc.toNat = 7 ∧
      (m.fetchCalls (.start 1) [2, 3, 4, 4]).flatMap FetchCall.bytes =
        [0x34, 0x12, 0xff, 0x78, 0x56, 0x34] ∧
      (∃ v c', m.fetch 4 third = .ok v c') ∧
      ∃ low high mid c', m.fetch 2 third = .ok low mid ∧ m.fetch 2 mid = .ok high c' ∧
        0x345678ff = low + 256 ^ 2 * high := by
  intro m third
  have hm : m.size < 2 ^ 32 := by
    decide
  have hstop : (m.cursorAfter (.start 1) [2, 3, 4, 4]).pc.toNat = 7 := by
    decide
  obtain ⟨hcalls, ⟨-, -, hbytes⟩, hhalves⟩ := fetches_read_stream_once m hm (.start 1) [2, 3, 4, 4]
  rw [hstop] at hbytes
  have hfetch : m.fetch (2 * 2) third = .ok 0x345678ff _ :=
    fetch_eq_ok_iff.2 ⟨by decide, by decide, by decide, rfl⟩
  obtain ⟨low, high, mid, hlow, hhigh, hv, -⟩ := hhalves [2, 3] 2 [4] _ _ rfl hfetch
  refine ⟨hm, hstop, hbytes, ?_, low, high, mid, _, hlow, hhigh, hv⟩
  exact (hcalls ⟨4, third, m.fetch 4 third⟩ (.tail _ (.tail _ (.head _)))).1.2 (by decide)

end VaxListing
