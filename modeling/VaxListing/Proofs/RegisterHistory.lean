import Mathlib.Data.List.DropRight
import Mathlib.Tactic
import VaxListing.Register.File

set_option relaxedAutoImplicit false
set_option autoImplicit false

/-!
# The register file over whole histories

What a register holds can be read off the operations that were made on the register file, without
making them. Every register but the program counter holds what was written to it last. The program
counter is where it was put last, moved forward by all byte counts since.

## Main definitions

* `VaxListing.RegisterFile.Operation` — an operation that changes a register file.
* `VaxListing.RegisterFile.after` — a new register file after a history of operations.
* `VaxListing.RegisterFile.lastWritten?` — the value that was last written to a register.
* `VaxListing.RegisterFile.lastJump?`, `VaxListing.RegisterFile.advancedSince` — the address that
  the program counter was last put to, and the bytes that it was moved forward since.

## Main results

* `VaxListing.RegisterFile.get_perform_of_ne`, `VaxListing.RegisterFile.toNat_pc_perform` — what one
  operation does to a register and to the program counter.
* `VaxListing.RegisterFile.get_after_of_ne`, `VaxListing.RegisterFile.toNat_pc_after` — the same for
  whole histories.
* `VaxListing.RegisterFile.toNat_pc_after_setPc` — the program counter after one jump.
* `VaxListing.register_history_last_write_wins` — these together.

## Design

The program counter can be put somewhere in two ways, under its own name and as register 15, and
both are one case here (`Operation.jump?`). Byte counts are natural numbers of any size. Only their
sum is reduced modulo `2 ^ 32`, and it is a matter of proof that reducing every count on its own
gives the same.
-/

namespace VaxListing

namespace RegisterFile

/-! ## Histories -/

/-- An operation that changes a register file. -/
inductive Operation where
  /-- Overwrites a register. -/
  | set (r : Register) (value : UInt32)
  /-- Moves the program counter to an address. -/
  | setPc (address : Address)
  /-- Moves the program counter forward over a number of bytes. -/
  | advancePc (count : Nat)
  deriving DecidableEq, Repr

namespace Operation

/-- The register file after an operation. -/
def perform (f : RegisterFile) : Operation → RegisterFile
  | set r value => f.set r value
  | setPc address => f.setPc address
  | advancePc count => f.advancePc count

/-- The value that the operation writes to a register under the register's own number. -/
def written? (r : Register) : Operation → Option UInt32
  | set s value => if s = r then some value else none
  | _ => none

/-- The address that the operation moves the program counter to, wherever it was before. -/
def jump? : Operation → Option Address
  | setPc address => some address
  | op => op.written? .pc

/-- The number of bytes that the operation moves the program counter forward. -/
def advance : Operation → Nat
  | advancePc count => count
  | _ => 0

end Operation

/-- A new register file after a history of operations, the first one first. -/
def after (history : List Operation) : RegisterFile :=
  history.foldl Operation.perform zeroed

@[simp]
lemma after_nil : after [] = zeroed :=
  rfl

@[simp]
lemma after_concat (history : List Operation) (op : Operation) :
    after (history ++ [op]) = op.perform (after history) := by
  simp [after, List.foldl_append]

/-- The value that was last written to a register under the register's own number. -/
def lastWritten? (r : Register) (history : List Operation) : Option UInt32 :=
  history.reverse.findSome? (Operation.written? r)

/-- The address that the program counter was last put to. -/
def lastJump? (history : List Operation) : Option Address :=
  history.reverse.findSome? Operation.jump?

/-- The number of bytes that the program counter was moved forward since its last jump. -/
def advancedSince (history : List Operation) : Nat :=
  ((history.rtakeWhile fun op => op.jump?.isNone).map Operation.advance).sum

@[simp]
lemma lastWritten?_concat (r : Register) (history : List Operation) (op : Operation) :
    lastWritten? r (history ++ [op]) = (op.written? r).or (lastWritten? r history) := by
  unfold lastWritten?
  cases hop : op.written? r <;> simp [hop]

@[simp]
lemma lastJump?_concat (history : List Operation) (op : Operation) :
    lastJump? (history ++ [op]) = op.jump?.or (lastJump? history) := by
  unfold lastJump?
  cases hop : op.jump? <;> simp [hop]

@[simp]
lemma advancedSince_concat (history : List Operation) (op : Operation) :
    advancedSince (history ++ [op]) =
      if op.jump?.isNone then advancedSince history + op.advance else 0 := by
  unfold advancedSince
  rw [List.rtakeWhile_concat]
  split_ifs <;> simp

/-! ## One operation -/

/-- A register other than the program counter changes only where it is written. -/
lemma get_perform_of_ne (f : RegisterFile) (op : Operation) {r : Register} (hr : r ≠ .pc) :
    (op.perform f).get r = (op.written? r).getD (f.get r) := by
  cases op with
  | set s value =>
    by_cases hs : s = r
    · subst hs
      simp [Operation.perform, Operation.written?]
    · simp [Operation.perform, Operation.written?, hs, get_set_of_ne f (Ne.symm hs)]
  | setPc address => exact get_set_of_ne f hr address
  | advancePc count => exact get_set_of_ne f hr _

/-- The program counter is where the operation puts it, or else it is moved forward and wraps. -/
lemma toNat_pc_perform (f : RegisterFile) (op : Operation) :
    (op.perform f).pc.toNat =
      match op.jump? with
      | some address => address.toNat
      | none => (f.pc.toNat + op.advance) % 2 ^ 32 := by
  cases op with
  | set r value =>
    have hlt := f.pc.toNat_lt
    by_cases hr : r = .pc
    · subst hr
      simp [Operation.perform, Operation.jump?, Operation.written?, pc]
    · have hkeep : (f.set r value).pc = f.pc := get_set_of_ne f (Ne.symm hr) value
      simp [Operation.perform, Operation.jump?, Operation.written?, Operation.advance, hr, hkeep,
        Nat.mod_eq_of_lt hlt]
  | setPc address => simp [Operation.perform, Operation.jump?, setPc, pc]
  | advancePc count =>
    simp [Operation.perform, Operation.jump?, Operation.written?, Operation.advance, advancePc,
      setPc, pc]

/-! ## Whole histories -/

/-- **A register other than the program counter holds what was written to it last**, and zero if
nothing was. -/
lemma get_after_of_ne (history : List Operation) {r : Register} (hr : r ≠ .pc) :
    (after history).get r = (lastWritten? r history).getD 0 := by
  induction history using List.reverseRecOn with
  | nil => simp [lastWritten?]
  | append_singleton history op ih =>
    rw [after_concat, get_perform_of_ne _ _ hr, ih, lastWritten?_concat]
    cases op.written? r <;> simp

/-- **The program counter is where it was put last, moved forward by all counts since.**

**Proof sketch.** Induction on the history, from its end. If the last operation puts the program
counter somewhere, then nothing was counted since. If not, its count is one more to be added, and
reducing modulo `2 ^ 32` before adding it makes no difference to the sum modulo `2 ^ 32`. -/
lemma toNat_pc_after (history : List Operation) :
    (after history).pc.toNat =
      (((lastJump? history).getD 0).toNat + advancedSince history) % 2 ^ 32 := by
  induction history using List.reverseRecOn with
  | nil => simp [pc, lastJump?, advancedSince]
  | append_singleton history op ih =>
    rw [after_concat, toNat_pc_perform, lastJump?_concat, advancedSince_concat]
    cases op.jump? with
    | some address =>
      have hlt := address.toNat_lt
      simp [Nat.mod_eq_of_lt hlt]
    | none =>
      simp only [ih, Option.isNone_none, if_true, Option.none_or]
      omega

/-- After one jump, and no other, the program counter is moved forward by all counts. -/
lemma toNat_pc_after_setPc (address : Address) {later : List Operation}
    (hlater : ∀ op ∈ later, op.jump? = none) :
    (after (.setPc address :: later)).pc.toNat =
      (address.toNat + (later.map Operation.advance).sum) % 2 ^ 32 := by
  induction later using List.reverseRecOn with
  | nil =>
    rw [toNat_pc_after]
    rfl
  | append_singleton later op ih =>
    have hop : op.jump? = none := hlater op (by simp)
    have hbefore := ih fun op' hop' => hlater op' (by simp [hop'])
    rw [← List.cons_append, after_concat, toNat_pc_perform, hop, List.map_append, List.sum_append,
      hbefore]
    simp only [List.map_cons, List.map_nil, List.sum_cons, List.sum_nil]
    omega

end RegisterFile

/-- **Registers over whole histories.** After every history of operations on a new register file,
each register other than the program counter holds the value that was written to it last, or zero if
there is none, and moving the program counter changes none of them. The program counter is
register 15. It holds the address that it was last put to, under its own name or as register 15, or
zero if it never was, plus all bytes that it was moved forward since, modulo `2 ^ 32`. -/
theorem register_history_last_write_wins (history : List RegisterFile.Operation) :
    let f := RegisterFile.after history
    (∀ r : Register, r ≠ .pc →
      f.get r = (RegisterFile.lastWritten? r history).getD 0 ∧
      (∀ address, (RegisterFile.after (history ++ [.setPc address])).get r = f.get r) ∧
      ∀ count, (RegisterFile.after (history ++ [.advancePc count])).get r = f.get r) ∧
    f.pc = f.get ⟨15⟩ ∧
    f.pc.toNat =
      (((RegisterFile.lastJump? history).getD 0).toNat + RegisterFile.advancedSince history) %
        2 ^ 32 := by
  intro f
  refine ⟨fun r hr => ⟨RegisterFile.get_after_of_ne history hr, fun address => ?_, fun count => ?_⟩,
    rfl, RegisterFile.toNat_pc_after history⟩
  · rw [RegisterFile.after_concat, RegisterFile.get_perform_of_ne _ _ hr]
    rfl
  · rw [RegisterFile.after_concat, RegisterFile.get_perform_of_ne _ _ hr]
    rfl

/-- Register 3 is written twice, and the program counter is written as register 15 and then moved
over the top of the addresses by counts that do not fit 32 bits. -/
theorem register_history_last_write_wins_beyond_top :
    let history : List RegisterFile.Operation := [.advancePc 5, .set ⟨3⟩ 7, .setPc 0x200,
      .set ⟨15⟩ 0xfffffff0, .advancePc 0x10, .set ⟨3⟩ 9, .advancePc (2 ^ 64 - 1),
      .advancePc (2 ^ 40 + 3)]
    (⟨3⟩ : Register) ≠ .pc ∧ (RegisterFile.after history).get ⟨3⟩ = 9 ∧
      (RegisterFile.after history).get ⟨15⟩ = 2 := by
  intro history
  obtain ⟨hother, hpc, hcount⟩ := register_history_last_write_wins history
  refine ⟨by decide, (hother ⟨3⟩ (by decide)).1.trans (by decide), ?_⟩
  rw [← hpc]
  exact UInt32.toNat_inj.1 (hcount.trans (by decide))

end VaxListing
