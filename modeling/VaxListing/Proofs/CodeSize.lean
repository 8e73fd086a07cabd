import Mathlib.Data.List.ReduceOption
import VaxListing.Proofs.Locality

set_option relaxedAutoImplicit false
set_option autoImplicit false

/-!
# Listings of shorter and of longer code

Of two runs over the same memory that differ in where the code ends, the one over the shorter code
is the beginning of the other. Where it stops without a fault, possibly beyond the end of its code,
the longer run goes on as a decoder does that is started there.

## Main definitions

* `VaxListing.Run.withCodeSize` — a run with the end of the code at another address.
* `VaxListing.Instruction.Sweeps` — what a decoder gives that is called as long as it is below an
  address.

## Main results

* `VaxListing.Run.next_withCodeSize` — a step that gives something is the same over longer code.
* `VaxListing.Run.items_prefix` — any number of steps give the beginning of what they give over
  longer code.
* `VaxListing.Run.Yields.append` — a run over longer code is a run over shorter code and, from where
  this ends, another run.
* `VaxListing.Run.Yields.exists_sweeps` — a run is a sweep of a decoder.
* `VaxListing.listing_monotone_in_codeSize` — these together, for listings.

## Design

A run restarts the decoder at each of its steps, and a sweep calls one decoder again and again. The
two agree since an instruction is decoded from its bytes, whatever was recorded before
(`Instruction.decode_of_agreeBelow`).
-/

namespace VaxListing

/-! ## Steps over longer code -/

namespace Run

variable {m : Memory} {run : Run} {codeSize : UInt32}

/-- The run with the end of the code at another address. -/
def withCodeSize (run : Run) (codeSize : UInt32) : Run :=
  { run with codeSize }

/-- A step does not move the end of the code. -/
lemma codeSize_next (m : Memory) (run : Run) : (run.next m).run.codeSize = run.codeSize := by
  rw [next]
  split
  · rfl
  · cases Instruction.decode m (.start run.pc) <;> rfl

/-- **A step that gives something is the same over longer code**, and leaves the run at the same
address. -/
lemma next_withCodeSize (hle : run.codeSize ≤ codeSize)
    {item : Except ListingFault Instruction} (hitem : (run.next m).item = some item) :
    (run.withCodeSize codeSize).next m =
      { run.next m with run := (run.next m).run.withCodeSize codeSize } := by
  have hgoes : ¬ (run.failed = true ∨ run.codeSize ≤ run.pc) := by
    rw [← item_eq_none_iff (m := m), hitem]
    exact Option.some_ne_none item
  have hgoes' : ¬ ((run.withCodeSize codeSize).failed = true ∨
      (run.withCodeSize codeSize).codeSize ≤ (run.withCodeSize codeSize).pc) := by
    rintro (hfailed | hend)
    · exact hgoes (.inl hfailed)
    · exact hgoes (.inr (UInt32.le_trans hle hend))
  have hpc : (run.withCodeSize codeSize).pc = run.pc := rfl
  rw [next, if_neg hgoes', next, if_neg hgoes, hpc]
  cases Instruction.decode m (.start run.pc) <;> rfl

/-- **What a run gives is the beginning of what it gives over longer code**, after any number of
steps and leaving out the steps that give nothing.

**Proof sketch.** Induction on the number of steps. As long as the run over the shorter code gives
something, the two take the same step (`next_withCodeSize`). Once it gives nothing, it does so for
ever. -/
lemma items_prefix (hle : run.codeSize ≤ codeSize) (k : Nat) :
    (run.items m k).reduceOption <+: ((run.withCodeSize codeSize).items m k).reduceOption := by
  induction k generalizing run with
  | zero => exact List.prefix_rfl
  | succ k ih =>
    cases hitem : (run.next m).item with
    | none =>
      rw [items_of_ended (item_eq_none_iff.1 hitem), List.reduceOption_replicate_none]
      exact List.nil_prefix
    | some item =>
      have hrest : ((run.next m).run.items m k).reduceOption <+:
          (((run.next m).run.withCodeSize codeSize).items m k).reduceOption :=
        ih (by rwa [codeSize_next])
      rw [items_succ, items_succ, next_withCodeSize hle hitem, hitem,
        List.reduceOption_cons_of_some, List.reduceOption_cons_of_some]
      exact (List.prefix_cons_inj item).2 hrest

/-! ## Whole runs over longer code -/

/-- A run over longer code gives the instruction that it gives over shorter code, and goes on as the
longer run from there. -/
lemma yields_withCodeSize_cons (hle : run.codeSize ≤ codeSize) {i : Instruction}
    (hitem : (run.next m).item = some (.ok i)) {is : List Instruction}
    {fault : Option ListingFault} :
    Yields m (run.withCodeSize codeSize) (i :: is) fault ↔
      Yields m ((run.next m).run.withCodeSize codeSize) is fault := by
  rw [yields_cons, next_withCodeSize hle hitem, hitem]
  exact and_iff_right rfl

/-- A run that ends by a fault ends by this fault over longer code, too. -/
lemma Yields.withCodeSize (hle : run.codeSize ≤ codeSize) {is : List Instruction}
    {fault : ListingFault} (h : Yields m run is (some fault)) :
    Yields m (run.withCodeSize codeSize) is (some fault) := by
  induction is generalizing run with
  | nil =>
    rw [yields_nil] at h ⊢
    rw [next_withCodeSize hle h]
    exact h
  | cons i is ih =>
    obtain ⟨hitem, hrest⟩ := yields_cons.1 h
    rw [yields_withCodeSize_cons hle hitem]
    exact ih (by rwa [codeSize_next]) hrest

/-- A run that comes to the end of the code has not failed. -/
lemma Yields.failed_after (hm : m.size < 2 ^ 32) {is : List Instruction} (h : Yields m run is none)
    (hlive : run.failed = false) : (run.after m (is.length + 1)).failed = false := by
  induction is generalizing run with
  | nil =>
    rw [after_of_ended (item_eq_none_iff.1 (yields_nil.1 h))]
    exact hlive
  | cons i is ih =>
    obtain ⟨hitem, hrest⟩ := yields_cons.1 h
    obtain ⟨-, -, -, hnext, -⟩ := decoded_of_item hm hitem
    refine ih hrest ?_
    rw [hnext]
    exact hlive

/-- **A run over longer code goes on where the run over shorter code ends**, if this is not by a
fault. -/
lemma Yields.append (hle : run.codeSize ≤ codeSize) {is is' : List Instruction}
    {fault : Option ListingFault} (h : Yields m run is none)
    (h' : Yields m ((run.after m (is.length + 1)).withCodeSize codeSize) is' fault) :
    Yields m (run.withCodeSize codeSize) (is ++ is') fault := by
  induction is generalizing run with
  | nil =>
    rw [yields_nil] at h
    rw [after_of_ended (item_eq_none_iff.1 h)] at h'
    exact h'
  | cons i is ih =>
    obtain ⟨hitem, hrest⟩ := yields_cons.1 h
    rw [List.cons_append, yields_withCodeSize_cons hle hitem]
    exact ih (by rwa [codeSize_next]) hrest h'

end Run

/-! ## A decoder that is called again and again -/

/-- The decoder at the cursor `c` is called as long as its program counter is below `limit`. It
gives the instructions `is`, and is at the cursor `c'` then. -/
def Instruction.Sweeps (m : Memory) (limit : Address) :
    Cursor → List Instruction → Cursor → Prop
  | c, [], c' => limit ≤ c.pc ∧ c = c'
  | c, i :: is, c' =>
    c.pc < limit ∧ ∃ next, Instruction.decode m c = .ok i next ∧ Sweeps m limit next is c'

/-- **A run that comes to the end of the code is a sweep** of a decoder from the same address on.

**Proof sketch.** Induction on the instructions. A step of the run decodes at the program counter of
the decoder, though with another record, and gives the same instruction there. -/
lemma Run.Yields.exists_sweeps {m : Memory} (hm : m.size < 2 ^ 32) {run : Run}
    {is : List Instruction} (h : Yields m run is none) (hlive : run.failed = false) {c : Cursor}
    (hc : c.pc = run.pc) : ∃ c', Instruction.Sweeps m run.codeSize c is c' := by
  induction is generalizing run c with
  | nil =>
    have hend := (item_eq_none_iff.1 (yields_nil.1 h)).resolve_left (by simp [hlive])
    exact ⟨c, hc ▸ hend, rfl⟩
  | cons i is ih =>
    obtain ⟨hitem, hrest⟩ := yields_cons.1 h
    obtain ⟨-, htile, hstart, hgoes, d, hdecode⟩ := decoded_of_item hm hitem
    have hinside : run.pc < run.codeSize := hstart ▸ htile.start_lt_codeSize
    obtain ⟨next, hnext, hpc⟩ :=
      Instruction.decode_of_agreeBelow hm hm hdecode (.refl m _) (d := c) hc
    have hstop : next.pc = i.stop := hpc.trans (tile_of_decode hm hdecode hinside).2.1
    rw [hgoes] at hrest
    obtain ⟨c', hsweeps⟩ := ih hrest hlive hstop
    exact ⟨c', hc ▸ hinside, next, hnext, hsweeps⟩

/-- **Listings are monotone in the size of the code.** Let the memory have fewer than `2 ^ 32`
bytes. After any number of steps, the run over the shorter code has given the beginning of what the
run over the longer code has given, faults included. If the listing of the shorter code fails, then
that of the longer code fails with the same fault. If the longer code can be listed, then so can the
shorter one, and the longer listing is the shorter one followed by the rows of what a decoder gives
that is started where the shorter run came to its end, and called as long as it is inside the longer
code. -/
theorem listing_monotone_in_codeSize (m : Memory) (hm : m.size < 2 ^ 32) (short long : UInt32)
    (hle : short ≤ long) :
    (∀ k, ((Run.start short).items m k).reduceOption <+:
      ((Run.start long).items m k).reduceOption) ∧
    (∀ fault, (Listing.collect m short).result = .error fault →
      (Listing.collect m long).result = .error fault) ∧
    ∀ lines, (Listing.collect m long).result = .ok lines →
      ∃ (first : List String) (p : Address) (is : List Instruction) (c : Cursor),
        (Listing.collect m short).result = .ok first ∧ (Run.start short).EndsAt m p ∧
        Instruction.Sweeps m long (.start p) is c ∧
        lines = first ++ is.flatMap Instruction.rows := by
  obtain ⟨is, fault, e, hyields, htiles, hsize, hpc⟩ :=
    Run.exists_yields hm (Run.start short) rfl (Nat.zero_le _)
  have hshort := Listing.collect_of_yields hm hyields
  refine ⟨Run.items_prefix hle, fun f hf => ?_, fun lines hlines => ?_⟩
  · cases fault with
    | none =>
      rw [hshort] at hf
      cases hf
    | some fault =>
      rw [← hf, hshort]
      exact Listing.collect_of_yields hm (hyields.withCodeSize hle)
  · cases fault with
    | some fault =>
      have hlong := Listing.collect_of_yields hm (hyields.withCodeSize hle)
      rw [hlines] at hlong
      cases hlong
    | none =>
      set last := (Run.start short).after m (is.length + 1)
      have hlive : last.failed = false := hyields.failed_after hm rfl
      obtain ⟨is', fault', e', hyields', -, -, -⟩ :=
        Run.exists_yields hm (last.withCodeSize long) hlive ((hpc rfl).trans_le hsize)
      have hlong := Listing.collect_of_yields hm (hyields.append hle hyields')
      rw [hlines] at hlong
      cases fault' with
      | some fault' => cases hlong
      | none =>
        cases hlong
        obtain ⟨c, hsweeps⟩ := hyields'.exists_sweeps hm hlive (c := .start last.pc) rfl
        refine ⟨_, last.pc, is', c, hshort, hyields.endsAt hm, hsweeps, ?_⟩
        rw [List.flatMap_append]

/-- Three instructions, the first of which crosses the end of the shorter code. The longer listing
is that of the first instruction, followed by what a decoder gives that is started behind it. -/
theorem listing_monotone_in_codeSize_crossing :
    let m := Memory.ofList [0xd0, 0x8f, 0x78, 0x56, 0x34, 0x12, 0x50, 0x01, 0x05]
    let lines := ["   0:\td0 8f 78 56 \tmovl $0x12345678,r0", "   4:\t34 12 50 ",
      "   7:\t01          \tnop", "   8:\t05          \trsb"]
    (Run.start 3).EndsAt m 7 ∧ (Listing.collect m 9).result = .ok lines ∧
      ∃ (first : List String) (is : List Instruction) (c : Cursor),
        (Listing.collect m 3).result = .ok first ∧ Instruction.Sweeps m 9 (.start 7) is c ∧
        lines = first ++ is.flatMap Instruction.rows := by
  intro m lines
  have hends : (Run.start 3).EndsAt m 7 := ⟨1, by decide +kernel, by decide +kernel⟩
  have hlines : (Listing.collect m 9).result = .ok lines := by
    decide +kernel
  obtain ⟨-, -, hgoes⟩ := listing_monotone_in_codeSize m (by decide) 3 9 (by decide)
  obtain ⟨first, p, is, c, hfirst, hends', hsweeps, hrows⟩ := hgoes lines hlines
  obtain rfl : p = 7 := hends'.unique hends
  exact ⟨hends, hlines, first, is, c, hfirst, hsweeps, hrows⟩

end VaxListing
