import VaxListing.Proofs.FetchSequence
import VaxListing.Proofs.OperandReference

set_option relaxedAutoImplicit false
set_option autoImplicit false

/-!
# Displacements are two's-complement numbers

A displacement in the code is a number in two's complement. Fetching it gives this number modulo
`2 ^ 32`, for every size that numbers can have, and the listing shows it so: a branch and a
displacement off the program counter as the address they lead to, counted from behind the operand,
and a displacement off another register as it is.

## Main definitions

* `VaxListing.Memory.signedAt` — the bytes at an address as a number in two's complement.
* `VaxListing.Hex.wordText` — an integer modulo `2 ^ 32` in the digits of the standard library.
* `VaxListing.Reference.displacementSize`, `VaxListing.Reference.mark` — what a mode byte says about
  the displacement that follows.

## Main results

* `VaxListing.fetchDisplacement_eq` — fetching a displacement is fetching a number.
* `VaxListing.signExtend_modEq` — what is fetched is the number in two's complement.
* `VaxListing.text_of_branch`, `VaxListing.text_of_displacement` — what operands show.
* `VaxListing.displacements_are_twos_complement` — these together.
-/

namespace VaxListing

open Reference (signed word)

/-- The number that the `w` bytes at the address `p` stand for in two's complement. -/
def Memory.signedAt (m : Memory) (p w : Nat) : Int :=
  signed w (Bytes.value ((m.toList.drop p).take w))

/-- An integer modulo `2 ^ 32`, as `0x` and its digits to the base sixteen. -/
def Hex.wordText (z : Int) : String :=
  "0x" ++ String.ofList (Nat.toDigits 16 (z % 2 ^ 32).toNat)

/-- A word is shown in the standard digits, without leading zeros. -/
lemma Hex.text_word (z : Int) : Hex.text (word z) = Hex.wordText z := by
  rw [Hex.text, Hex.minimal_eq_toDigits, Hex.wordText, word]

/-! ## Fetching -/

section Fetching

variable {m : Memory} {c c' : Cursor} {w v : Nat}

/-- **Fetching a displacement is fetching a number**, with the same cursor and the same faults. -/
lemma fetchDisplacement_eq (m : Memory) (w : Nat) (c : Cursor) :
    m.fetchDisplacement w c =
      match m.fetch w c with
      | .ok v c' => .ok (signExtend w v) c'
      | .error fault c' => .error fault c' := by
  simp only [Memory.fetchDisplacement, bind, EStateM.bind]
  cases m.fetch w c <;> rfl

/-- What was fetched fits its bytes. -/
lemma lt_capacity_of_fetch (h : m.fetch w c = .ok v c') : v < Bytes.capacity w := by
  obtain ⟨-, hle, rfl, -⟩ := fetch_eq_ok_iff.1 h
  have hlt := value_lt_capacity ((m.toList.drop c.pc.toNat).take w)
  rwa [List.length_take, List.length_drop, Memory.length_toList,
    Nat.min_eq_left (by omega)] at hlt

/-- The offset that a fetched number is widened to is the number in two's complement. -/
lemma toNat_signExtend_of_fetch (h : m.fetch w c = .ok v c') :
    (signExtend w v).toNat = word (m.signedAt c.pc.toNat w) := by
  have hlt := lt_capacity_of_fetch h
  obtain ⟨hw, -, rfl, -⟩ := fetch_eq_ok_iff.1 h
  exact toNat_signExtend_of_mem hw hlt

/-- **What is fetched is congruent to the number in two's complement.** -/
lemma signExtend_modEq (h : m.fetch w c = .ok v c') :
    ((signExtend w v).toNat : Int) ≡ m.signedAt c.pc.toNat w [ZMOD 2 ^ 32] := by
  have hnonneg : 0 ≤ m.signedAt c.pc.toNat w % 2 ^ 32 := Int.emod_nonneg _ (by decide)
  rw [toNat_signExtend_of_fetch h, word, Int.toNat_of_nonneg hnonneg]
  exact Int.mod_modEq _ _

end Fetching

/-! ## Branches -/

variable {m : Memory} {c c' : Cursor} {op : Operand}

/-- **A branch shows the address that it leads to**, counted from behind the operand. -/
lemma text_of_branch (hm : m.size < 2 ^ 32) {width : BranchWidth}
    (h : Operand.decode m (.branch width) c = .ok op c') :
    c'.pc.toNat = c.pc.toNat + width.size ∧
      op.text = Hex.wordText (c'.pc.toNat + m.signedAt c.pc.toNat width.size) := by
  have hrender := congrFun (Operand.render_branch m width) c
  simp only [Functor.map, EStateM.map, h, bind, EStateM.bind, fetchDisplacement_eq] at hrender
  cases hfetch : m.fetch width.size c with
  | error fault c₁ => simp [hfetch] at hrender
  | ok v c₁ =>
    rw [hfetch] at hrender
    obtain ⟨hseen, rfl⟩ := EStateM.Result.ok.inj hrender
    have htext : op.text = Hex.text (c'.pc + signExtend width.size v).toNat :=
      congrArg Prod.fst hseen
    have hstop : c'.pc.toNat = c.pc.toNat + width.size := by
      obtain ⟨-, hle, -, rfl⟩ := fetch_eq_ok_iff.1 hfetch
      exact toNat_add_of_le hm hle
    refine ⟨hstop, ?_⟩
    rw [htext, toNat_add_of_eq_word (toNat_signExtend_of_fetch hfetch), Hex.text_word]

/-! ## Displacements off registers -/

namespace Reference

/-- The number of bytes of the displacement behind a mode byte from `a0` on. -/
def displacementSize (mode : UInt8) : Nat :=
  if mode.toNat ≤ 0xbf then 1 else if mode.toNat ≤ 0xdf then 2 else 4

/-- What stands in front of the displacement: a star if the mode byte is that of a deferred mode. -/
def mark (mode : UInt8) : String :=
  if mode.toNat / 16 % 2 = 1 then "*" else ""

/-- Index bytes put their registers behind the text of the operand that follows them. -/
lemma general_indices (type : DataType) {indices : List UInt8}
    (hindices : ∀ b ∈ indices, 0x40 ≤ b ∧ b ≤ 0x4f) (p : Nat) (code : List UInt8) :
    general type p (indices ++ code) =
      (general type (p + indices.length) code).map fun text => text ++ indexSuffix indices := by
  induction indices generalizing p with
  | nil =>
    rw [List.nil_append, List.length_nil, Nat.add_zero]
    cases general type p code <;> simp [View.map, Except.map, indexSuffix]
  | cons b indices ih =>
    have hb : 0x40 ≤ b.toNat ∧ b.toNat ≤ 0x4f := by
      simpa [UInt8.le_iff_toNat_le] using hindices b (by simp)
    have hbehind : p + 1 + indices.length = p + (b :: indices).length := by
      rw [List.length_cons, Nat.add_right_comm, Nat.add_assoc]
    rw [List.cons_append, general, if_pos hb, ih (fun b hb => hindices b (by simp [hb])),
      View.map_map, hbehind]
    congr 1
    funext text
    simp [indexSuffix, String.join_append, String.append_assoc]

/-- The mode bytes from `a0` on are those of displacements. -/
lemma base_displacement (type : DataType) {mode : UInt8} (h : 0xa0 ≤ mode.toNat) (p : Nat)
    (code : List UInt8) :
    base type mode p code =
      number (displacementSize mode) p code fun value stop =>
        mark mode ++
          if mode.toNat % 16 = 15 then
            Hex.text (word (stop + signed (displacementSize mode) value))
          else Hex.text (word (signed (displacementSize mode) value)) ++
            "(" ++ (Register.ofNibble mode).name ++ ")" := by
  rw [base]
  dsimp only
  rw [if_neg (by omega), if_neg (by omega), if_neg (by omega), if_neg (by omega),
    if_neg (by omega), if_neg (by omega), if_neg (by omega), if_neg (by omega)]
  rfl

end Reference

/-- What is decoded of a general operand is what the reference gives. -/
lemma general_of_decode (hm : m.size < 2 ^ 32) {type : DataType}
    (h : Operand.decode m (.general type) c = .ok op c') :
    Reference.general type c.pc.toNat (m.toList.drop c.pc.toNat) = .ok (op.text, c'.pc.toNat) := by
  have hview := view_render hm type UInt32.size c (Nat.lt_add_right _ hm)
  rw [← decode_general_eq_render, view_map, h, Reference.operand] at hview
  cases hgeneral : Reference.general type c.pc.toNat (m.toList.drop c.pc.toNat) with
  | error fault => simp [hgeneral, view, View.map, Except.map] at hview
  | ok seen =>
    simp only [hgeneral, view, View.map, Except.map, Except.ok.injEq, Prod.mk.injEq] at hview
    obtain ⟨⟨htext, -⟩, hpc⟩ := hview
    rw [htext, hpc]

/-- **A displacement shows itself or the address that it leads to.** It stands behind its mode byte,
which may follow any number of index bytes.

**Proof sketch.** The reference walks the index bytes and comes to the row of displacements in the
table of modes. There the number of the bytes that follow is shown, which is the one in two's
complement. -/
lemma text_of_displacement (hm : m.size < 2 ^ 32) {type : DataType} {indices : List UInt8}
    {mode : UInt8} (hindices : ∀ b ∈ indices, 0x40 ≤ b ∧ b ≤ 0x4f) (hmode : 0xa0 ≤ mode)
    (hat : m.HoldsAt c.pc.toNat (indices ++ [mode]))
    (h : Operand.decode m (.general type) c = .ok op c') :
    let size := Reference.displacementSize mode
    let v := m.signedAt (c.pc.toNat + indices.length + 1) size
    c'.pc.toNat = c.pc.toNat + indices.length + 1 + size ∧
      op.text =
        Reference.mark mode ++
          (if mode.toNat % 16 = 15 then Hex.wordText (c'.pc.toNat + v)
          else Hex.wordText v ++ "(" ++ (Register.ofNibble mode).name ++ ")") ++
          Reference.indexSuffix indices := by
  intro size v
  have hbyte : 0xa0 ≤ mode.toNat := hmode
  have hindex : ¬ (0x40 ≤ mode.toNat ∧ mode.toNat ≤ 0x4f) := by
    omega
  have hreference := general_of_decode hm h
  obtain ⟨rest, hrest⟩ := hat
  have hbehind : rest = m.toList.drop (c.pc.toNat + indices.length + 1) := by
    rw [Nat.add_assoc, ← List.drop_drop, ← hrest, List.drop_left' (by simp)]
  rw [← hrest, List.append_assoc, Reference.general_indices type hindices, List.singleton_append,
    Reference.general, if_neg hindex, Reference.base_displacement type hbyte, Reference.number]
    at hreference
  by_cases hfits : Reference.displacementSize mode ≤ rest.length
  · simp only [if_pos hfits, View.map, Except.map, Except.ok.injEq, Prod.mk.injEq] at hreference
    obtain ⟨htext, hpc⟩ := hreference
    refine ⟨hpc.symm, ?_⟩
    rw [← htext, ← hpc, hbehind]
    simp only [Hex.text_word]
    rfl
  · simp [if_neg hfits, View.map, Except.map] at hreference

/-- **Displacements are two's-complement numbers modulo `2 ^ 32`.** Let the memory have fewer than
`2 ^ 32` bytes. Fetching a displacement of any size at any program counter succeeds exactly if
fetching a number of this size does, with the same cursor afterwards, and fails with the same fault
and cursor; what it gives is congruent modulo `2 ^ 32` to the number that the bytes stand for in
two's complement.

So every branch that is decoded shows the address behind it plus its displacement, modulo `2 ^ 32`.
The mode bytes from `a0` on are those of displacements off a register, and may follow any index
bytes. Such an operand shows the address behind it plus the displacement if the register is the
program counter, and else the displacement and the register, modulo `2 ^ 32` as well. -/
theorem displacements_are_twos_complement (m : Memory) (hm : m.size < 2 ^ 32) (c : Cursor) :
    (∀ w : Nat,
      (∀ c', (∃ d, m.fetchDisplacement w c = .ok d c') ↔ ∃ v, m.fetch w c = .ok v c') ∧
      (∀ fault c', m.fetchDisplacement w c = .error fault c' ↔ m.fetch w c = .error fault c') ∧
      ∀ d c', m.fetchDisplacement w c = .ok d c' →
        (d.toNat : Int) ≡ m.signedAt c.pc.toNat w [ZMOD 2 ^ 32]) ∧
    (∀ (width : BranchWidth) (op : Operand) (c' : Cursor),
      Operand.decode m (.branch width) c = .ok op c' →
      c'.pc.toNat = c.pc.toNat + width.size ∧
      op.text = Hex.wordText (c'.pc.toNat + m.signedAt c.pc.toNat width.size)) ∧
    ∀ (type : DataType) (indices : List UInt8) (mode : UInt8) (op : Operand) (c' : Cursor),
      (∀ b ∈ indices, 0x40 ≤ b ∧ b ≤ 0x4f) → 0xa0 ≤ mode →
      m.HoldsAt c.pc.toNat (indices ++ [mode]) →
      Operand.decode m (.general type) c = .ok op c' →
      let r := Register.ofNibble mode
      let size := Reference.displacementSize mode
      let v := m.signedAt (c.pc.toNat + indices.length + 1) size
      c'.pc.toNat = c.pc.toNat + indices.length + 1 + size ∧
      (r = .pc → op.text = Reference.mark mode ++ Hex.wordText (c'.pc.toNat + v) ++
        Reference.indexSuffix indices) ∧
      (r ≠ .pc → op.text = Reference.mark mode ++ (Hex.wordText v ++ "(" ++ r.name ++ ")") ++
        Reference.indexSuffix indices) := by
  refine ⟨fun w => ?_, fun width op c' => text_of_branch hm, ?_⟩
  · simp only [fetchDisplacement_eq]
    cases hfetch : m.fetch w c with
    | error fault c' => simp
    | ok v c' =>
      refine ⟨fun c'' => by simp, fun fault c'' => by simp, fun d c'' hd => ?_⟩
      obtain ⟨rfl, rfl⟩ := EStateM.Result.ok.inj hd
      exact signExtend_modEq hfetch
  · intro type indices mode op c' hindices hmode hat hdecode r size v
    obtain ⟨hpc, htext⟩ := text_of_displacement hm hindices hmode hat hdecode
    have hregister : r = .pc ↔ mode.toNat % 16 = 15 := by
      rw [← decide_eq_true_iff (p := mode.toNat % 16 = 15), ← isPc_ofNibble]
      exact beq_iff_eq.symm
    refine ⟨hpc, fun hr => ?_, fun hr => ?_⟩
    · rw [htext, if_pos (hregister.1 hr)]
    · rw [htext, if_neg (fun h => hr (hregister.2 h))]

/-- A displacement that leads below address zero, behind an index, with its two bytes fetched as a
displacement and decoded as a branch as well. -/
theorem displacements_are_twos_complement_below_zero :
    let m := Memory.ofList [0x41, 0xdf, 0xfb, 0xff]
    m.size < 2 ^ 32 ∧
      (∃ d c', m.fetchDisplacement 2 (.start 2) = .ok d c' ∧ (d.toNat : Int) ≡ -5 [ZMOD 2 ^ 32]) ∧
      (∃ op c', Operand.decode m (.branch .word) (.start 2) = .ok op c' ∧
        op.text = "0xffffffff") ∧
      ∃ op c', Operand.decode m (.general .byte) (.start 0) = .ok op c' ∧
        op.text = "*0xffffffff[r1]" := by
  intro m
  have hm : m.size < 2 ^ 32 := by
    decide
  have hsigned : m.signedAt 2 2 = -5 := by
    decide
  obtain ⟨hfetch, hbranch, -⟩ := displacements_are_twos_complement m hm (.start 2)
  obtain ⟨-, -, hgeneral⟩ := displacements_are_twos_complement m hm (.start 0)
  refine ⟨hm, ?_, ?_, ?_⟩
  · obtain ⟨c', hd⟩ := Decoder.exists_ok_of_run' (d := m.fetchDisplacement 2) (c := .start 2)
      (a := 0xfffffffb) (by decide)
    have hmod := (hfetch 2).2.2 _ c' hd
    rw [show (Cursor.start 2).pc.toNat = 2 from rfl, hsigned] at hmod
    exact ⟨_, c', hd, hmod⟩
  · obtain ⟨c', hd⟩ := Decoder.exists_ok_of_run' (d := Operand.decode m (.branch .word))
      (c := .start 2) (a := ⟨.branch .word 0xfffb, 4⟩) (by decide)
    obtain ⟨hpc, htext⟩ := hbranch .word _ c' hd
    rw [hpc] at htext
    exact ⟨_, c', hd, htext.trans (by decide)⟩
  · obtain ⟨c', hd⟩ := Decoder.exists_ok_of_run' (d := Operand.decode m (.general .byte))
      (c := .start 0)
      (a := ⟨.general .byte ⟨[⟨1⟩], .displacement .word .pc true, 0xfffb⟩, 4⟩) (by decide)
    obtain ⟨hpc, htext, -⟩ :=
      hgeneral .byte [0x41] 0xdf _ c' (by simp) (by decide) (by decide) hd
    have hshown := htext (by decide)
    rw [hpc] at hshown
    exact ⟨_, c', hd, hshown.trans (by decide)⟩

end VaxListing
