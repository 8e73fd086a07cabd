import VaxListing.Proofs.Tour

set_option relaxedAutoImplicit false
set_option autoImplicit false

/-!
# What decoding depends on

An instruction is decoded from its own bytes, all of them, and from nothing else. In a memory that
ends before the instruction does, decoding fails; in a memory that has the same bytes up to the end
of the instruction, it gives the same instruction. So a listing is determined by the bytes that it
lists.

## Main definitions

* `VaxListing.Memory.AgreeBelow` — two memories have the same bytes below an address.

## Main results

* `VaxListing.Instruction.decode_of_agreeBelow` — decoding in a memory that agrees up to the end of
  the instruction.
* `VaxListing.Instruction.decode_take` — decoding in a memory that ends before the instruction does.
* `VaxListing.Run.Yields.of_agreeBelow` — a whole run in a memory that agrees up to its end.
* `VaxListing.listing_depends_on_bytes_listed` — these together.

## Design

Nothing here looks into the decoder. Decoding reads a format (`reads_instruction`), so which
instruction is decoded is settled by the bytes that stand at the program counter, and the only fact
about two memories that is needed is that a byte string stands in both of them
(`Memory.AgreeBelow.holdsAt`).
-/

namespace VaxListing

/-! ## Memories with the same beginning -/

namespace Memory

/-- The two memories have the same bytes below the address `e`, as far as they have any. -/
def AgreeBelow (m m' : Memory) (e : Nat) : Prop :=
  ∀ p < e, m.bytes[p]? = m'.bytes[p]?

namespace AgreeBelow

variable {m m' : Memory} {e : Nat}

lemma refl (m : Memory) (e : Nat) : m.AgreeBelow m e :=
  fun _ _ => rfl

lemma symm (h : m.AgreeBelow m' e) : m'.AgreeBelow m e :=
  fun p hp => (h p hp).symm

lemma mono {e' : Nat} (h : m.AgreeBelow m' e) (hle : e' ≤ e) : m.AgreeBelow m' e' :=
  fun p hp => h p (hp.trans_le hle)

/-- A byte string that ends below the address stands in both memories or in neither. -/
lemma holdsAt (h : m.AgreeBelow m' e) {p : Nat} {bs : List UInt8} (hat : m.HoldsAt p bs)
    (hle : p + bs.length ≤ e) : m'.HoldsAt p bs := by
  rw [HoldsAt, List.prefix_iff_getElem?] at hat ⊢
  intro i hi
  have hbyte := hat i hi
  simp only [List.getElem?_drop, toList, Array.getElem?_toList] at hbyte ⊢
  rw [← h (p + i) (by omega), hbyte]

end AgreeBelow

/-- A memory agrees with its first `t` bytes below `t`. -/
lemma agreeBelow_take (m : Memory) (t : Nat) : (ofList (m.toList.take t)).AgreeBelow m t := by
  intro p hp
  simp [ofList, toList, hp]

/-- A memory agrees with every memory that continues it. -/
lemma agreeBelow_append (m : Memory) (bytes : List UInt8) :
    m.AgreeBelow (ofList (m.toList ++ bytes)) m.size := by
  intro p hp
  have hlt : p < m.bytes.toList.length := by
    rwa [Array.length_toList]
  simp only [ofList, toList, List.getElem?_toArray, List.getElem?_append_left hlt,
    Array.getElem?_toList]

end Memory

/-! ## One instruction -/

namespace Instruction

variable {m m' : Memory} (hm : m.size < 2 ^ 32) {c c' : Cursor} {i : Instruction}

include hm in
/-- The bytes of a decoded instruction stand at the program counter, and the instruction ends behind
them and inside the memory. -/
lemma holdsAt_bytes (h : decode m c = .ok i c') :
    m.HoldsAt c.pc.toNat i.bytes ∧ i.stop.toNat = c.pc.toNat + i.bytes.length ∧
      i.stop.toNat ≤ m.size := by
  obtain ⟨⟨⟨-, hstop, hbytes⟩, -⟩, hat, -⟩ := (reads_instruction hm c).sound h
  rw [hbytes]
  exact ⟨hat, hstop, hstop.trans_le (hat.le_size i.body.encode_ne_nil)⟩

include hm in
/-- **An instruction is decoded from its own bytes**: in every memory that agrees up to its end, and
whatever was recorded before, the same instruction is decoded. -/
lemma decode_of_agreeBelow (hm' : m'.size < 2 ^ 32) (h : decode m c = .ok i c')
    (hagree : m.AgreeBelow m' i.stop.toNat) {d : Cursor} (hpc : d.pc = c.pc) :
    ∃ d', decode m' d = .ok i d' ∧ d'.pc = c'.pc := by
  obtain ⟨hfit, -, hend⟩ := (reads_instruction hm c).sound h
  obtain ⟨hat, hstop, -⟩ := holdsAt_bytes hm h
  have hat' : m'.HoldsAt c.pc.toNat (format.bytes i) := by
    rw [show format.bytes i = i.bytes from hfit.1.2.2.symm]
    exact hagree.holdsAt hat hstop.ge
  rw [← hpc] at hfit hat' hend
  obtain ⟨d', hd, hend'⟩ := (reads_instruction hm' d).exists_ok hfit hat'
  exact ⟨d', hd, UInt32.toNat_inj.1 (hend'.trans hend.symm)⟩

include hm in
/-- **An instruction needs all of its bytes**: in a memory that ends before the instruction does,
decoding fails with an access out of bounds.

**Proof sketch.** Every fault is an access out of bounds. If an instruction is decoded, it ends
inside the shorter memory, with which the longer one agrees there; so the longer memory has the same
instruction at this address, which then does not reach beyond the shorter memory. -/
lemma decode_take (h : decode m c = .ok i c') {t : Nat} (ht : t < i.stop.toNat) :
    ∃ address size c'', decode (.ofList (m.toList.take t)) c =
      .error (.outOfBounds address size) c'' := by
  have hsize : (Memory.ofList (m.toList.take t)).size = min t m.size := by
    rw [Memory.size_ofList, List.length_take, Memory.length_toList]
  have hshort : (Memory.ofList (m.toList.take t)).size < 2 ^ 32 := by
    omega
  cases hdecode : decode (.ofList (m.toList.take t)) c with
  | error fault c'' =>
    obtain ⟨n, -, rfl, -⟩ := ((reads_instruction hshort c).overrun hdecode).fault_eq
    exact ⟨_, n, c'', rfl⟩
  | ok j c'' =>
    obtain ⟨-, -, hinside⟩ := holdsAt_bytes hshort hdecode
    have hagree := (m.agreeBelow_take t).mono (show j.stop.toNat ≤ t by omega)
    obtain ⟨d, hd, -⟩ := decode_of_agreeBelow hshort hm hdecode hagree (d := c) rfl
    rw [h] at hd
    cases hd
    omega

end Instruction

/-! ## Whole runs -/

/-- **A run without a fault depends on the bytes before its end only.**

**Proof sketch.** Induction on the instructions. Each of them ends where the tiling ends at the
latest, so that it is decoded in the other memory as well (`Instruction.decode_of_agreeBelow`).
Whether the run is at the end of the code does not depend on the memory. -/
lemma Run.Yields.of_agreeBelow {m m' : Memory} (hm : m.size < 2 ^ 32) (hm' : m'.size < 2 ^ 32)
    {run : Run} {is : List Instruction} {e : Nat} (h : Yields m run is none)
    (htiles : Tiles m run.codeSize run.pc.toNat is e) (hagree : m.AgreeBelow m' e) :
    Yields m' run is none := by
  induction is generalizing run with
  | nil =>
    rw [yields_nil] at h ⊢
    exact item_eq_none_iff.2 (item_eq_none_iff.1 h)
  | cons i is ih =>
    obtain ⟨-, htile, hrest⟩ := htiles
    obtain ⟨hitem, hyields⟩ := yields_cons.1 h
    have hstop : i.stop.toNat ≤ e := (Nat.le_add_right _ _).trans hrest.add_length_le
    obtain ⟨hlive, -, hstart, hnext, c, hdecode⟩ := decoded_of_item hm hitem
    have hinside : run.pc < run.codeSize := hstart ▸ htile.start_lt_codeSize
    obtain ⟨c', hdecode', hpc⟩ :=
      Instruction.decode_of_agreeBelow hm hm' hdecode (hagree.mono hstop) (d := .start run.pc) rfl
    have hend : c'.pc = i.stop := hpc.trans (tile_of_decode hm hdecode hinside).2.1
    rw [hnext] at hyields
    rw [yields_cons, next_of_decode hlive hinside hdecode']
    dsimp only
    rw [hend]
    exact ⟨rfl, ih hyields hrest⟩

/-- **A listing depends on the bytes listed only.** Let the memory have fewer than `2 ^ 32` bytes.
If an instruction is decoded, then decoding at the same address fails with an access out of bounds
in the memory cut off anywhere before the end of the instruction, and gives the same instruction in
every continuation of the memory. If the memory can be listed, then the run comes to its end at an
address `e`, and every memory with the same bytes below `e` has the same listing; so has in
particular the memory of these bytes alone. -/
theorem listing_depends_on_bytes_listed (m : Memory) (hm : m.size < 2 ^ 32) :
    (∀ (c c' : Cursor) (i : Instruction), Instruction.decode m c = .ok i c' →
      (∀ t < i.stop.toNat, ∃ address size c'',
        Instruction.decode (.ofList (m.toList.take t)) c =
          .error (.outOfBounds address size) c'') ∧
      ∀ bytes : List UInt8, m.size + bytes.length < 2 ^ 32 →
        ∃ c'', Instruction.decode (.ofList (m.toList ++ bytes)) c = .ok i c'' ∧
          c''.pc = c'.pc) ∧
    ∀ (codeSize : UInt32) (lines : List String),
      (Listing.collect m codeSize).result = .ok lines →
      ∃ e : Address, (Run.start codeSize).EndsAt m e ∧
        (∀ m' : Memory, m'.size < 2 ^ 32 → e.toNat ≤ m'.size →
          (∀ p < e.toNat, m.bytes[p]? = m'.bytes[p]?) →
          (Listing.collect m' codeSize).result = .ok lines) ∧
        (Listing.collect (.ofList (m.toList.take e.toNat)) codeSize).result = .ok lines := by
  refine ⟨fun c c' i hdecode => ⟨fun t ht => ?_, fun bytes hsize => ?_⟩, ?_⟩
  · exact Instruction.decode_take hm hdecode ht
  · have hlonger : (Memory.ofList (m.toList ++ bytes)).size < 2 ^ 32 := by
      rwa [Memory.size_ofList, List.length_append, Memory.length_toList]
    obtain ⟨-, -, hinside⟩ := Instruction.holdsAt_bytes hm hdecode
    exact Instruction.decode_of_agreeBelow hm hlonger hdecode
      ((m.agreeBelow_append bytes).mono hinside) rfl
  · intro codeSize lines hlines
    obtain ⟨is, fault, e, hyields, htiles, hpc, hresult⟩ := Listing.collect_eq hm codeSize
    rw [hlines] at hresult
    cases fault with
    | some fault => cases hresult
    | none =>
      cases hresult
      have hlists : ∀ m' : Memory, m'.size < 2 ^ 32 → m.AgreeBelow m' e →
          (Listing.collect m' codeSize).result = .ok (is.flatMap Instruction.rows) := by
        intro m' hm' hagree
        exact Listing.collect_of_yields hm' (hyields.of_agreeBelow hm hm' htiles hagree)
      refine ⟨_, hyields.endsAt hm, ?_⟩
      rw [hpc rfl]
      refine ⟨fun m' hm' _ hagree => hlists m' hm' hagree, hlists _ ?_ ?_⟩
      · rw [Memory.size_ofList, List.length_take, Memory.length_toList]
        omega
      · exact (m.agreeBelow_take e).symm

/-- An instruction of seven bytes and one of a single byte, followed by a byte that the code does
not reach. The first six bytes are too few for the first instruction. Another memory has other bytes
behind the first eight, and the same listing. -/
theorem listing_depends_on_bytes_listed_first_eight :
    let m := Memory.ofList [0xd0, 0x8f, 0x78, 0x56, 0x34, 0x12, 0x50, 0x05, 0xff]
    let m' := Memory.ofList [0xd0, 0x8f, 0x78, 0x56, 0x34, 0x12, 0x50, 0x05, 0xd0, 0x8f]
    let lines := ["   0:\td0 8f 78 56 \tmovl $0x12345678,r0", "   4:\t34 12 50 ",
      "   7:\t05          \trsb"]
    (∃ address size c'', Instruction.decode (.ofList (m.toList.take 6)) (.start 0) =
        .error (.outOfBounds address size) c'') ∧
      (Listing.collect m 8).result = .ok lines ∧ (Run.start 8).EndsAt m 8 ∧
      (Listing.collect m' 8).result = .ok lines := by
  intro m m' lines
  have hm : m.size < 2 ^ 32 := by
    decide
  have hstops : ((Instruction.decode m).run' (.start 0)).map (·.stop.toNat) = some 7 := by
    decide +kernel
  have hlines : (Listing.collect m 8).result = .ok lines := by
    decide +kernel
  have hends : (Run.start 8).EndsAt m 8 := ⟨2, by decide +kernel, by decide +kernel⟩
  obtain ⟨honce, hlists⟩ := listing_depends_on_bytes_listed m hm
  refine ⟨?_, hlines, hends, ?_⟩
  · delta EStateM.run' EStateM.run at hstops
    cases hdecode : Instruction.decode m (.start 0) with
    | error fault c' =>
      rw [hdecode] at hstops
      cases hstops
    | ok i c' =>
      rw [hdecode] at hstops
      have hstop : i.stop.toNat = 7 := Option.some.inj hstops
      exact (honce _ c' i hdecode).1 6 (by omega)
  · obtain ⟨e, hends', hsame, -⟩ := hlists 8 lines hlines
    obtain rfl : e = 8 := hends'.unique hends
    exact hsame m' (by decide) (by decide) (by decide)

end VaxListing
