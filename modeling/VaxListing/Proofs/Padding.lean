import VaxListing.Proofs.ImageFile
import VaxListing.Proofs.Progress
import VaxListing.Proofs.Tour

set_option relaxedAutoImplicit false
set_option autoImplicit false

/-!
# Listing an image to the end of its memory

The memory of a loaded image is zero behind the payload. Zero bytes are short literals as operands
and take one byte as opcodes, so an instruction that starts in the payload reaches only so far into
the zeros. Twenty bytes of them are always enough, whatever the payload, and no fewer are. If the
code is declared longer than the memory, the listing always ends by a fault at the end of the
memory.

## Main definitions

* `VaxListing.Memory.ZeroFrom` — all bytes from an address on are zero.
* `VaxListing.Succeeds` — a piece of decoding succeeds, and ends at an address with some property.
* `VaxListing.OperandType.overhang` — how far an operand reaches into the zeros.
* `VaxListing.Image.PaddingSuffices` — so many zeros keep every image from a fault.

## Main results

* `VaxListing.Opcode.overhang_le` — the farthest reach of an opcode of the table.
* `VaxListing.exists_decode_of_zeroFrom` — with zeros enough, decoding succeeds inside the memory.
* `VaxListing.Run.Yields.exists_last` — the run behind the last instruction.
* `VaxListing.image_padding_is_least` — when the listing of an image fails.

## Design

The reach of an operand depends on where it starts only through how far it is in the zeros already.
So the reach of an instruction is a fold over its operand types, and the worst case is a computation
over the table.
-/

namespace VaxListing

/-! ## Decoding that succeeds -/

/-- The outcome of a piece of decoding is a result, and the result and the program counter behind it
have the property `Q`. -/
def Succeeds {α : Type} (r : EStateM.Result MachineFault Cursor α) (Q : α → Nat → Prop) : Prop :=
  ∃ a c, r = .ok a c ∧ Q a c.pc.toNat

namespace Succeeds

variable {α β : Type} {c : Cursor} {Q : α → Nat → Prop} {R : β → Nat → Prop}

/-- Two pieces of decoding succeed one after the other. -/
lemma bind {d : Decoder α} {k : α → Decoder β} (hd : Succeeds (d c) Q)
    (hk : ∀ a c', Q a c'.pc.toNat → Succeeds (k a c') R) : Succeeds ((d >>= k) c) R := by
  obtain ⟨a, c', hac, hQ⟩ := hd
  obtain ⟨b, c'', hbc, hR⟩ := hk a c' hQ
  refine ⟨b, c'', ?_, hR⟩
  rw [show (d >>= k) c = EStateM.bind d k c from rfl, EStateM.bind, hac]
  exact hbc

/-- Rearranging a result keeps the success. -/
lemma map {d : Decoder α} {f : α → β} (hd : Succeeds (d c) Q)
    (hR : ∀ a p, Q a p → R (f a) p) : Succeeds ((f <$> d) c) R := by
  have h : Succeeds ((d >>= fun a => pure (f a)) c) R :=
    hd.bind fun a c' hQ => ⟨f a, c', rfl, hR a _ hQ⟩
  exact h

end Succeeds

section Fetch

variable {m : Memory} (hm : m.size < 2 ^ 32) {c : Cursor}

include hm in
/-- A number inside the memory can be fetched. -/
lemma succeeds_fetch {n : Nat} (hn : Memory.isReadSize n = true) (h : c.pc.toNat + n ≤ m.size) :
    Succeeds (m.fetch n c) fun _ p => p = c.pc.toNat + n := by
  rw [fetch_eq hn, if_pos h]
  exact ⟨_, _, rfl, toNat_add_of_le hm h⟩

include hm in
/-- A byte inside the memory can be fetched. -/
lemma succeeds_fetchByte (h : c.pc.toNat < m.size) :
    Succeeds (m.fetchByte c) fun b p =>
      m.bytes[c.pc.toNat]? = some b ∧ p = c.pc.toNat + 1 := by
  rw [fetchByte_eq, Array.getElem?_eq_getElem h]
  exact ⟨_, _, rfl, rfl, toNat_add_of_le hm h⟩

include hm in
/-- A mode byte inside the memory can be fetched. -/
lemma succeeds_fetchModeByte (h : c.pc.toNat < m.size) :
    Succeeds (m.fetchModeByte c) fun b p =>
      m.bytes[c.pc.toNat]? = some b ∧ p = c.pc.toNat + 1 := by
  rw [Memory.fetchModeByte_eq, Array.getElem?_eq_getElem h]
  exact ⟨_, _, rfl, rfl, toNat_add_of_le hm h⟩

end Fetch

/-! ## Operands in front of zeros -/

/-- All bytes from the address `z` on are zero. -/
def Memory.ZeroFrom (m : Memory) (z : Nat) : Prop :=
  ∀ p, z ≤ p → p < m.size → m.bytes[p]? = some 0

/-- How far behind the beginning of the zeros an operand ends at most, if it starts at most `o`
bytes behind it. A general operand that starts in the zeros is a short literal; one that starts in
front of them has its mode byte there, or at the very beginning of the zeros. -/
def OperandType.overhang (o : Nat) : OperandType → Nat
  | .general type => max (o + 1) (max type.size 4)
  | .branch width => o + width.size

/-- No operand ends farther in front than it starts. -/
lemma OperandType.le_overhang (o : Nat) (type : OperandType) : o ≤ type.overhang o := by
  cases type with
  | general type =>
    rw [overhang]
    omega
  | branch width =>
    rw [overhang]
    omega

/-- Operands one behind another do not end farther in front than the first one starts. -/
lemma OperandType.le_foldl_overhang (o : Nat) (types : List OperandType) :
    o ≤ types.foldl overhang o := by
  induction types generalizing o with
  | nil => exact le_rfl
  | cons type types ih => exact (le_overhang o type).trans (ih _)

section Zeros

variable {m : Memory} (hm : m.size < 2 ^ 32) {z : Nat} (hz : m.ZeroFrom z)

include hm hz in
/-- An index chain ends in front of the zeros, or with a short literal in them.

**Proof sketch.** Induction on the rounds. In front of the zeros an index byte leads to the next
address, which is at most the beginning of the zeros. In the zeros the mode byte is that of the
short literal zero. -/
lemma Specifier.succeeds_decodeChain {o : Nat} (hroom : z + o < m.size) (rounds : Nat)
    (seen : List Register) (c : Cursor) (hc : c.pc.toNat ≤ z + o)
    (hrounds : m.size < rounds + c.pc.toNat) :
    Succeeds (decodeChain m rounds seen c) fun chain p =>
      p ≤ z ∨ chain.2 = .shortLiteral 0 ∧ p ≤ z + o + 1 := by
  induction rounds generalizing seen c with
  | zero => omega
  | succ rounds ih =>
    refine (succeeds_fetchModeByte hm (by omega)).bind fun b c' hb => ?_
    obtain ⟨hbyte, hpc⟩ := hb
    by_cases hinside : c.pc.toNat < z
    · cases AddressingMode.classify b with
      | base mode => exact ⟨_, c', rfl, .inl (by omega)⟩
      | indexed r => exact ih _ c' (by omega) (by omega)
    · obtain rfl : 0 = b := Option.some.inj ((hz _ (by omega) (by omega)).symm.trans hbyte)
      exact ⟨_, c', rfl, .inr ⟨rfl, by omega⟩⟩

/-- A base mode takes at most the bytes of the value or those of an address. -/
lemma BaseMode.extensionSize_le (size : Nat) (base : BaseMode) :
    base.extensionSize size ≤ max size 4 := by
  cases base with
  | displacement width r deferred =>
    cases width <;> simp [extensionSize, DisplacementWidth.size]
  | _ => simp [extensionSize]

include hm hz in
/-- A general operand succeeds, given room for its reach into the zeros. -/
lemma Specifier.succeeds_decode (type : DataType) {o : Nat}
    (hroom : z + (OperandType.general type).overhang o ≤ m.size) (c : Cursor)
    (hc : c.pc.toNat ≤ z + o) :
    Succeeds (decode m type c) fun _ p => p ≤ z + (OperandType.general type).overhang o := by
  rw [OperandType.overhang] at hroom ⊢
  have hchain := succeeds_decodeChain hm hz (show z + o < m.size by omega) UInt32.size [] c hc
    (Nat.lt_add_right _ hm)
  refine hchain.bind fun chain c' hends => ?_
  obtain ⟨indices, base⟩ := chain
  have hsize := base.extensionSize_le type.size
  have hextension : Succeeds (decodeExtension m type base c') fun _ p =>
      p ≤ z + max (o + 1) (max type.size 4) := by
    rw [decodeExtension_eq]
    split
    case isTrue hnone => exact ⟨0, c', rfl, by omega⟩
    case isFalse hsome =>
      have hread := (extensionSize_cases type base).resolve_left hsome
      -- a short literal has no extension, so that the mode byte is in front of the zeros
      have hfront : c'.pc.toNat ≤ z := by
        refine hends.resolve_right fun hliteral => hsome ?_
        rw [show base = .shortLiteral 0 from hliteral.1]
        rfl
      obtain ⟨v, c'', hv, hpc⟩ := succeeds_fetch hm hread (c := c') (by omega)
      exact ⟨v, c'', hv, by omega⟩
  exact hextension.bind fun v c'' hp => ⟨_, c'', rfl, hp⟩

include hm hz in
/-- An operand succeeds, given room for its reach into the zeros. -/
lemma Operand.succeeds_decode (type : OperandType) {o : Nat}
    (hroom : z + type.overhang o ≤ m.size) (c : Cursor) (hc : c.pc.toNat ≤ z + o) :
    Succeeds (decode m type c) fun _ p => p ≤ z + type.overhang o := by
  have hform : Succeeds (OperandForm.decode m type c) fun _ p => p ≤ z + type.overhang o := by
    cases type with
    | general type =>
      exact (Specifier.succeeds_decode hm hz type hroom c hc).map fun _ _ hp => hp
    | branch width =>
      rw [OperandType.overhang] at hroom ⊢
      have hread : Memory.isReadSize width.size = true := by
        cases width <;> rfl
      exact (succeeds_fetch hm hread (by omega)).map fun _ _ hp => by omega
  rw [Operand.decode_eq]
  exact hform.bind fun form c' hp => ⟨_, c', rfl, hp⟩

include hm hz in
/-- Operands one behind another succeed, given room for their reach into the zeros. -/
lemma Operand.succeeds_decodeAll (types : List OperandType) {o : Nat}
    (hroom : z + types.foldl OperandType.overhang o ≤ m.size) (c : Cursor)
    (hc : c.pc.toNat ≤ z + o) :
    Succeeds (decodeAll m types c) fun _ p => p ≤ z + types.foldl OperandType.overhang o := by
  induction types generalizing o c with
  | nil => exact ⟨[], c, rfl, hc⟩
  | cons type types ih =>
    rw [List.foldl_cons] at hroom ⊢
    have hle := OperandType.le_foldl_overhang (type.overhang o) types
    refine (succeeds_decode hm hz type (by omega) c hc).bind fun op c' hp => ?_
    exact (ih hroom c' hp).bind fun ops c'' hp' => ⟨_, c'', rfl, hp'⟩

/-! ## Instructions in front of zeros -/

/-- **The farthest reach of an opcode**: with its code ending one byte behind the beginning of the
zeros, no opcode of the table reaches farther than twenty bytes into them. -/
lemma Opcode.overhang_le : ∀ op ∈ table, op.operands.foldl OperandType.overhang 1 ≤ 20 := by
  decide +kernel

include hm hz in
/-- An instruction that starts in front of the zeros succeeds, given twenty zeros. -/
lemma Instruction.succeeds_body_front (hroom : z + 20 ≤ m.size) (c : Cursor)
    (hc : c.pc.toNat < z) (start : Address) :
    Succeeds ((decodeCode m >>= decodeBody m start) c) fun _ _ => True := by
  have hcode : Succeeds (decodeCode m c) fun _ p => p ≤ z + 1 := by
    refine (succeeds_fetchByte hm (by omega)).bind fun first c₁ hfirst => ?_
    split
    · refine (succeeds_fetchByte hm (by omega)).bind fun second c₂ hsecond => ?_
      exact ⟨_, c₂, rfl, by omega⟩
    · exact ⟨_, c₁, rfl, by omega⟩
  refine hcode.bind fun code c₁ hp => ?_
  rw [decodeBody]
  cases hfind : Opcode.find? code with
  | none => exact ⟨_, _, rfl, trivial⟩
  | some op =>
    have hreach := Opcode.overhang_le op (Opcode.find?_eq_some_iff.1 hfind).1
    exact (Operand.succeeds_decodeAll hm hz op.operands (by omega) c₁ hp).bind
      fun ops c₂ _ => ⟨_, c₂, rfl, trivial⟩

include hm hz in
/-- An instruction that starts in the zeros takes a single byte. -/
lemma Instruction.succeeds_body_zeros (c : Cursor) (hc : z ≤ c.pc.toNat)
    (hsize : c.pc.toNat < m.size) (start : Address) :
    Succeeds ((decodeCode m >>= decodeBody m start) c) fun _ _ => True := by
  have hcode : Succeeds (decodeCode m c) fun code _ => code = 0 := by
    refine (succeeds_fetchByte hm hsize).bind fun first c₁ hfirst => ?_
    obtain rfl : 0 = first := Option.some.inj ((hz _ hc hsize).symm.trans hfirst.1)
    exact ⟨_, c₁, rfl, rfl⟩
  refine hcode.bind fun code c₁ hzero => ?_
  have hfind : Opcode.find? 0 = some ⟨0x00, "halt", []⟩ := by
    decide +kernel
  rw [hzero, decodeBody, hfind]
  exact ⟨_, c₁, rfl, trivial⟩

include hm hz in
/-- **With twenty zeros at its end, a memory can be decoded anywhere.** -/
lemma exists_decode_of_zeroFrom (hroom : z + 20 ≤ m.size) (c : Cursor)
    (hc : c.pc.toNat < m.size) : ∃ i c', Instruction.decode m c = .ok i c' := by
  have hbody : Succeeds ((Instruction.decodeCode m >>= Instruction.decodeBody m c.pc) c)
      fun _ _ => True := by
    by_cases hfront : c.pc.toNat < z
    · exact Instruction.succeeds_body_front hm hz hroom c hfront c.pc
    · exact Instruction.succeeds_body_zeros hm hz c (by omega) hc c.pc
  obtain ⟨body, c', hok, -⟩ := hbody
  rw [Instruction.decode_eq hm, hok]
  exact ⟨_, c', rfl⟩

end Zeros

/-! ## The end of a run -/

namespace Run

variable {m : Memory}

/-- **The run behind its last instruction** has not failed, and its program counter is still inside
the memory. Its next step shows how the run ends. -/
lemma Yields.exists_last (hm : m.size < 2 ^ 32) {run : Run} {is : List Instruction}
    {fault : Option ListingFault} (h : Yields m run is fault) (hlive : run.failed = false)
    (hpc : run.pc.toNat ≤ m.size) :
    ∃ last : Run, last.failed = false ∧ last.codeSize = run.codeSize ∧ last.pc.toNat ≤ m.size ∧
      (last.next m).item = fault.map .error := by
  induction is generalizing run with
  | nil => exact ⟨run, hlive, rfl, hpc, yields_nil.1 h⟩
  | cons i is ih =>
    obtain ⟨hitem, hrest⟩ := yields_cons.1 h
    obtain ⟨-, htile, -, hnext, -⟩ := decoded_of_item hm hitem
    rw [hnext] at hrest
    have hlast := ih hrest hlive htile.stop_le_size
    exact hlast

/-- A run over code that can be decoded everywhere ends without a fault. -/
lemma Yields.fault_eq_none (hm : m.size < 2 ^ 32) {codeSize : UInt32} {is : List Instruction}
    {fault : Option ListingFault} (h : (start codeSize).Yields m is fault)
    (hdecode : ∀ c : Cursor, c.pc < codeSize → ∃ i c', Instruction.decode m c = .ok i c') :
    fault = none := by
  obtain ⟨last, hlive, hcode, -, hitem⟩ := h.exists_last hm rfl (Nat.zero_le _)
  by_cases hend : last.codeSize ≤ last.pc
  · rw [next_of_ended (.inr hend)] at hitem
    cases fault with
    | none => rfl
    | some f => cases hitem
  · have hinside : last.pc < last.codeSize := UInt32.not_le.1 hend
    have hinside' : last.pc < codeSize := by
      rw [hcode] at hinside
      exact hinside
    obtain ⟨i, c', hok⟩ := hdecode (.start last.pc) hinside'
    rw [next_of_decode hlive hinside hok] at hitem
    cases fault <;> cases hitem

/-- A run over code that is longer than the memory ends by a fault at the end of the memory. -/
lemma Yields.fault_outOfBounds (hm : m.size < 2 ^ 32) {codeSize : UInt32}
    {is : List Instruction} {fault : Option ListingFault}
    (h : (start codeSize).Yields m is fault) (hlong : m.size < codeSize.toNat) :
    ∃ address size, fault = some (.machine (.outOfBounds address size)) ∧
      address ≤ m.size ∧ m.size < address + size := by
  obtain ⟨last, hlive, hcode, hpc, hitem⟩ := h.exists_last hm rfl (Nat.zero_le _)
  have hinside : last.pc < last.codeSize := by
    rw [UInt32.lt_iff_toNat_lt, hcode]
    exact hpc.trans_lt hlong
  generalize hstep : last.next m = step at hitem
  cases hstep ▸ next_outcome hm last with
  | ended hend =>
    have hbehind := hend.resolve_left (by simp [hlive])
    exact absurd hinside (UInt32.not_lt.2 hbehind)
  | decoded i c _ _ _ _ => cases fault <;> cases hitem
  | stopped machineFault c _ hdecode =>
    obtain rfl : fault = some (.machine machineFault) := by
      cases fault with
      | none => cases hitem
      | some f =>
        cases hitem
        rfl
    cases hdecode ▸ Instruction.attempt hm (.start last.pc) with
    | cutOff n c' _ _ hle hover => exact ⟨_, n, rfl, hle, hover⟩
    | outside hout => exact ⟨_, 1, rfl, hpc, Nat.lt_succ_of_le hout⟩

end Run

/-! ## Images -/

namespace Image

/-- The memory of a loaded image is zero behind the payload. -/
lemma zeroFrom_of_load {file : List UInt8} {config : Config} {image : Image}
    (h : load file config = .ok image) :
    image.memory.ZeroFrom (file.length - config.headerSize) := by
  intro p hp hsize
  rw [size_of_load h] at hsize
  have hpayload : (file.drop config.headerSize).length = file.length - config.headerSize :=
    List.length_drop
  rw [(memory_of_load h).1, padded, Memory.ofList, List.getElem?_toArray,
    List.getElem?_append_right (by omega), List.getElem?_replicate, if_pos (by omega)]

/-- So many bytes of padding behind the payload keep every image from a fault, if the code is not
declared longer than the memory. -/
def PaddingSuffices (k : Nat) : Prop :=
  ∀ (file : List UInt8) (config : Config) (image : Image), config.memorySize < 2 ^ 32 →
    load file config = .ok image → image.header.textSize.toNat ≤ config.memorySize →
    file.length - config.headerSize + k ≤ config.memorySize →
    ∃ lines, (Listing.collect image.memory image.codeSize).result = .ok lines

/-- Twenty bytes of padding are enough. -/
lemma paddingSuffices_twenty : PaddingSuffices 20 := by
  intro file config image hmemory hload hcode hroom
  have hsize := size_of_load hload
  have hm : image.memory.size < 2 ^ 32 := by
    omega
  obtain ⟨is, fault, e, hyields, -, -, hresult⟩ := Listing.collect_eq hm image.codeSize
  have hnone : fault = none := by
    refine hyields.fault_eq_none hm fun c hc => ?_
    have hpc := UInt32.lt_iff_toNat_lt.1 hc
    refine exists_decode_of_zeroFrom hm (zeroFrom_of_load hload) (by omega) c ?_
    rw [codeSize] at hpc
    omega
  rw [hresult, hnone]
  exact ⟨_, rfl⟩

/-- A file whose payload is the beginning of an instruction with five operands. The mode byte of the
first announces a constant of sixteen bytes. -/
def constantFile : List UInt8 :=
  Header.toBytes ⟨0, 3, 0, 0, 0, 0, 0, 0⟩ ++ [0xfd, 0x74, 0x8f]

/-- With only nineteen bytes behind it, the last operand of the instruction is missing. -/
lemma collect_constantFile :
    ∃ image, load constantFile ⟨22, 32⟩ = .ok image ∧ image.header.textSize.toNat = 3 ∧
      (Listing.collect image.memory image.codeSize).result =
        .error (.machine (.outOfBounds 22 1)) := by
  refine ⟨_, rfl, ?_, ?_⟩
  · decide +kernel
  · decide +kernel

end Image

/-- **When the listing of an image fails.** Let the memory have fewer than `2 ^ 32` bytes, and let
the code not be declared longer than the memory. Then the listing succeeds, whatever the payload, if
there are twenty bytes of memory behind the payload, and twenty is the least number for which this
holds. If the code is declared longer than the memory, then the listing always fails, by an access
that starts at the end of the memory at the latest and leaves it. -/
theorem image_padding_is_least :
    IsLeast {k | Image.PaddingSuffices k} 20 ∧
    ∀ (file : List UInt8) (config : Config) (image : Image), config.memorySize < 2 ^ 32 →
      Image.load file config = .ok image → config.memorySize < image.header.textSize.toNat →
      ∃ address size, (Listing.collect image.memory image.codeSize).result =
          .error (.machine (.outOfBounds address size)) ∧
        address ≤ config.memorySize ∧ config.memorySize < address + size := by
  refine ⟨⟨Image.paddingSuffices_twenty, fun k hk => ?_⟩, ?_⟩
  · by_contra hlt
    obtain ⟨image, hload, hcode, hfault⟩ := Image.collect_constantFile
    have hlength : Image.constantFile.length = 35 := rfl
    obtain ⟨lines, hlines⟩ := hk Image.constantFile ⟨22, 32⟩ image (by decide) hload
      (by rw [hcode]; decide) (by rw [hlength]; dsimp only; omega)
    rw [hfault] at hlines
    cases hlines
  · intro file config image hmemory hload hlong
    have hsize := Image.size_of_load hload
    have hm : image.memory.size < 2 ^ 32 := by
      omega
    obtain ⟨is, fault, e, hyields, -, -, hresult⟩ := Listing.collect_eq hm image.codeSize
    obtain ⟨address, size, rfl, hle, hlt⟩ :=
      hyields.fault_outOfBounds hm (by rw [Image.codeSize]; omega)
    exact ⟨address, size, hresult, by omega, by omega⟩

/-- The file of one unfinished instruction with twenty bytes behind its payload, and a file without
a payload whose code is declared longer than the memory by one byte. -/
theorem image_padding_is_least_twenty :
    (∃ image, Image.load Image.constantFile ⟨23, 32⟩ = .ok image ∧
      ∃ lines, (Listing.collect image.memory image.codeSize).result = .ok lines) ∧
    ∃ image, Image.load (Header.toBytes ⟨0, 3, 0, 0, 0, 0, 0, 0⟩) ⟨2, 32⟩ = .ok image ∧
      ∃ address size, (Listing.collect image.memory image.codeSize).result =
          .error (.machine (.outOfBounds address size)) ∧
        address ≤ 2 ∧ 2 < address + size := by
  refine ⟨⟨_, rfl, ?_⟩, _, rfl, ?_⟩
  · exact image_padding_is_least.1.1 Image.constantFile ⟨23, 32⟩ _ (by decide) rfl
      (by decide +kernel) (by decide)
  · exact image_padding_is_least.2 (Header.toBytes ⟨0, 3, 0, 0, 0, 0, 0, 0⟩) ⟨2, 32⟩ _ (by decide)
      rfl (by decide +kernel)

end VaxListing
