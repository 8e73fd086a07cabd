import Mathlib.Data.List.TakeWhile
import VaxListing.Proofs.InstructionFormat

set_option relaxedAutoImplicit false
set_option autoImplicit false

/-!
# How long an instruction is

The length of an instruction can be read off its bytes before anything is decoded: a branch operand
takes the bytes of its displacement, and a general operand takes its index bytes, one mode byte
behind them, and the bytes that this mode byte announces. Each operand starts where the one before
ends. Decoding takes exactly these bytes.

## Main definitions

* `VaxListing.Layout.indexPart`, `VaxListing.Layout.baseByte?` — the index bytes that a general
  operand begins with, and the mode byte behind them.
* `VaxListing.Layout.operandSize` — the bytes that an operand takes.
* `VaxListing.Layout.operandStarts` — where the operands of an instruction start.

## Main results

* `VaxListing.Layout.operandSize_encode` — the bytes of an operand are as many as are announced.
* `VaxListing.Layout.exists_encode_prefix` — where there are as many bytes as are announced, they
  are those of an operand.
* `VaxListing.Layout.sum_sizes_of_placed` — operands one behind another start where the layout says,
  and take as many bytes.
* `VaxListing.exists_operand_iff` — an operand can be decoded if its announced bytes are there.
* `VaxListing.instruction_length_predicted` — the length of every decoded instruction.

## Design

The layout knows only the types of the operands and the bytes in memory. It goes on behind the end
of the memory, where there are no bytes and nothing is announced any more, so that it needs no case
for instructions that are cut off.
-/

namespace VaxListing

/-- Whether bytes of the code belong to the mode behind its mode byte. -/
def AddressingMode.isExtended : AddressingMode → Bool
  | base .immediate | base .absolute | base (.displacement ..) => true
  | _ => false

namespace Layout

/-! ## The layout of operands -/

/-- Whether a mode byte is an index byte. -/
def isIndexByte (b : UInt8) : Bool :=
  match AddressingMode.classify b with
  | .indexed _ => true
  | .base _ => false

/-- The index bytes that the code begins with. -/
def indexPart (code : List UInt8) : List UInt8 :=
  code.takeWhile isIndexByte

/-- The first byte of the code that is no index byte. -/
def baseByte? (code : List UInt8) : Option UInt8 :=
  (code.dropWhile isIndexByte).head?

/-- The number of bytes that an operand takes which the code begins with. -/
def operandSize (type : OperandType) (code : List UInt8) : Nat :=
  if type.isBranch then type.size
  else
    (indexPart code).length + 1 +
      match baseByte? code with
      | some b => (AddressingMode.classify b).extensionSize type.size
      | none => 0

/-- The number of bytes that an operand takes which starts at an address. -/
def sizeAt (m : Memory) (start : OperandType × Nat) : Nat :=
  operandSize start.1 (m.toList.drop start.2)

/-- The operands of the given types with the addresses where they start, the first at the address
`p` and each other one where the one before ends. -/
def operandStarts (m : Memory) : Nat → List OperandType → List (OperandType × Nat)
  | _, [] => []
  | p, type :: types => (type, p) :: operandStarts m (p + sizeAt m (type, p)) types

/-! ## The bytes of an operand -/

/-- The bytes that announce an index have a four as their high half. -/
lemma classify_eq_indexed_iff {b : UInt8} {r : Register} :
    AddressingMode.classify b = .indexed r ↔ b.toNat / 16 = 4 ∧ .ofNibble b = r := by
  unfold AddressingMode.classify
  generalize b.toNat / 16 = high
  dsimp only
  split <;> simp_all

/-- An index byte announces the index of its low half. -/
lemma isIndexByte_iff_classify {b : UInt8} :
    isIndexByte b = true ↔ AddressingMode.classify b = .indexed (.ofNibble b) := by
  rw [isIndexByte]
  cases h : AddressingMode.classify b with
  | indexed r => simp [(classify_eq_indexed_iff.1 h).2]
  | base mode => simp

/-- The index bytes are those between `40` and `4f`. -/
lemma isIndexByte_iff (b : UInt8) : isIndexByte b = true ↔ 0x40 ≤ b ∧ b ≤ 0x4f := by
  have hrange : 0x40 ≤ b ∧ b ≤ 0x4f ↔ b.toNat / 16 = 4 := by
    rw [UInt8.le_iff_toNat_le, UInt8.le_iff_toNat_le]
    change 0x40 ≤ b.toNat ∧ b.toNat ≤ 0x4f ↔ _
    omega
  rw [hrange, isIndexByte_iff_classify, classify_eq_indexed_iff]
  exact and_iff_left rfl

/-- The byte of an index announces this index. -/
lemma classify_indexed_byte (r : Register) :
    AddressingMode.classify (AddressingMode.indexed r).byte = .indexed r :=
  AddressingMode.classify_byte trivial

/-- The byte of a base mode that has one announces this mode. -/
lemma classify_base_byte {base : BaseMode} (h : base.WellFormed) :
    AddressingMode.classify base.byte = .base base :=
  @AddressingMode.classify_byte (.base base) h

lemma isIndexByte_indexed (r : Register) :
    isIndexByte (AddressingMode.indexed r).byte = true := by
  rw [isIndexByte, classify_indexed_byte]

/-- The index bytes of an operand are index bytes. -/
lemma isIndexByte_of_mem_indexBytes (rs : List Register) :
    ∀ b ∈ Specifier.indexBytes rs, isIndexByte b = true := by
  intro b hb
  obtain ⟨r, -, rfl⟩ := List.mem_map.1 hb
  exact isIndexByte_indexed r

lemma isIndexByte_base {base : BaseMode} (h : base.WellFormed) : isIndexByte base.byte = false := by
  rw [isIndexByte, classify_base_byte h]

/-- An index byte is the byte of the index that it announces. -/
lemma byte_ofNibble {b : UInt8} (h : isIndexByte b = true) :
    (AddressingMode.indexed (.ofNibble b)).byte = b := by
  rw [← isIndexByte_iff_classify.1 h, AddressingMode.byte_classify]

/-- Index bytes are those of the indices that they announce. -/
lemma indexBytes_ofNibble {bs : List UInt8} (h : ∀ b ∈ bs, isIndexByte b = true) :
    Specifier.indexBytes (bs.map .ofNibble) = bs := by
  rw [Specifier.indexBytes, List.map_map]
  conv_rhs => rw [← List.map_id bs]
  exact List.map_congr_left fun b hb => byte_ofNibble (h b hb)

/-- Code without another byte consists of index bytes. -/
lemma indexPart_of_baseByte?_eq_none {code : List UInt8} (h : baseByte? code = none) :
    indexPart code = code := by
  rw [baseByte?, List.head?_eq_none_iff] at h
  have hsplit := List.takeWhile_append_dropWhile (p := isIndexByte) (l := code)
  rwa [h, List.append_nil] at hsplit

/-- The first byte that is no index byte follows the index bytes, and announces a base mode. -/
lemma exists_of_baseByte? {code : List UInt8} {b : UInt8} (h : baseByte? code = some b) :
    ∃ mode rest, AddressingMode.classify b = .base mode ∧ code = indexPart code ++ b :: rest := by
  have hsplit := List.takeWhile_append_dropWhile (p := isIndexByte) (l := code)
  have hbase := List.head?_dropWhile_not isIndexByte code
  rw [baseByte?] at h
  rw [h] at hbase
  obtain ⟨rest, hrest⟩ := List.head?_eq_some_iff.1 h
  rw [hrest] at hsplit
  cases hclass : AddressingMode.classify b with
  | indexed r => simp [isIndexByte, hclass] at hbase
  | base mode => exact ⟨mode, rest, rfl, hsplit.symm⟩

/-- The index bytes of an operand are those that its code begins with. -/
lemma indexPart_encode {type : DataType} {s : Specifier} (h : s.base.WellFormed)
    (rest : List UInt8) :
    indexPart (s.encode type ++ rest) = Specifier.indexBytes s.indices := by
  have hindices := isIndexByte_of_mem_indexBytes s.indices
  rw [indexPart, Specifier.encode, ← Specifier.indexBytes, List.append_assoc,
    List.takeWhile_append_of_pos hindices, List.cons_append,
    List.takeWhile_cons_of_neg (by simp [isIndexByte_base h]), List.append_nil]

/-- The mode byte of an operand is the first one that is no index byte. -/
lemma baseByte?_encode {type : DataType} {s : Specifier} (h : s.base.WellFormed)
    (rest : List UInt8) : baseByte? (s.encode type ++ rest) = some s.base.byte := by
  have hindices := isIndexByte_of_mem_indexBytes s.indices
  rw [baseByte?, Specifier.encode, ← Specifier.indexBytes, List.append_assoc,
    List.dropWhile_append_of_pos hindices, List.cons_append,
    List.dropWhile_cons_of_neg (by simp [isIndexByte_base h]), List.head?_cons]

/-- **The bytes of an operand are as many as are announced.** -/
lemma operandSize_encode {form : OperandForm} (h : form.WellFormed) (rest : List UInt8) :
    operandSize form.type (form.encode ++ rest) = form.encode.length := by
  cases form with
  | branch width displacement => simp [operandSize, OperandForm.type, OperandForm.encode,
      OperandType.isBranch, OperandType.size]
  | general type s =>
    have hmode := classify_base_byte h.1
    have hindices : (Specifier.indexBytes s.indices).length = s.indices.length :=
      List.length_map _
    have hlength : (s.encode type).length =
        s.indices.length + 1 + s.base.extensionSize type.size := by
      simp only [Specifier.encode, List.length_append, List.length_map, List.length_cons,
        Bytes.length_ofValue]
      omega
    simp only [operandSize, OperandForm.type, OperandForm.encode, OperandType.isBranch,
      OperandType.size, indexPart_encode h.1, baseByte?_encode h.1, hmode, hindices, hlength]
    simp [AddressingMode.extensionSize]

/-- **Where there are as many bytes as are announced, they are those of an operand.**

**Proof sketch.** The bytes of a branch operand are a number. For a general operand the code is
split into its index bytes, the mode byte behind them and the rest; the mode byte is there, because
it was counted, and the number behind it has as many bytes as its mode announces. -/
lemma exists_encode_prefix {type : OperandType} {code : List UInt8}
    (h : operandSize type code ≤ code.length) :
    ∃ form : OperandForm, form.type = type ∧ form.WellFormed ∧ form.encode <+: code := by
  have hnumber : ∀ n (bs : List UInt8), n ≤ bs.length →
      Bytes.ofValue n (Bytes.value (bs.take n)) = bs.take n ∧
        Bytes.value (bs.take n) < Bytes.capacity n := by
    intro n bs hn
    have hlength : (bs.take n).length = n := List.length_take_of_le hn
    have hback := ofValue_value (bs.take n)
    have hlt := value_lt_capacity (bs.take n)
    rw [hlength] at hback hlt
    exact ⟨hback, hlt⟩
  cases type with
  | branch width =>
    obtain ⟨hback, hlt⟩ := hnumber width.size code h
    refine ⟨.branch width (Bytes.value (code.take width.size)), rfl, hlt, ?_⟩
    rw [OperandForm.encode, hback]
    exact List.take_prefix _ _
  | general type =>
    rw [operandSize, if_neg (by simp [OperandType.isBranch])] at h
    cases hbyte : baseByte? code with
    | none =>
      rw [indexPart_of_baseByte?_eq_none hbyte] at h
      omega
    | some b =>
      obtain ⟨mode, rest, hmode, hcode⟩ := exists_of_baseByte? hbyte
      obtain ⟨hwf, hb⟩ := classify_eq_iff.1 hmode
      have hlength := congrArg List.length hcode
      rw [List.length_append, List.length_cons] at hlength
      simp only [hbyte, hmode, AddressingMode.extensionSize, OperandType.size] at h
      obtain ⟨hback, hlt⟩ := hnumber (mode.extensionSize type.size) rest (by omega)
      have hindices : Specifier.indexBytes ((indexPart code).map .ofNibble) = indexPart code :=
        indexBytes_ofNibble fun b hb => List.mem_takeWhile_imp hb
      refine ⟨.general type ⟨(indexPart code).map .ofNibble, mode,
        Bytes.value (rest.take (mode.extensionSize type.size))⟩, rfl, ⟨hwf, hlt⟩, ?_⟩
      rw [OperandForm.encode, Specifier.encode, ← Specifier.indexBytes, hindices, hback,
        ← show b = mode.byte from hb]
      conv_rhs => rw [hcode]
      refine (List.prefix_append_right_inj _).2 ?_
      exact (List.prefix_cons_inj b).2 (List.take_prefix _ _)

/-! ## Operands one behind another -/

/-- An operand in memory takes as many bytes as are announced at its address. -/
lemma sizeAt_of_holdsAt {m : Memory} {p : Nat} {form : OperandForm} (h : form.WellFormed)
    (hat : m.HoldsAt p form.encode) : sizeAt m (form.type, p) = form.encode.length := by
  obtain ⟨rest, hrest⟩ := hat
  rw [sizeAt, ← hrest]
  exact operandSize_encode h rest

/-- **Operands one behind another lie as the layout says**: each of them ends where it is announced
to end, and together they take as many bytes as are announced.

**Proof sketch.** Induction on the operands. The first one takes as many bytes as are announced, so
that the layout goes on where the second one starts. -/
lemma sum_sizes_of_placed {m : Memory} {p : Nat} {types : List OperandType} {ops : List Operand}
    (h : Operand.Placed p types ops)
    (hat : m.HoldsAt p (ops.flatMap fun op => op.form.encode)) :
    (operandStarts m p types).map (fun s => (s.1, s.2 + sizeAt m s)) =
        ops.map (fun op => (op.form.type, op.stop.toNat)) ∧
      ((operandStarts m p types).map (sizeAt m)).sum =
        (ops.flatMap fun op => op.form.encode).length := by
  induction ops generalizing p types with
  | nil =>
    cases types with
    | nil => exact ⟨rfl, rfl⟩
    | cons type types => exact h.elim
  | cons op ops ih =>
    cases types with
    | nil => exact h.elim
    | cons type types =>
      obtain ⟨⟨⟨rfl, hwf⟩, hstop⟩, hplaced⟩ := h
      rw [List.flatMap_cons, Memory.holdsAt_append] at hat
      obtain ⟨hop, hops⟩ := hat
      have hsize := sizeAt_of_holdsAt hwf hop
      rw [hstop] at hplaced
      obtain ⟨hends, hsum⟩ := ih hplaced hops
      constructor
      · simp only [operandStarts, List.map_cons, hsize, hends, hstop]
      · simp only [operandStarts, List.map_cons, List.sum_cons, List.flatMap_cons,
          List.length_append, hsize, hsum]

/-! ## The shortest instructions -/

/-- The number of bytes that an operand takes at least. -/
def leastSize (type : OperandType) : Nat :=
  if type.isBranch then type.size else 1

/-- An operand that the code begins with has no index byte, and no mode with bytes of the code
behind the mode byte. -/
def IsPlain (type : OperandType) (code : List UInt8) : Prop :=
  type.isBranch = false → indexPart code = [] ∧
    ∀ b, baseByte? code = some b → (AddressingMode.classify b).isExtended = false

/-- The least length of an instruction is made of the least sizes of its operands. -/
lemma minLength_eq (op : Opcode) : op.minLength = op.width + (op.operands.map leastSize).sum := by
  rw [Opcode.minLength]
  generalize op.width = n
  induction op.operands generalizing n with
  | nil => rfl
  | cons type types ih =>
    rw [List.foldl_cons, ih, List.map_cons, List.sum_cons, leastSize]
    omega

/-- Bytes are announced behind the mode byte exactly for the modes that have some there. -/
lemma extensionSize_eq_zero_iff (type : OperandType) (mode : AddressingMode) :
    mode.extensionSize type.size = 0 ↔ mode.isExtended = false := by
  have hsize : type.size ≠ 0 := by
    cases type with
    | general type => cases type <;> decide
    | branch width => cases width <;> decide
  cases mode with
  | indexed r => simp [AddressingMode.extensionSize, AddressingMode.isExtended]
  | base mode =>
    cases mode with
    | displacement width r deferred =>
      cases width <;> simp [AddressingMode.extensionSize, BaseMode.extensionSize,
        DisplacementWidth.size, AddressingMode.isExtended]
    | immediate => simpa [AddressingMode.extensionSize, BaseMode.extensionSize,
        AddressingMode.isExtended] using hsize
    | _ => simp [AddressingMode.extensionSize, BaseMode.extensionSize, AddressingMode.isExtended]

/-- An operand takes at least the least number of bytes, and exactly this number if it is plain. -/
lemma leastSize_le (type : OperandType) (code : List UInt8) :
    leastSize type ≤ operandSize type code ∧
      (operandSize type code = leastSize type ↔ IsPlain type code) := by
  cases hbranch : type.isBranch with
  | true => simp [leastSize, operandSize, IsPlain, hbranch]
  | false =>
    simp only [leastSize, operandSize, IsPlain, hbranch, if_false, Bool.false_eq_true,
      forall_const]
    cases hbyte : baseByte? code with
    | none =>
      simp only [reduceCtorEq, false_implies, implies_true, and_true, ← List.length_eq_zero_iff]
      omega
    | some b =>
      have hzero := extensionSize_eq_zero_iff type (AddressingMode.classify b)
      simp only [Option.some.injEq, forall_eq', ← hzero, ← List.length_eq_zero_iff]
      omega

/-- **Operands take their least number of bytes exactly if all of them are plain.** -/
lemma sum_leastSize_le (m : Memory) (p : Nat) (types : List OperandType) :
    (types.map leastSize).sum ≤ ((operandStarts m p types).map (sizeAt m)).sum ∧
      (((operandStarts m p types).map (sizeAt m)).sum = (types.map leastSize).sum ↔
        ∀ s ∈ operandStarts m p types, IsPlain s.1 (m.toList.drop s.2)) := by
  induction types generalizing p with
  | nil => simp [operandStarts]
  | cons type types ih =>
    obtain ⟨hle, hiff⟩ := leastSize_le type (m.toList.drop p)
    obtain ⟨hles, hiffs⟩ := ih (p + sizeAt m (type, p))
    have hsize : sizeAt m (type, p) = operandSize type (m.toList.drop p) := rfl
    simp only [operandStarts, List.map_cons, List.sum_cons, List.forall_mem_cons, ← hiff, ← hiffs]
    omega

end Layout

/-! ## Which operands can be decoded -/

/-- An operand takes at least one byte. -/
lemma OperandForm.encode_ne_nil (form : OperandForm) : form.encode ≠ [] := by
  cases form with
  | general type s => simp [encode, Specifier.encode]
  | branch width displacement =>
    rw [encode, ← List.length_pos_iff, Bytes.length_ofValue]
    cases width <;> decide

section Decoding

variable {m : Memory} (hm : m.size < 2 ^ 32) {type : OperandType} {c c' : Cursor}

include hm in
/-- An operand is decoded wherever its bytes stand. -/
lemma operand_of_holdsAt {form : OperandForm} (hwf : form.WellFormed)
    (hat : m.HoldsAt c.pc.toNat form.encode) :
    ∃ c', Operand.decode m form.type c = .ok ⟨form, c'.pc⟩ c' := by
  obtain ⟨c', hform⟩ := (reads_operandForm hm form.type c).complete ⟨rfl, hwf⟩ hat
  refine ⟨c', ?_⟩
  rw [Operand.decode_eq]
  simp only [bind, EStateM.bind, hform]
  rfl

include hm in
/-- An operand that is decoded ends where it is announced to end. -/
lemma pc_of_operand {op : Operand} (h : Operand.decode m type c = .ok op c') :
    c'.pc.toNat = c.pc.toNat + Layout.sizeAt m (type, c.pc.toNat) := by
  obtain ⟨⟨⟨rfl, hwf⟩, -⟩, hat, hpc⟩ := (reads_operand hm type c).sound h
  rw [Layout.sizeAt_of_holdsAt hwf hat]
  exact hpc

include hm in
/-- An operand that cannot be decoded is announced to end behind the end of the memory. -/
lemma size_lt_of_operand_error {fault : MachineFault}
    (h : Operand.decode m type c = .error fault c') :
    m.size < c.pc.toNat + Layout.sizeAt m (type, c.pc.toNat) := by
  by_contra hle
  have hsize : Layout.operandSize type (m.toList.drop c.pc.toNat) ≤
      (m.toList.drop c.pc.toNat).length := by
    rw [List.length_drop, Memory.length_toList]
    have hsizeAt : Layout.sizeAt m (type, c.pc.toNat) =
        Layout.operandSize type (m.toList.drop c.pc.toNat) := rfl
    omega
  obtain ⟨form, rfl, hwf, hat⟩ := Layout.exists_encode_prefix hsize
  obtain ⟨c'', hok⟩ := operand_of_holdsAt hm hwf hat
  rw [hok] at h
  cases h

include hm in
/-- **An operand can be decoded exactly if all bytes that are announced are there.** -/
lemma exists_operand_iff :
    (∃ op c', Operand.decode m type c = .ok op c') ↔
      c.pc.toNat + Layout.sizeAt m (type, c.pc.toNat) ≤ m.size := by
  constructor
  · rintro ⟨op, c', h⟩
    obtain ⟨⟨⟨rfl, hwf⟩, -⟩, hat, -⟩ := (reads_operand hm type c).sound h
    rw [Layout.sizeAt_of_holdsAt hwf hat]
    exact hat.le_size op.form.encode_ne_nil
  · intro hle
    cases h : Operand.decode m type c with
    | ok op c' => exact ⟨op, c', rfl⟩
    | error fault c' =>
      have hlt := size_lt_of_operand_error hm h
      omega

end Decoding

/-- An undefined code takes one byte or, if this is an escape byte, two. -/
lemma Opcode.length_bytesOf_isCode {code : UInt16} (h : IsCode code) :
    ∃ first, (bytesOf code).head? = some first ∧
      (bytesOf code).length = if isEscape first then 2 else 1 := by
  rw [IsCode] at h
  rw [bytesOf]
  split at h
  case isTrue hgt =>
    refine ⟨(code >>> 8).toUInt8, ?_, ?_⟩ <;> simp [hgt, h]
  case isFalse hle =>
    refine ⟨code.toUInt8, ?_, ?_⟩ <;> simp [hle, h]

/-- **The length of an instruction is announced by its bytes.** Let the memory have fewer than
`2 ^ 32` bytes, and let an instruction be decoded. If it has an opcode, this is one of the table,
and the length of the instruction is the width of the opcode and the sizes of its operands: a branch
operand takes the bytes of its displacement, and a general operand takes its index bytes, its mode
byte, and as many bytes as this mode byte announces; each operand ends where it is announced to. The
instruction is at least as long as the least length of its opcode, and exactly as long if and only
if no general operand has an index byte or an immediate, absolute or displacement mode. An
instruction without an opcode takes one byte or, if this is an escape byte, two. -/
theorem instruction_length_predicted (m : Memory) (hm : m.size < 2 ^ 32) (c c' : Cursor)
    (i : Instruction) (hdecode : Instruction.decode m c = .ok i c') :
    i.stop.toNat = c.pc.toNat + i.bytes.length ∧
    (∀ op, i.opcode? = some op →
      let starts := Layout.operandStarts m (c.pc.toNat + op.width) op.operands
      op ∈ Opcode.table ∧
      i.bytes.length = op.width + (starts.map (Layout.sizeAt m)).sum ∧
      i.body.operands.map (fun operand => (operand.form.type, operand.stop.toNat)) =
        starts.map (fun s => (s.1, s.2 + Layout.sizeAt m s)) ∧
      op.minLength ≤ i.bytes.length ∧
      (i.bytes.length = op.minLength ↔ ∀ s ∈ starts, s.1.isBranch = false →
        Layout.indexPart (m.toList.drop s.2) = [] ∧
        ∀ b, Layout.baseByte? (m.toList.drop s.2) = some b →
          (AddressingMode.classify b).isExtended = false)) ∧
    (i.opcode? = none → ∃ first, i.bytes.head? = some first ∧
      i.bytes.length = if Opcode.isEscape first then 2 else 1) := by
  obtain ⟨⟨⟨-, hstop, hbytes⟩, hplaced⟩, hat, -⟩ := (reads_instruction hm c).sound hdecode
  obtain ⟨start, stop, bytes, body⟩ := i
  obtain rfl : bytes = body.encode := hbytes
  refine ⟨hstop, fun op hop => ?_, fun hnone => ?_⟩
  · cases body with
    | unknown code => cases hop
    | known op' operands =>
      cases hop
      obtain ⟨hmem, hoperands⟩ := hplaced
      obtain ⟨-, hoperandsAt⟩ := Memory.holdsAt_append.1 hat
      rw [Opcode.length_bytesOf] at hoperandsAt
      obtain ⟨hends, hsum⟩ := Layout.sum_sizes_of_placed hoperands hoperandsAt
      obtain ⟨hle, hiff⟩ := Layout.sum_leastSize_le m (c.pc.toNat + op.width) op.operands
      have hlength : (InstructionBody.known op operands).encode.length = op.width +
          ((Layout.operandStarts m (c.pc.toNat + op.width) op.operands).map
            (Layout.sizeAt m)).sum := by
        rw [hsum, InstructionBody.encode, List.length_append, Opcode.length_bytesOf, Opcode.width]
      refine ⟨hmem, hlength, hends.symm, ?_, ?_⟩
      · dsimp only
        rw [hlength, Layout.minLength_eq]
        omega
      · dsimp only
        rw [hlength, Layout.minLength_eq, Nat.add_left_cancel_iff]
        exact hiff
  · cases body with
    | known op operands => cases hnone
    | unknown code => exact Opcode.length_bytesOf_isCode hplaced.1

/-- An instruction with an indexed displacement and a branch: five bytes where three are the
least. -/
theorem instruction_length_predicted_sobgtr :
    let m := Memory.ofList [0x01, 0xf5, 0x42, 0xa3, 0x10, 0xfe]
    let op : Opcode := ⟨0xf5, "sobgtr", [.general .long, .branch .byte]⟩
    let starts := Layout.operandStarts m 2 op.operands
    starts = [(.general .long, 2), (.branch .byte, 5)] ∧ starts.map (Layout.sizeAt m) = [3, 1] ∧
    ∃ i c', Instruction.decode m (.start 1) = .ok i c' ∧
      i.bytes.length = op.width + (starts.map (Layout.sizeAt m)).sum ∧
      op.minLength ≤ i.bytes.length := by
  intro m op starts
  have hrun : (Instruction.decode m).run' (.start 1) = some ⟨1, 6, [0xf5, 0x42, 0xa3, 0x10, 0xfe],
      .known op [⟨.general .long ⟨[⟨2⟩], .displacement .byte ⟨3⟩ false, 0x10⟩, 5⟩,
        ⟨.branch .byte 0xfe, 6⟩]⟩ := by
    decide +kernel
  obtain ⟨c', hdecode⟩ := Decoder.exists_ok_of_run' hrun
  obtain ⟨-, hknown, -⟩ := instruction_length_predicted m (by decide) (.start 1) c' _ hdecode
  obtain ⟨-, hlength, -, hleast, -⟩ := hknown op rfl
  exact ⟨by decide +kernel, by decide +kernel, _, c', hdecode, hlength, hleast⟩

end VaxListing
