import VaxListing.Instruction.Encoding
import VaxListing.Proofs.OperandFormat

set_option relaxedAutoImplicit false
set_option autoImplicit false

/-!
# The format of instructions

Decoding an instruction is the inverse of encoding it. An instruction of the table is an opcode with
well-formed operands of the types that the opcode demands; its bytes decode to it at every address,
and every instruction that is decoded comes from exactly one opcode and one list of operands.

## Main definitions

* `VaxListing.Opcode.IsCode` — the numbers that can stand in the place of an opcode.
* `VaxListing.Opcode.Suits` — operands of the types that an opcode demands.
* `VaxListing.Opcode.encode` — the bytes of an opcode with operands.
* `VaxListing.InstructionBody.Placed`, `VaxListing.Instruction.format` — what can be decoded.

## Main results

* `VaxListing.Opcode.find?_of_mem` — every opcode of the table is found by its code.
* `VaxListing.Instruction.decode_eq` — the bytes of an instruction are those that were decoded.
* `VaxListing.reads_instruction` — decoding reads the format of instructions.
* `VaxListing.decode_bijective` — decoding and encoding are inverse to each other.
-/

namespace VaxListing

/-! ## Codes -/

namespace Opcode

/-- A number that can stand in the place of an opcode: one byte that is no escape, or an escape byte
and another byte. -/
def IsCode (code : UInt16) : Prop :=
  if code > 0xff then isEscape (code >>> 8).toUInt8 = true else isEscape code.toUInt8 = false

instance : DecidablePred IsCode := fun code =>
  inferInstanceAs (Decidable (if code > 0xff then _ else _))

/-- The format of a code. -/
def codeFormat : Format UInt16 :=
  ⟨bytesOf, fun _ code => IsCode code⟩

/-- The table is sorted by the codes. -/
lemma table_sorted : (table.map code).Pairwise (· < ·) := by
  rw [← List.isChain_iff_pairwise]
  decide +kernel

/-- The codes of the table can stand in the place of an opcode. -/
lemma isCode_of_mem : ∀ op ∈ table, IsCode op.code := by
  decide +kernel

/-- Every opcode of the table is found by its code, since no code occurs twice. -/
lemma find?_of_mem {op : Opcode} (h : op ∈ table) : find? op.code = some op := by
  have hnodup : (table.map code).Nodup := table_sorted.imp fun hlt => UInt16.ne_of_lt hlt
  have hfound : (find? op.code).isSome := by
    rw [find?, List.find?_isSome]
    exact ⟨op, h, beq_self_eq_true _⟩
  obtain ⟨op', hop'⟩ := Option.isSome_iff_exists.1 hfound
  have hcode : op'.code = op.code := by simpa using List.find?_some hop'
  rw [hop', List.inj_on_of_nodup_map hnodup (List.mem_of_find?_eq_some hop') h hcode]

/-- What is found by a code is an opcode of the table with this code. -/
lemma find?_eq_some_iff {code : UInt16} {op : Opcode} :
    find? code = some op ↔ op ∈ table ∧ op.code = code := by
  constructor
  · intro h
    exact ⟨List.mem_of_find?_eq_some h, by simpa using List.find?_some h⟩
  · rintro ⟨hmem, rfl⟩
    exact find?_of_mem hmem

/-- The high half of a code. -/
lemma toNat_high (code : UInt16) : (code >>> 8).toUInt8.toNat = code.toNat / 256 := by
  have hlt := code.toNat_lt
  have hshift : (code >>> 8).toNat = code.toNat / 256 := by
    simp [UInt16.toNat_shiftRight, Nat.shiftRight_eq_div_pow]
  rw [UInt16.toNat_toUInt8, hshift]
  omega

/-- Two bytes make up a code whose halves they are. -/
lemma toNat_escaped (first second : UInt8) :
    (UInt16.ofNat (first.toNat * 256 + second.toNat)).toNat =
      first.toNat * 256 + second.toNat := by
  have hfirst := first.toNat_lt
  have hsecond := second.toNat_lt
  rw [UInt16.toNat_ofNat']
  omega

/-- The high half of a code of two bytes is the first one. -/
lemma high_escaped (first second : UInt8) :
    (UInt16.ofNat (first.toNat * 256 + second.toNat) >>> 8).toUInt8 = first := by
  apply UInt8.toNat_inj.1
  have hsecond := second.toNat_lt
  rw [toNat_high, toNat_escaped]
  omega

/-- The low half of a code of two bytes is the second one. -/
lemma low_escaped (first second : UInt8) :
    (UInt16.ofNat (first.toNat * 256 + second.toNat)).toUInt8 = second := by
  apply UInt8.toNat_inj.1
  have hsecond := second.toNat_lt
  rw [UInt16.toNat_toUInt8, toNat_escaped]
  omega

/-- An escape byte is not zero. -/
lemma pos_of_isEscape {b : UInt8} (h : isEscape b = true) : 0 < b.toNat := by
  rw [isEscape, Bool.or_eq_true, beq_iff_eq, beq_iff_eq] at h
  rcases h with rfl | rfl <;> decide

/-- A code behind an escape byte is above `0xff`. -/
lemma escaped_gt {first : UInt8} (h : isEscape first = true) (second : UInt8) :
    UInt16.ofNat (first.toNat * 256 + second.toNat) > 0xff := by
  have hpos := pos_of_isEscape h
  have hnat := toNat_escaped first second
  exact UInt16.lt_iff_toNat_lt.2 (by rw [hnat]; show 255 < _; omega)

/-- A code of one byte is not above `0xff`. -/
lemma toUInt16_le (first : UInt8) : ¬ first.toUInt16 > 0xff := by
  have hfirst := first.toNat_lt
  intro h
  have hlt := UInt16.lt_iff_toNat_lt.1 h
  rw [UInt8.toNat_toUInt16] at hlt
  exact absurd hlt (by show ¬ 255 < _; omega)

/-- What may follow the first byte of a code. -/
def codeRest (first : UInt8) : Format UInt16 :=
  if isEscape first then
    ⟨fun code => [code.toUInt8], fun _ code =>
      ∃ second : UInt8, code = .ofNat (first.toNat * 256 + second.toNat)⟩
  else .unit first.toUInt16

/-- A code is a first byte with what may follow it. -/
lemma isCode_iff {p q : Nat} {code : UInt16} :
    IsCode code ↔ ∃ first, Format.byte.Fits p first ∧ (codeRest first).Fits q code := by
  constructor
  · intro h
    rw [IsCode] at h
    split at h
    case isTrue hgt =>
      refine ⟨(code >>> 8).toUInt8, trivial, ?_⟩
      rw [codeRest, if_pos h]
      refine ⟨code.toUInt8, ?_⟩
      apply UInt16.toNat_inj.1
      rw [toNat_escaped, toNat_high, UInt16.toNat_toUInt8]
      omega
    case isFalse hle =>
      refine ⟨code.toUInt8, trivial, ?_⟩
      rw [codeRest, if_neg (by simp [h])]
      have hsmall : code.toNat ≤ 255 := by
        by_contra hgt
        exact hle (UInt16.lt_iff_toNat_lt.2 (by show 255 < _; omega))
      apply UInt16.toNat_inj.1
      rw [UInt8.toNat_toUInt16, UInt16.toNat_toUInt8]
      omega
  · rintro ⟨first, -, hrest⟩
    rw [codeRest] at hrest
    split at hrest
    case isTrue hesc =>
      obtain ⟨second, rfl⟩ := hrest
      rw [IsCode, if_pos (escaped_gt hesc second), high_escaped]
      exact hesc
    case isFalse hesc =>
      obtain rfl : code = first.toUInt16 := hrest
      rw [IsCode, if_neg (toUInt16_le first)]
      simpa using hesc

/-- The bytes of a code are its first byte and the bytes of what follows. -/
lemma bytesOf_eq {p : Nat} {first : UInt8} {code : UInt16} (h : (codeRest first).Fits p code) :
    bytesOf code = [first] ++ (codeRest first).bytes code := by
  rw [codeRest] at h ⊢
  split at h
  case isTrue hesc =>
    obtain ⟨second, rfl⟩ := h
    rw [bytesOf, if_pos (escaped_gt hesc second), high_escaped, if_pos hesc]
    rfl
  case isFalse hesc =>
    obtain rfl : code = first.toUInt16 := h
    rw [bytesOf, if_neg (toUInt16_le first), if_neg hesc]
    simp [Format.unit]

/-- A code has one byte or two. -/
lemma length_bytesOf (code : UInt16) : (bytesOf code).length = widthOf code := by
  rw [bytesOf, widthOf]
  split <;> rfl

end Opcode

/-- Decoding a code reads the format of codes. -/
lemma reads_decodeCode {m : Memory} (hm : m.size < 2 ^ 32) (c : Cursor) :
    Reads m Opcode.codeFormat c (Instruction.decodeCode m c) := by
  refine (reads_fetchByte hm c).bind Opcode.codeRest ?_ (fun code => Opcode.isCode_iff)
    (fun first code => Opcode.bytesOf_eq)
  intro first c' _
  rw [Opcode.codeRest]
  split
  case isTrue hesc =>
    refine (reads_fetchByte hm c').map (fun code => ?_) (fun second => ?_)
    · exact exists_congr fun second => (and_iff_right trivial).symm
    · show [_] = [second]
      rw [Opcode.low_escaped]
  case isFalse hesc => exact Reads.unit m _ c' c' rfl

/-! ## Opcode and operands -/

namespace InstructionBody

/-- What can be decoded at an address: an opcode of the table with operands that follow it, or a
code that is not in the table. -/
def Placed (p : Nat) : InstructionBody → Prop
  | known op operands =>
    op ∈ Opcode.table ∧ Operand.Placed (p + op.width) op.operands operands
  | unknown code => Opcode.IsCode code ∧ Opcode.find? code = none

/-- The code of an instruction. -/
def code : InstructionBody → UInt16
  | known op _ => op.code
  | unknown code => code

/-- The operands of an instruction; a code that is no opcode has none. -/
def operands : InstructionBody → List Operand
  | known _ operands => operands
  | unknown _ => []

/-- The bytes of an instruction behind its code. -/
def operandBytes : InstructionBody → List UInt8
  | known _ operands => operands.flatMap fun operand => operand.form.encode
  | unknown _ => []

/-- The format of an instruction without its address. -/
def format : Format InstructionBody :=
  ⟨encode, Placed⟩

/-- What may follow a code. -/
def rest (code : UInt16) : Format InstructionBody :=
  ⟨operandBytes, fun p body =>
    match Opcode.find? code with
    | some op => ∃ operands, body = known op operands ∧ Operand.Placed p op.operands operands
    | none => body = unknown code⟩

/-- An instruction is its code and what follows. -/
lemma encode_eq (body : InstructionBody) :
    body.encode = Opcode.bytesOf body.code ++ body.operandBytes := by
  cases body with
  | known op operands => rfl
  | unknown code => exact (List.append_nil _).symm

/-- An instruction takes at least one byte. -/
lemma encode_ne_nil (body : InstructionBody) : body.encode ≠ [] := by
  have hcode := Opcode.length_bytesOf body.code
  rw [encode_eq, ← List.length_pos_iff, List.length_append, hcode, Opcode.widthOf]
  split <;> omega

/-- What can be decoded is a code with what may follow it. -/
lemma placed_iff {p : Nat} {body : InstructionBody} :
    body.Placed p ↔ ∃ code, Opcode.codeFormat.Fits p code ∧
      (rest code).Fits (p + (Opcode.codeFormat.bytes code).length) body := by
  constructor
  · intro h
    refine ⟨body.code, ?_⟩
    cases body with
    | known op operands =>
      obtain ⟨hmem, hplaced⟩ := h
      refine ⟨Opcode.isCode_of_mem op hmem, ?_⟩
      simp only [rest, code, Opcode.find?_of_mem hmem]
      refine ⟨operands, rfl, ?_⟩
      rw [Opcode.codeFormat, Opcode.length_bytesOf]
      exact hplaced
    | unknown code =>
      obtain ⟨hcode, hnone⟩ := h
      refine ⟨hcode, ?_⟩
      simp only [rest, InstructionBody.code, hnone]
  · rintro ⟨code, hcode, hrest⟩
    cases hfind : Opcode.find? code with
    | none =>
      simp only [rest, hfind] at hrest
      subst hrest
      exact ⟨hcode, hfind⟩
    | some op =>
      simp only [rest, hfind] at hrest
      obtain ⟨operands, rfl, hplaced⟩ := hrest
      obtain ⟨hmem, rfl⟩ := Opcode.find?_eq_some_iff.1 hfind
      rw [Opcode.codeFormat, Opcode.length_bytesOf] at hplaced
      exact ⟨hmem, hplaced⟩

/-- The code of what may follow a code is this code. -/
lemma code_of_rest {p : Nat} {code : UInt16} {body : InstructionBody}
    (h : (rest code).Fits p body) : body.code = code := by
  cases hfind : Opcode.find? code with
  | none =>
    simp only [rest, hfind] at h
    rw [h, InstructionBody.code]
  | some op =>
    simp only [rest, hfind] at h
    obtain ⟨operands, rfl, -⟩ := h
    exact (Opcode.find?_eq_some_iff.1 hfind).2

end InstructionBody

/-- Decoding what follows a code reads what may follow it. -/
lemma reads_decodeBody {m : Memory} (hm : m.size < 2 ^ 32) (start : Address) (code : UInt16)
    (c : Cursor) :
    Reads m (InstructionBody.rest code) c (Instruction.decodeBody m start code c) := by
  rw [Instruction.decodeBody]
  cases hfind : Opcode.find? code with
  | none =>
    refine ⟨fun {body c'} h => ?_, fun {body} hfit _ => ?_, fun {fault c'} h => (nomatch h)⟩
    · cases h
      simp [InstructionBody.rest, hfind, InstructionBody.operandBytes]
    · simp only [InstructionBody.rest, hfind] at hfit
      subst hfit
      exact ⟨_, rfl⟩
  | some op =>
    refine (reads_operands hm op.operands c).map (fun body => ?_) (fun operands => rfl)
    simp only [InstructionBody.rest, hfind]
    exact exists_congr fun operands => and_comm

/-- Decoding a code and what follows reads the format of an instruction. -/
lemma reads_instructionBody {m : Memory} (hm : m.size < 2 ^ 32) (start : Address) (c : Cursor) :
    Reads m InstructionBody.format c
      ((Instruction.decodeCode m >>= Instruction.decodeBody m start) c) := by
  refine (reads_decodeCode hm c).bind InstructionBody.rest ?_
    (fun body => InstructionBody.placed_iff) (fun code body h => ?_)
  · exact fun code c' _ => reads_decodeBody hm start code c'
  · rw [← InstructionBody.code_of_rest h]
    exact InstructionBody.encode_eq body

/-! ## Whole instructions -/

namespace Instruction

/-- The format of an instruction: it knows its address and its bytes. -/
def format : Format Instruction :=
  ⟨fun i => i.body.encode, fun p i =>
    (i.start.toNat = p ∧ i.stop.toNat = p + i.body.encode.length ∧ i.bytes = i.body.encode) ∧
      i.body.Placed p⟩

/-- What is left to do when the body of an instruction is decoded: its bytes are taken from memory
once more. -/
lemma decode_eq_bind (m : Memory) (c : Cursor) :
    decode m c =
      match (decodeCode m >>= decodeBody m c.pc) c with
      | .ok body c' =>
        match m.slice c.pc (c'.pc - c.pc).toNat with
        | .ok bytes => .ok ⟨c.pc, c'.pc, bytes, body⟩ c'
        | .error fault => .error fault c'
      | .error fault c' => .error fault c' := by
  simp only [decode, Decoder.pc, bind, EStateM.bind]
  cases decodeCode m c with
  | error fault c₁ => rfl
  | ok code c₁ =>
    dsimp only
    cases decodeBody m c.pc code c₁ with
    | error fault c₂ => rfl
    | ok body c₂ =>
      simp only [Decoder.ofExcept]
      cases m.slice c.pc (c₂.pc - c.pc).toNat <;> rfl

/-- **The bytes of an instruction are those that were decoded**: taking them from memory once more
never fails, and gives the encoding of the instruction.

**Proof sketch.** The program counter has moved over the encoding of what was decoded, which stands
in memory at the start. So the difference of the two addresses is the length of the encoding,
without wrapping, and the segment of this length is the encoding. -/
lemma decode_eq {m : Memory} (hm : m.size < 2 ^ 32) (c : Cursor) :
    decode m c =
      match (decodeCode m >>= decodeBody m c.pc) c with
      | .ok body c' => .ok ⟨c.pc, c'.pc, body.encode, body⟩ c'
      | .error fault c' => .error fault c' := by
  have hbody := reads_instructionBody hm c.pc c
  rw [decode_eq_bind]
  cases hdecoded : (decodeCode m >>= decodeBody m c.pc) c with
  | error fault c' => rfl
  | ok body c' =>
    obtain ⟨-, hat, hpc⟩ := hbody.sound hdecoded
    have hpc : c'.pc.toNat = c.pc.toNat + body.encode.length := hpc
    have hle : c.pc.toNat + body.encode.length ≤ m.size := hat.le_size body.encode_ne_nil
    have hlen : (c'.pc - c.pc).toNat = body.encode.length := by
      rw [UInt32.toNat_sub_of_le _ _ (UInt32.le_iff_toNat_le.2 (by omega)), hpc]
      omega
    have hsegment : (m.toList.drop c.pc.toNat).take body.encode.length = body.encode := hat.eq_take
    dsimp only
    rw [hlen, Memory.slice_eq, if_pos hle, hsegment]

end Instruction

/-- **Decoding an instruction reads its format.** -/
lemma reads_instruction {m : Memory} (hm : m.size < 2 ^ 32) (c : Cursor) :
    Reads m Instruction.format c (Instruction.decode m c) := by
  have hbody := reads_instructionBody hm c.pc c
  rw [Instruction.decode_eq hm]
  cases hdecoded : (Instruction.decodeCode m >>= Instruction.decodeBody m c.pc) c with
  | error fault c' =>
    refine ⟨fun {i c''} h => (nomatch h), fun {i} hfit hat => ?_, fun {fault c''} h => ?_⟩
    · obtain ⟨c'', h⟩ := hbody.complete hfit.2 hat
      rw [hdecoded] at h
      cases h
    · cases h
      exact hbody.overrun hdecoded
  | ok body c' =>
    obtain ⟨hplaced, hat, hpc⟩ := hbody.sound hdecoded
    refine ⟨fun {i c''} h => ?_, fun {i} hfit hat => ?_, fun {fault c''} h => (nomatch h)⟩
    · cases h
      exact ⟨⟨⟨rfl, hpc, rfl⟩, hplaced⟩, hat, hpc⟩
    · obtain ⟨⟨hstart, hstop, hbytes⟩, hplaced'⟩ := hfit
      obtain ⟨c'', h, hpc'⟩ := hbody.exists_ok hplaced' hat
      rw [hdecoded] at h
      cases h
      refine ⟨c', ?_⟩
      have hi : i = ⟨c.pc, c'.pc, i.body.encode, i.body⟩ := by
        rw [← hbytes, ← UInt32.toNat_inj.1 hstart, ← UInt32.toNat_inj.1 (hstop.trans hpc'.symm)]
      rw [hi]

/-! ## Decoding and encoding are inverse to each other -/

/-- The operands suit an opcode: there is one for each type that it demands, and each has bytes of
its own. -/
structure Opcode.Suits (op : Opcode) (forms : List OperandForm) : Prop where
  /-- The operands have the types that the opcode demands. -/
  types : forms.map OperandForm.type = op.operands
  /-- The operands are well-formed. -/
  wellFormed : ∀ form ∈ forms, form.WellFormed

/-- The bytes of an opcode with operands. -/
def Opcode.encode (op : Opcode) (forms : List OperandForm) : List UInt8 :=
  bytesOf op.code ++ forms.flatMap OperandForm.encode

/-- Operands one behind another, each with the address behind it. -/
def Operand.place : Nat → List OperandForm → List Operand
  | _, [] => []
  | p, form :: forms =>
    ⟨form, .ofNat (p + form.encode.length)⟩ :: place (p + form.encode.length) forms

namespace Operand

/-- Placing operands keeps what they say. -/
lemma map_form_place (p : Nat) (forms : List OperandForm) : (place p forms).map form = forms := by
  induction forms generalizing p with
  | nil => rfl
  | cons form forms ih => rw [place, List.map_cons, ih]

/-- Placing operands keeps their bytes. -/
lemma flatMap_place (p : Nat) (forms : List OperandForm) :
    ((place p forms).flatMap fun op => op.form.encode) = forms.flatMap OperandForm.encode := by
  induction forms generalizing p with
  | nil => rfl
  | cons form forms ih => rw [place, List.flatMap_cons, List.flatMap_cons, ih]

/-- Operands that follow one another are placed, given that they end below the wrap of addresses. -/
lemma placed_iff {types : List OperandType} {ops : List Operand} {p : Nat}
    (hend : p + (ops.flatMap fun op => op.form.encode).length < 2 ^ 32) :
    Placed p types ops ↔
      ops = place p (ops.map form) ∧ (ops.map form).map OperandForm.type = types ∧
        ∀ f ∈ ops.map form, f.WellFormed := by
  induction ops generalizing p types with
  | nil =>
    cases types with
    | nil => simp [Placed, place]
    | cons type types => simp [Placed]
  | cons op ops ih =>
    rw [List.flatMap_cons, List.length_append] at hend
    have hlt : p + op.form.encode.length < UInt32.size := by
      show _ < 2 ^ 32
      omega
    have hstop : op.stop.toNat = p + op.form.encode.length ↔
        op.stop = .ofNat (p + op.form.encode.length) := by
      rw [← UInt32.toNat_inj, UInt32.toNat_ofNat_of_lt' hlt]
    cases types with
    | nil => simp [Placed]
    | cons type types =>
      simp only [Placed, format]
      constructor
      · rintro ⟨⟨⟨htype, hwf⟩, haddr⟩, hrest⟩
        rw [haddr] at hrest
        obtain ⟨hplace, htypes, hwfs⟩ := (ih (by omega)).1 hrest
        refine ⟨?_, ?_, ?_⟩
        · rw [List.map_cons, place, ← hplace, ← hstop.1 haddr]
        · simp only [List.map_cons, htype, htypes]
        · simp only [List.map_cons, List.forall_mem_cons]
          exact ⟨hwf, hwfs⟩
      · simp only [List.map_cons, place, List.cons.injEq, List.forall_mem_cons]
        rintro ⟨⟨hop, hplace⟩, ⟨htype, htypes⟩, hwf, hwfs⟩
        have haddr : op.stop.toNat = p + op.form.encode.length := hstop.2 (by rw [hop])
        refine ⟨⟨⟨htype, hwf⟩, haddr⟩, ?_⟩
        rw [haddr]
        exact (ih (by omega)).2 ⟨hplace, htypes, hwfs⟩

end Operand

/-- The instruction that an opcode with suitable operands makes up at an address. -/
def Opcode.assemble (op : Opcode) (forms : List OperandForm) (p : Address) : Instruction where
  start := p
  stop := .ofNat (p.toNat + (op.encode forms).length)
  bytes := op.encode forms
  body := .known op (Operand.place (p.toNat + op.width) forms)

namespace Opcode

/-- The bytes of an assembled instruction. -/
lemma encode_assemble (op : Opcode) (forms : List OperandForm) (p : Address) :
    (op.assemble forms p).body.encode = op.encode forms := by
  rw [assemble, InstructionBody.encode, Operand.flatMap_place, encode]

/-- An opcode with operands takes at least one byte. -/
lemma encode_ne_nil (op : Opcode) (forms : List OperandForm) : op.encode forms ≠ [] := by
  rw [← encode_assemble op forms 0]
  exact InstructionBody.encode_ne_nil _

/-- The text of an assembled instruction: the mnemonic and, if there are operands, a space and the
texts of the operands divided by commas. -/
lemma text_assemble (op : Opcode) (forms : List OperandForm) (p : Address) :
    (op.assemble forms p).text = op.mnemonic ++ if forms = [] then "" else
      " " ++ ",".intercalate ((Operand.place (p.toNat + op.width) forms).map Operand.text) := by
  cases forms with
  | nil => simp [assemble, Instruction.text, InstructionBody.text, Operand.place]
  | cons form forms =>
    simp [assemble, Instruction.text, InstructionBody.text, Operand.place, String.append_assoc]

end Opcode

section Bijection

variable {m : Memory} (hm : m.size < 2 ^ 32) {c : Cursor}

include hm in
/-- **Encoded instructions are decoded**: where the bytes of an opcode of the table with suitable
operands stand in memory, decoding gives the instruction that they make up. -/
lemma decode_of_holdsAt {op : Opcode} (hop : op ∈ Opcode.table) {forms : List OperandForm}
    (hsuits : op.Suits forms) (hat : m.HoldsAt c.pc.toNat (op.encode forms)) :
    ∃ c', Instruction.decode m c = .ok (op.assemble forms c.pc) c' ∧
      c'.pc.toNat = c.pc.toNat + (op.encode forms).length := by
  have hread := reads_instruction hm c
  have hencode := op.encode_assemble forms c.pc
  have hle := hat.le_size (op.encode_ne_nil forms)
  have hstop : (op.assemble forms c.pc).stop.toNat = c.pc.toNat + (op.encode forms).length :=
    UInt32.toNat_ofNat_of_lt' (show _ < 2 ^ 32 by omega)
  have hplaced : (op.assemble forms c.pc).body.Placed c.pc.toNat := by
    refine ⟨hop, (Operand.placed_iff ?_).2 ?_⟩
    · rw [Operand.flatMap_place]
      have hlen : (op.encode forms).length =
          op.width + (forms.flatMap OperandForm.encode).length := by
        rw [Opcode.encode, List.length_append, Opcode.length_bytesOf, Opcode.width]
      omega
    · rw [Operand.map_form_place]
      exact ⟨rfl, hsuits.types, hsuits.wellFormed⟩
  have hfit : Instruction.format.Fits c.pc.toNat (op.assemble forms c.pc) := by
    refine ⟨⟨rfl, ?_, ?_⟩, hplaced⟩
    · rw [hencode, hstop]
    · rw [hencode]
      rfl
  have hbytes : Instruction.format.bytes (op.assemble forms c.pc) = op.encode forms := hencode
  obtain ⟨c', hc', hpc⟩ := hread.exists_ok hfit (by rwa [hbytes])
  refine ⟨c', hc', ?_⟩
  rw [hpc, hbytes]

include hm in
/-- **Decoded instructions are encoded**: a decoded instruction of the table is made up by its
opcode and suitable operands, whose bytes stand at its address. -/
lemma exists_assemble_of_decode {i : Instruction} {c' : Cursor}
    (h : Instruction.decode m c = .ok i c') {op : Opcode} (hop : i.opcode? = some op) :
    op ∈ Opcode.table ∧ ∃ forms, op.Suits forms ∧ i = op.assemble forms c.pc ∧
      m.HoldsAt c.pc.toNat (op.encode forms) := by
  obtain ⟨⟨⟨hstart, hstop, hbytes⟩, hplaced⟩, hat, -⟩ := (reads_instruction hm c).sound h
  obtain ⟨start, stop, bytes, body⟩ := i
  cases body with
  | unknown code => cases hop
  | known op' operands =>
    cases hop
    obtain ⟨hmem, hoperands⟩ := hplaced
    set body := InstructionBody.known op operands with hbody
    have hle : c.pc.toNat + body.encode.length ≤ m.size := hat.le_size body.encode_ne_nil
    have hlen : body.encode.length =
        op.width + (operands.flatMap fun operand => operand.form.encode).length := by
      rw [hbody, InstructionBody.encode, List.length_append, Opcode.length_bytesOf, Opcode.width]
    obtain ⟨hplace, htypes, hwfs⟩ := (Operand.placed_iff (by omega)).1 hoperands
    have hencode : op.encode (operands.map Operand.form) = body.encode := by
      rw [hbody, InstructionBody.encode, Opcode.encode, List.flatMap_map]
    refine ⟨hmem, operands.map Operand.form, ⟨htypes, hwfs⟩, ?_, by rwa [hencode]⟩
    have hstart' : start = c.pc := UInt32.toNat_inj.1 hstart
    have hstop' : stop = .ofNat (c.pc.toNat + body.encode.length) := by
      apply UInt32.toNat_inj.1
      rw [UInt32.toNat_ofNat_of_lt' (show _ < 2 ^ 32 by omega)]
      exact hstop
    rw [Opcode.assemble, hencode, ← hplace, hstart', hstop', show bytes = body.encode from hbytes]

end Bijection

/-- **Decoding is a bijection with structured instructions.** Let the memory have fewer than
`2 ^ 32` bytes. Wherever the bytes of an opcode of the table with suitable operands stand in memory,
decoding succeeds and gives the opcode, the address, the bytes and the text of this instruction.
Conversely, every decoded instruction with a defined opcode is the encoding of exactly one opcode of
the table with exactly one list of suitable operands.

**Proof sketch.** The first half is `decode_of_holdsAt`, the existence in the second one is
`exists_assemble_of_decode`. If another opcode with operands has its bytes at the same address, the
first half decodes these bytes to it, so that the two assembled instructions are equal, and with
them their opcodes and what their operands say. -/
theorem decode_bijective (m : Memory) (hm : m.size < 2 ^ 32) (c : Cursor) :
    (∀ op ∈ Opcode.table, ∀ forms, op.Suits forms → m.HoldsAt c.pc.toNat (op.encode forms) →
      ∃ i c', Instruction.decode m c = .ok i c' ∧ i.opcode? = some op ∧ i.start = c.pc ∧
        i.stop.toNat = c.pc.toNat + (op.encode forms).length ∧ c'.pc = i.stop ∧
        i.bytes = op.encode forms ∧
        i.text = op.mnemonic ++ if forms = [] then "" else
          " " ++ ",".intercalate
            ((Operand.place (c.pc.toNat + op.width) forms).map Operand.text)) ∧
    (∀ i c' op, Instruction.decode m c = .ok i c' → i.opcode? = some op →
      op ∈ Opcode.table ∧ ∃ forms, op.Suits forms ∧ i.bytes = op.encode forms ∧
        m.HoldsAt c.pc.toNat (op.encode forms) ∧
        ∀ op' ∈ Opcode.table, ∀ forms', op'.Suits forms' →
          m.HoldsAt c.pc.toNat (op'.encode forms') → op' = op ∧ forms' = forms) := by
  constructor
  · intro op hop forms hsuits hat
    obtain ⟨c', hdecode, hpc⟩ := decode_of_holdsAt hm hop hsuits hat
    have hle := hat.le_size (op.encode_ne_nil forms)
    have hstop : (op.assemble forms c.pc).stop.toNat = c.pc.toNat + (op.encode forms).length :=
      UInt32.toNat_ofNat_of_lt' (show _ < 2 ^ 32 by omega)
    exact ⟨_, c', hdecode, rfl, rfl, hstop, UInt32.toNat_inj.1 (hpc.trans hstop.symm), rfl,
      op.text_assemble forms c.pc⟩
  · intro i c' op hdecode hop
    obtain ⟨hmem, forms, hsuits, rfl, hat⟩ := exists_assemble_of_decode hm hdecode hop
    refine ⟨hmem, forms, hsuits, rfl, hat, fun op' hop' forms' hsuits' hat' => ?_⟩
    obtain ⟨c'', hdecode', -⟩ := decode_of_holdsAt hm hop' hsuits' hat'
    rw [hdecode] at hdecode'
    have hbody := congrArg Instruction.body (EStateM.Result.ok.inj hdecode').1
    obtain ⟨hopcode, hplace⟩ := InstructionBody.known.inj hbody
    have hforms := congrArg (List.map Operand.form) hplace
    rw [Operand.map_form_place, Operand.map_form_place] at hforms
    exact ⟨hopcode.symm, hforms.symm⟩

/-- The instruction `addl3` behind another byte, with two indices on its first operand: the theorem
gives its decoding. -/
theorem decode_bijective_addl3 :
    ∃ i c', Instruction.decode (.ofList [0x01, 0xc1, 0x41, 0x42, 0xa3, 0xfc, 0x8f, 0x34, 0x12, 0x00,
        0x00, 0x5e]) (.start 1) = .ok i c' ∧ i.stop.toNat = 12 ∧
      i.text = "addl3 0xfffffffc(r3)[r2][r1],$0x00001234,sp" := by
  have hop : ⟨0xc1, "addl3", [.general .long, .general .long, .general .long]⟩ ∈ Opcode.table := by
    decide +kernel
  obtain ⟨i, c', hdecode, -, -, hstop, -, -, htext⟩ :=
    (decode_bijective (.ofList [0x01, 0xc1, 0x41, 0x42, 0xa3, 0xfc, 0x8f, 0x34, 0x12, 0x00, 0x00,
      0x5e]) (by decide) (.start 1)).1 _ hop
      [.general .long ⟨[⟨1⟩, ⟨2⟩], .displacement .byte ⟨3⟩ false, 0xfc⟩,
        .general .long ⟨[], .immediate, 0x1234⟩, .general .long ⟨[], .register .sp, 0⟩]
      ⟨rfl, by decide⟩ (by decide)
  exact ⟨i, c', hdecode, hstop, htext.trans (by decide +kernel)⟩

end VaxListing
