import VaxListing.Proofs.Characters
import VaxListing.Proofs.OperandReader

set_option relaxedAutoImplicit false
set_option autoImplicit false

/-!
# The parts of the text of an instruction

The text of an instruction can be taken apart again. Up to the first space it is the mnemonic, and
what follows the space falls into the texts of the operands at its commas. A code that is no opcode
is told from all of them by its beginning, and shows its bytes as one number.

## Main definitions

* `VaxListing.cutAtSpace` — a text cut at its first space.
* `VaxListing.splitCommas` — the pieces of a text between its commas.
* `VaxListing.Operand.texts?` — the texts of operands that are decoded one by one.

## Main results

* `VaxListing.Operand.texts?_of_placed` — operands one behind another have the texts that decoding
  each of them gives.
* `VaxListing.InstructionBody.word_isPrefix_text` — data is told by the beginning of its text.
* `VaxListing.instruction_text_splits` — the parts of the text of a decoded instruction.

## Design

The second side of the main result decodes every operand on its own, from a fresh cursor at the
address where the one before ended. It knows nothing of the instruction around them.
-/

namespace VaxListing

/-! ## Cutting texts -/

/-- A text cut at its first space: what stands in front of it and, if there is a space, what
follows. -/
def cutAtSpace (text : String) : String × Option String :=
  match text.toList.span (· != ' ') with
  | (front, []) => (.ofList front, none)
  | (front, _ :: rest) => (.ofList front, some (.ofList rest))

/-- The pieces of a text between its commas. -/
def splitCommas (text : String) : List String :=
  (text.split ',').toList.map (·.copy)

/-- A word of letters and digits is not cut. -/
lemma cutAtSpace_word {word : String} (h : MadeOf (·.isAlphanum = true) word) :
    cutAtSpace word = (word, none) := by
  have hword : ∀ c ∈ word.toList, (c != ' ') = true := bne_of_isAlphanum h (by decide)
  have hspan : (word.toList ++ []).span (· != ' ') = (word.toList, []) :=
    span_append_stop hword (by simp)
  rw [List.append_nil] at hspan
  rw [cutAtSpace, hspan]
  simp

/-- A text is cut behind a word of letters and digits if a space follows it. -/
lemma cutAtSpace_append {word : String} (h : MadeOf (·.isAlphanum = true) word) (rest : String) :
    cutAtSpace (word ++ " " ++ rest) = (word, some rest) := by
  have hchars : (word ++ " " ++ rest).toList = word.toList ++ ' ' :: rest.toList := by
    simp [String.toList_append]
  have hword : ∀ c ∈ word.toList, (c != ' ') = true := bne_of_isAlphanum h (by decide)
  rw [cutAtSpace, hchars, span_append_stop hword (by simp)]
  simp

/-- Texts without commas come apart again. -/
lemma splitCommas_intercalate {texts : List String} (hne : texts ≠ [])
    (h : ∀ text ∈ texts, ',' ∉ text.toList) : splitCommas (",".intercalate texts) = texts := by
  have hsplit : ((",".intercalate texts).split ',').toList.map (·.copy) =
      if texts = [] then [""] else texts := String.toList_split_intercalate h
  rw [splitCommas, hsplit, if_neg hne]

/-! ## Operands one by one -/

namespace Operand

/-- The texts of operands of the given types, of which the first is decoded at the address `p` and
each other one where the one before ended. There are none if one of them cannot be decoded. -/
def texts? (m : Memory) : Address → List OperandType → Option (List String)
  | _, [] => some []
  | p, type :: types =>
    match decode m type (.start p) with
    | .ok op c => (texts? m c.pc types).map (op.text :: ·)
    | .error _ _ => none

/-- There is one text for each type. -/
lemma length_of_texts? {m : Memory} {p : Address} {types : List OperandType} {texts : List String}
    (h : texts? m p types = some texts) : texts.length = types.length := by
  induction types generalizing p texts with
  | nil =>
    obtain rfl : [] = texts := Option.some.inj h
    rfl
  | cons type types ih =>
    rw [texts?] at h
    cases hop : decode m type (.start p) with
    | error fault c => simp [hop] at h
    | ok op c =>
      simp only [hop, Option.map_eq_some_iff] at h
      obtain ⟨rest, hrest, rfl⟩ := h
      rw [List.length_cons, List.length_cons, ih hrest]

/-- **Operands one behind another have the texts that decoding each of them gives.**

**Proof sketch.** Induction on the operands. The first one is decoded from its bytes, whatever the
cursor has recorded before, and the cursor behind it stands where the others begin. -/
lemma texts?_of_placed {m : Memory} (hm : m.size < 2 ^ 32) {p : Address}
    {types : List OperandType} {ops : List Operand} (h : Placed p.toNat types ops)
    (hat : m.HoldsAt p.toNat (ops.flatMap fun op => op.form.encode)) :
    texts? m p types = some (ops.map text) := by
  induction ops generalizing p types with
  | nil =>
    cases types with
    | nil => rfl
    | cons type types => exact h.elim
  | cons op ops ih =>
    cases types with
    | nil => exact h.elim
    | cons type types =>
      obtain ⟨hfit, hplaced⟩ := h
      rw [List.flatMap_cons, Memory.holdsAt_append] at hat
      obtain ⟨hop, hops⟩ := hat
      obtain ⟨c, hdecode, hpc⟩ := (reads_operand hm type (.start p)).exists_ok hfit hop
      have hstop : c.pc = op.stop := UInt32.toNat_inj.1 (hpc.trans hfit.2.symm)
      rw [← hfit.2, ← hstop] at hops
      rw [← hstop] at hplaced
      rw [texts?, hdecode]
      simp only [ih hplaced hops, Option.map_some, List.map_cons]

/-- A comma never belongs to an operand. -/
lemma comma_notMem_text (op : Operand) : ',' ∉ op.text.toList := by
  intro h
  have hchar := op.madeOf_text ',' h
  exact absurd hchar (by decide)

/-- The texts of operands come apart at the commas between them. -/
lemma splitCommas_texts {ops : List Operand} (hne : ops ≠ []) :
    splitCommas (",".intercalate (ops.map text)) = ops.map text := by
  refine splitCommas_intercalate (by simpa using hne) fun t ht => ?_
  obtain ⟨op, -, rfl⟩ := List.mem_map.1 ht
  exact op.comma_notMem_text

end Operand

/-! ## Mnemonics and data -/

/-- A symbol never belongs to a mnemonic. -/
lemma Opcode.notMem_mnemonic {op : Opcode} (h : op ∈ table) {symbol : Char}
    (hsymbol : symbol.isAlphanum = false) : symbol ∉ op.mnemonic.toList := by
  intro hmem
  have hbne := bne_of_isAlphanum (madeOf_mnemonic op h) hsymbol symbol hmem
  simp at hbne

/-- The bytes of a code make up this code, the first one being the most significant. -/
lemma Opcode.value_reverse_bytesOf (code : UInt16) :
    Bytes.value (bytesOf code).reverse = code.toNat := by
  have hlow : code.toUInt8.toNat = code.toNat % 256 := by
    rw [UInt16.toNat_toUInt8]
  rw [bytesOf]
  split_ifs with hcode
  · simp only [List.reverse_cons, List.reverse_nil, List.nil_append, List.singleton_append,
      Bytes.value, hlow, toNat_high]
    omega
  · have hle : code.toNat ≤ 255 := Nat.not_lt.1 fun h => hcode (UInt16.lt_iff_toNat_lt.2 h)
    simp only [List.reverse_singleton, Bytes.value, hlow]
    omega

namespace InstructionBody

/-- The text of an instruction with operands. -/
lemma text_of_ne_nil (op : Opcode) {operands : List Operand} (h : operands ≠ []) :
    (known op operands).text =
      op.mnemonic ++ " " ++ ",".intercalate (operands.map Operand.text) := by
  cases operands with
  | nil => exact absurd rfl h
  | cons operand operands => rfl

/-- **A code that is no opcode is told by the beginning of its text.** A mnemonic does not begin
with a full stop. -/
lemma word_isPrefix_text {p : Nat} {body : InstructionBody} (h : body.Placed p) :
    ".word ".toList <+: body.text.toList ↔ ∃ code, body = unknown code := by
  constructor
  · rintro ⟨rest, hrest⟩
    cases body with
    | unknown code => exact ⟨code, rfl⟩
    | known op operands =>
      have hstop : '.' ∉ op.mnemonic.toList := Opcode.notMem_mnemonic h.1 (by decide)
      have hhead : (known op operands).text.toList.head? = some '.' := by
        rw [← hrest]
        rfl
      -- the first character belongs to the mnemonic or, if that were empty, is a space
      cases operands with
      | nil => exact absurd (List.mem_of_mem_head? hhead) hstop
      | cons operand operands =>
        rw [text_of_ne_nil op (by simp), String.append_assoc, String.toList_append] at hhead
        cases hmnemonic : op.mnemonic.toList with
        | nil => simp [hmnemonic, String.toList_append] at hhead
        | cons c rest =>
          obtain rfl : c = '.' := by simpa [hmnemonic] using hhead
          simp [hmnemonic] at hstop
  · rintro ⟨code, rfl⟩
    rw [text, String.toList_append]
    exact List.prefix_append _ _

/-- A code that is no opcode is shown as the number that its bytes make up. -/
lemma text_unknown (code : UInt16) :
    (unknown code).text = ".word " ++ ("0x" ++ String.ofList
      (Nat.toDigits 16 (Bytes.value (unknown code).encode.reverse))) := by
  rw [encode, Opcode.value_reverse_bytesOf, ← Hex.minimal_eq_toDigits]
  rfl

/-! ## Opcodes with operands -/

/-- The text of an instruction is cut behind the mnemonic, if there are operands. -/
lemma cutAtSpace_text {op : Opcode} (hop : op ∈ Opcode.table) (operands : List Operand) :
    cutAtSpace (known op operands).text = (op.mnemonic, if operands = [] then none else
      some (",".intercalate (operands.map Operand.text))) := by
  have hword := Opcode.madeOf_mnemonic op hop
  split_ifs with hnil
  · subst hnil
    exact cutAtSpace_word hword
  · rw [text_of_ne_nil op hnil]
    exact cutAtSpace_append hword _

/-- There is a space in the text of an instruction exactly if there are operands. -/
lemma space_mem_text_iff {op : Opcode} (hop : op ∈ Opcode.table) (operands : List Operand) :
    ' ' ∈ (known op operands).text.toList ↔ operands ≠ [] := by
  by_cases hnil : operands = []
  · subst hnil
    have hspace : ' ' ∉ op.mnemonic.toList := Opcode.notMem_mnemonic hop (by decide)
    simpa [text] using hspace
  · rw [text_of_ne_nil op hnil]
    simp [String.toList_append, hnil]

/-- The operands of an instruction have the texts that decoding them one by one behind the opcode
gives. -/
lemma texts?_operands {m : Memory} (hm : m.size < 2 ^ 32) {p : Address} {op : Opcode}
    {operands : List Operand} (h : (known op operands).Placed p.toNat)
    (hat : m.HoldsAt p.toNat (known op operands).encode) :
    Operand.texts? m (p + .ofNat op.width) op.operands = some (operands.map Operand.text) := by
  have hend := hat.le_size (encode_ne_nil _)
  have hlength : (Opcode.bytesOf op.code).length = op.width := Opcode.length_bytesOf op.code
  rw [encode, List.length_append, hlength] at hend
  have hstart : (p + .ofNat op.width).toNat = p.toNat + op.width :=
    toNat_add_of_le hm (by omega)
  obtain ⟨-, hoperands⟩ := Memory.holdsAt_append.1 hat
  rw [hlength, ← hstart] at hoperands
  refine Operand.texts?_of_placed hm ?_ hoperands
  rw [hstart]
  exact h.2

end InstructionBody

/-- **The text of an instruction is its mnemonic and its operands.** Let the memory have fewer than
`2 ^ 32` bytes, and let an instruction be decoded. It has no opcode exactly if its text begins with
`.word `; then it takes one byte or two, and the rest of its text is the number that they make up,
the first byte being the most significant. Otherwise the text up to the first space is the mnemonic.
There is a space exactly if the opcode takes operands, and what follows it falls at its commas into
one piece for each of them. The pieces are the texts that are found by decoding operands of these
types one by one: the first behind the opcode, and each other one where the one before ended. -/
theorem instruction_text_splits (m : Memory) (hm : m.size < 2 ^ 32) (c c' : Cursor)
    (i : Instruction) (hdecode : Instruction.decode m c = .ok i c') :
    (i.opcode? = none ↔ ".word ".toList <+: i.text.toList) ∧
    (i.opcode? = none →
      (i.bytes.length = 1 ∨ i.bytes.length = 2) ∧
      i.text = ".word " ++ ("0x" ++ String.ofList
        (Nat.toDigits 16 (Bytes.value i.bytes.reverse)))) ∧
    ∀ op, i.opcode? = some op →
      (' ' ∈ i.text.toList ↔ op.operands ≠ []) ∧
      (op.operands = [] → cutAtSpace i.text = (op.mnemonic, none)) ∧
      (op.operands ≠ [] → ∃ rest, cutAtSpace i.text = (op.mnemonic, some rest) ∧
        (splitCommas rest).length = op.operands.length ∧
        Operand.texts? m (c.pc + .ofNat op.width) op.operands = some (splitCommas rest)) := by
  obtain ⟨⟨⟨-, -, hbytes⟩, hplaced⟩, hat, -⟩ := (reads_instruction hm c).sound hdecode
  obtain ⟨start, stop, bytes, body⟩ := i
  obtain rfl : bytes = body.encode := hbytes
  have hmark := InstructionBody.word_isPrefix_text hplaced
  cases body with
  | unknown code =>
    refine ⟨⟨fun _ => hmark.2 ⟨code, rfl⟩, fun _ => rfl⟩, fun _ => ⟨?_, ?_⟩, fun op hop => ?_⟩
    · have hlength := Opcode.length_bytesOf code
      rw [Opcode.widthOf] at hlength
      split_ifs at hlength
      · exact .inr hlength
      · exact .inl hlength
    · exact InstructionBody.text_unknown code
    · cases hop
  | known op operands =>
    refine ⟨⟨fun hnone => absurd hnone (Option.some_ne_none op), fun hprefix => ?_⟩,
      fun hnone => absurd hnone (Option.some_ne_none op), fun op' hop => ?_⟩
    · obtain ⟨code, hcode⟩ := hmark.1 hprefix
      cases hcode
    · obtain rfl : op = op' := Option.some.inj hop
      have htexts := InstructionBody.texts?_operands hm hplaced hat
      have hlength := Operand.length_of_texts? htexts
      have hnil : operands = [] ↔ op.operands = [] := by
        rw [← List.length_eq_zero_iff, ← List.length_eq_zero_iff, ← hlength, List.length_map]
      have hcut := InstructionBody.cutAtSpace_text hplaced.1 operands
      refine ⟨?_, fun hnone => ?_, fun hsome => ⟨",".intercalate (operands.map Operand.text), ?_⟩⟩
      · exact (InstructionBody.space_mem_text_iff hplaced.1 operands).trans (not_congr hnil)
      · rwa [if_pos (hnil.2 hnone)] at hcut
      · have hne : operands ≠ [] := mt hnil.1 hsome
        rw [if_neg hne] at hcut
        rw [Operand.splitCommas_texts hne]
        exact ⟨hcut, hlength, htexts⟩

/-- Floating-point operands, whose remarks have spaces of their own, and an undefined code of two
bytes. -/
theorem instruction_text_splits_addf3 :
    (let m := Memory.ofList [0x01, 0x41, 0x08, 0x42, 0x8f, 0x00, 0x00, 0x80, 0x3f, 0x53]
      ∃ i c' rest, Instruction.decode m (.start 1) = .ok i c' ∧
        i.text = "addf3 $0x8 [f-float],$0x3f800000 [f-float][r2],r3" ∧
        cutAtSpace i.text = ("addf3", some rest) ∧
        Operand.texts? m 2 [.general .fFloat, .general .fFloat, .general .fFloat] =
          some (splitCommas rest)) ∧
    ∃ i c', Instruction.decode (.ofList [0xfd, 0x0a]) (.start 0) = .ok i c' ∧
      i.text = ".word " ++ ("0x" ++ String.ofList (Nat.toDigits 16 0xfd0a)) := by
  refine ⟨?_, ?_⟩
  · intro m
    let op : Opcode := ⟨0x41, "addf3", [.general .fFloat, .general .fFloat, .general .fFloat]⟩
    have hrun : (Instruction.decode m).run' (.start 1) =
        some ⟨1, 10, [0x41, 0x08, 0x42, 0x8f, 0x00, 0x00, 0x80, 0x3f, 0x53],
          .known op [⟨.general .fFloat ⟨[], .shortLiteral 8, 0⟩, 3⟩,
            ⟨.general .fFloat ⟨[⟨2⟩], .immediate, 0x3f800000⟩, 9⟩,
            ⟨.general .fFloat ⟨[], .register ⟨3⟩, 0⟩, 10⟩]⟩ := by
      decide +kernel
    obtain ⟨c', hdecode⟩ := Decoder.exists_ok_of_run' hrun
    obtain ⟨-, -, hknown⟩ := instruction_text_splits m (by decide) (.start 1) c' _ hdecode
    obtain ⟨-, -, hoperands⟩ := hknown op rfl
    obtain ⟨rest, hcut, -, htexts⟩ := hoperands (by decide)
    exact ⟨_, c', rest, hdecode, by decide +kernel, hcut, htexts⟩
  · have hrun : (Instruction.decode (.ofList [0xfd, 0x0a])).run' (.start 0) =
        some ⟨0, 2, [0xfd, 0x0a], .unknown 0xfd0a⟩ := by
      decide +kernel
    obtain ⟨c', hdecode⟩ := Decoder.exists_ok_of_run' hrun
    obtain ⟨-, hunknown, -⟩ := instruction_text_splits _ (by decide) (.start 0) c' _ hdecode
    exact ⟨_, c', hdecode, (hunknown rfl).2⟩

end VaxListing
