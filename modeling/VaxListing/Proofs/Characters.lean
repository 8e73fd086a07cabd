import VaxListing.Proofs.Hexadecimal
import VaxListing.Proofs.InstructionFormat

set_option relaxedAutoImplicit false
set_option autoImplicit false

/-!
# The characters of texts

The text of an operand is made of letters, digits and a few symbols. A mnemonic is made of letters
and digits alone. So a comma never belongs to an operand, and a space never belongs to a mnemonic,
which is what the layout of an instruction relies on.

## Main definitions

* `VaxListing.MadeOf` — a string whose characters belong to a class.
* `VaxListing.allBytes` — the same for ASCII strings, told by the bytes.
* `VaxListing.IsOperandChar` — the characters of operands.

## Main results

* `VaxListing.Operand.madeOf_text` — the text of an operand is made of them.
* `VaxListing.Opcode.madeOf_mnemonic` — a mnemonic is made of letters and digits.
-/

namespace VaxListing

/-- A string whose characters belong to a class. -/
def MadeOf (P : Char → Prop) (s : String) : Prop :=
  ∀ c ∈ s.toList, P c

instance (P : Char → Prop) [DecidablePred P] : DecidablePred (MadeOf P) := fun s =>
  List.decidableBAll P s.toList

/-! ## Putting strings together -/

namespace MadeOf

variable {P Q : Char → Prop} {s t : String} {l : List String}

lemma mono (hs : MadeOf P s) (h : ∀ c, P c → Q c) : MadeOf Q s :=
  fun c hc => h c (hs c hc)

lemma append (hs : MadeOf P s) (ht : MadeOf P t) : MadeOf P (s ++ t) := by
  intro c hc
  rw [String.toList_append, List.mem_append] at hc
  exact hc.elim (hs c) (ht c)

lemma ofList {cs : List Char} (h : ∀ c ∈ cs, P c) : MadeOf P (.ofList cs) := by
  intro c hc
  rw [String.toList_ofList] at hc
  exact h c hc

/-- Strings one after another are made of the same characters. -/
lemma join (hl : ∀ t ∈ l, MadeOf P t) : MadeOf P (.join l) := by
  intro c hc
  rw [String.toList_join, List.mem_flatMap] at hc
  obtain ⟨t, ht, hc⟩ := hc
  exact hl t ht c hc

/-- Strings with a string between them are made of the characters of both. -/
lemma intercalate (hs : MadeOf P s) (hl : ∀ t ∈ l, MadeOf P t) : MadeOf P (s.intercalate l) := by
  intro c hc
  rw [String.toList_intercalate] at hc
  induction l with
  | nil => simp at hc
  | cons t l ih =>
    have ht := hl t List.mem_cons_self
    have hrest := ih fun t ht => hl t (List.mem_cons_of_mem _ ht)
    cases l with
    | nil =>
      rw [List.map_singleton, List.intercalate_singleton] at hc
      exact ht c hc
    | cons u l =>
      rw [List.map_cons, List.map_cons, List.intercalate_cons_cons, ← List.map_cons,
        List.mem_append, List.mem_append] at hc
      obtain (hc | hc) | hc := hc
      · exact ht c hc
      · exact hs c hc
      · exact hrest hc

end MadeOf

/-! ## The bytes of strings -/

/-- Whether the bytes of a string are ASCII characters of a class. -/
def allBytes (p : Char → Bool) (s : String) : Bool :=
  s.toByteArray.data.toList.all fun b => b.toNat ≤ 127 && p (Char.ofNat b.toNat)

/-- A character is a byte of its encoding, or there is a byte beyond ASCII in the encoding. -/
lemma exists_mem_utf8EncodeChar (c : Char) :
    ∃ b ∈ String.utf8EncodeChar c, 127 < b.toNat ∨ Char.ofNat b.toNat = c := by
  rw [String.utf8EncodeChar]
  split_ifs with hascii
  · refine ⟨_, List.mem_singleton_self _, .inr ?_⟩
    rw [UInt8.toNat_ofNat_of_lt' (by change _ < 256; omega)]
    exact Char.ofNat_toNat c
  all_goals
    refine ⟨_, List.mem_cons_self, .inl ?_⟩
    rw [UInt8.toNat_ofNat_of_lt' (by change _ < 256; omega)]
    omega

/-- The bytes of a string tell what it is made of. -/
lemma MadeOf.of_bytes {p : Char → Bool} {s : String} (hs : allBytes p s = true) :
    MadeOf (p · = true) s := by
  intro c hc
  obtain ⟨b, hb, hbyte⟩ := exists_mem_utf8EncodeChar c
  have hmem : b ∈ s.toByteArray.data.toList := by
    rw [← String.utf8Encode_toList, List.utf8Encode, List.data_toByteArray]
    exact List.mem_flatMap.2 ⟨c, hc, hb⟩
  have hall : b.toNat ≤ 127 ∧ p (Char.ofNat b.toNat) = true := by
    simpa using List.all_eq_true.1 hs b hmem
  obtain hbeyond | rfl := hbyte
  · omega
  · exact hall.2

/-! ## Letters and digits -/

/-- Hexadecimal digits are letters and digits. -/
lemma Hex.isAlphanum_of_mem_fixed (w n : Nat) : ∀ c ∈ fixed w n, c.isAlphanum = true := by
  intro c hc
  have all : ∀ d : Fin 16, (digit d).isAlphanum = true := by
    decide
  obtain ⟨d, rfl⟩ := exists_digit_of_mem hc
  exact all d

/-- The names of registers are made of letters and digits. -/
lemma Register.isAlphanum_of_mem_name (r : Register) :
    ∀ c ∈ r.name.toList, c.isAlphanum = true := by
  -- on the bytes, since these need not be decoded
  have all : ∀ n : Fin 16, allBytes Char.isAlphanum (name ⟨n⟩) = true := by
    decide
  exact MadeOf.of_bytes (all r.number)

/-- The mnemonics of all opcodes are made of letters and digits. -/
lemma Opcode.madeOf_mnemonic : ∀ op ∈ table, MadeOf (·.isAlphanum = true) op.mnemonic := by
  intro op hop
  have all : (table.all fun op => allBytes Char.isAlphanum op.mnemonic) = true := by
    decide +kernel
  exact .of_bytes (List.all_eq_true.1 all op hop)

/-! ## Operands -/

/-- The characters of operands: letters, digits and the symbols around them. -/
def IsOperandChar (c : Char) : Prop :=
  c.isAlphanum = true ∨ c ∈ ['$', '*', '@', '+', '-', '(', ')', '[', ']', ' ']

instance : DecidablePred IsOperandChar := fun c =>
  inferInstanceAs (Decidable (_ ∨ c ∈ _))

lemma Hex.madeOf_digits (w n : Nat) : MadeOf IsOperandChar (.ofList (fixed w n)) :=
  .ofList fun c hc => .inl (isAlphanum_of_mem_fixed w n c hc)

lemma Hex.madeOf_text (n : Nat) : MadeOf IsOperandChar (text n) :=
  .append (by decide) (madeOf_digits _ n)

lemma Register.madeOf_name (r : Register) : MadeOf IsOperandChar r.name :=
  fun c hc => .inl (r.isAlphanum_of_mem_name c hc)

/-- The name of a register between two strings. -/
lemma Register.madeOf_between (r : Register) {opening closing : String}
    (hopening : MadeOf IsOperandChar opening) (hclosing : MadeOf IsOperandChar closing) :
    MadeOf IsOperandChar (opening ++ r.name ++ closing) :=
  .append (.append hopening r.madeOf_name) hclosing

lemma DataType.madeOf_suffix (type : DataType) : MadeOf IsOperandChar type.suffix := by
  cases type <;> decide

namespace Specifier

/-- The base of an operand is made of the characters of operands, whatever its mode. -/
lemma madeOf_baseText (type : DataType) (stop : Address) (s : Specifier) :
    MadeOf IsOperandChar (s.baseText type stop) := by
  have hsuffix := type.madeOf_suffix
  rw [baseText]
  cases s.base with
  | shortLiteral value => exact .append (.append (by decide) (Hex.madeOf_text _)) hsuffix
  | register r => exact r.madeOf_name
  | registerDeferred r => exact r.madeOf_between (by decide) (by decide)
  | autodecrement r => exact r.madeOf_between (by decide) (by decide)
  | autoincrement r => exact r.madeOf_between (by decide) (by decide)
  | immediate =>
    refine .append (.append (by decide) ?_) hsuffix
    exact .append (by decide) (Hex.madeOf_digits _ _)
  | autoincrementDeferred r => exact r.madeOf_between (by decide) (by decide)
  | absolute => exact .append (by decide) (Hex.madeOf_text _)
  | displacement width r deferred =>
    refine .append (by cases deferred <;> decide) ?_
    split
    · exact Hex.madeOf_text _
    · exact r.madeOf_between (.append (Hex.madeOf_text _) (by decide)) (by decide)

/-- The text of a general operand is made of the characters of operands. -/
lemma madeOf_text (type : DataType) (stop : Address) (s : Specifier) :
    MadeOf IsOperandChar (s.text type stop) := by
  refine .append (s.madeOf_baseText type stop) (.join fun t ht => ?_)
  obtain ⟨r, -, rfl⟩ := List.mem_map.1 ht
  exact r.madeOf_between (by decide) (by decide)

end Specifier

/-- **The text of an operand is made of the characters of operands.** -/
lemma Operand.madeOf_text (op : Operand) : MadeOf IsOperandChar op.text := by
  rw [text]
  cases op.form with
  | general type s => exact s.madeOf_text type op.stop
  | branch width displacement => exact Hex.madeOf_text _

end VaxListing
