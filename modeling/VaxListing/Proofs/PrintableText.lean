import VaxListing.Proofs.Characters

set_option relaxedAutoImplicit false
set_option autoImplicit false

/-!
# Texts are printable

The text of every operand, and of every instruction that can be decoded, is made of printable
characters. In particular no text contains a tab or the end of a line, which have a meaning of their
own in a listing.

## Main definitions

* `VaxListing.IsPrintable` — the printable characters.

## Main results

* `VaxListing.Operand.printable_text` — the text of an operand is printable.
* `VaxListing.InstructionBody.printable_text` — so is that of an instruction that can be decoded.
-/

namespace VaxListing

/-- The printable characters, from the space to the tilde. -/
def IsPrintable (c : Char) : Prop :=
  0x20 ≤ c.toNat ∧ c.toNat ≤ 0x7e

instance : DecidablePred IsPrintable := fun c =>
  inferInstanceAs (Decidable (0x20 ≤ c.toNat ∧ c.toNat ≤ 0x7e))

/-! ## Letters, digits and symbols -/

/-- Letters and digits are printable. -/
lemma isPrintable_of_isAlphanum {c : Char} (h : c.isAlphanum = true) : IsPrintable c := by
  have hranges : ((65 ≤ c.toNat ∧ c.toNat ≤ 90) ∨ (97 ≤ c.toNat ∧ c.toNat ≤ 122)) ∨
      (48 ≤ c.toNat ∧ c.toNat ≤ 57) := by
    delta Char.isAlphanum Char.isAlpha Char.isUpper Char.isLower Char.isDigit at h
    simpa [UInt32.le_iff_toNat_le] using h
  rw [IsPrintable]
  omega

/-- The characters of operands are printable. -/
lemma isPrintable_of_isOperandChar {c : Char} (h : IsOperandChar c) : IsPrintable c := by
  rcases h with h | h
  · exact isPrintable_of_isAlphanum h
  · fin_cases h <;> decide

/-- Digits are printable. -/
lemma Hex.isPrintable_of_mem {w n : Nat} {c : Char} (h : c ∈ fixed w n) : IsPrintable c :=
  isPrintable_of_isAlphanum (isAlphanum_of_mem_fixed w n c h)

/-! ## Operands and instructions -/

/-- **The text of an operand is printable.** -/
lemma Operand.printable_text (op : Operand) : MadeOf IsPrintable op.text :=
  op.madeOf_text.mono fun _ => isPrintable_of_isOperandChar

/-- **The text of an instruction that can be decoded is printable.** Its mnemonic is one of the
table. -/
lemma InstructionBody.printable_text {p : Nat} {body : InstructionBody} (h : body.Placed p) :
    MadeOf IsPrintable body.text := by
  cases body with
  | unknown code =>
    have hcode := (Hex.madeOf_text code.toNat).mono fun _ => isPrintable_of_isOperandChar
    exact .append (by decide) hcode
  | known op operands =>
    have hmnemonic := (Opcode.madeOf_mnemonic op h.1).mono fun _ => isPrintable_of_isAlphanum
    cases operands with
    | nil => exact hmnemonic
    | cons operand operands =>
      refine .append (.append hmnemonic (by decide)) (.intercalate (by decide) fun t ht => ?_)
      obtain ⟨operand, -, rfl⟩ := List.mem_map.1 ht
      exact operand.printable_text

end VaxListing
