import VaxListing.Proofs.Layout
import VaxListing.Proofs.OperandReference

set_option relaxedAutoImplicit false
set_option autoImplicit false

/-!
# Immediate operands show their bytes

An immediate operand is a constant in the code, behind its mode byte. Its text is the bytes of the
constant, two digits each and the most significant byte first, so that leading zeros are kept and
the number of digits tells the size. This holds for every type and behind any number of indices.

## Main definitions

* `VaxListing.Specifier.constant` — the operand with given index bytes, for a constant of given
  bytes.

## Main results

* `VaxListing.Specifier.text_constant` — its text.
* `VaxListing.Operand.decode_constant` — it is decoded wherever its bytes stand.
* `VaxListing.immediate_operand_shows_bytes` — when an immediate operand can be decoded, and its
  text.
-/

namespace VaxListing

/-! ## Constants as operands -/

namespace Specifier

/-- The immediate operand with the given index bytes, for a constant of the given bytes. -/
def constant (indices extension : List UInt8) : Specifier where
  indices := indices.map .ofNibble
  base := .immediate
  extension := Bytes.value extension

variable {type : DataType} {indices extension : List UInt8}

/-- A constant of the right size has bytes of its own. -/
lemma wellFormed_constant (hextension : extension.length = type.size) :
    (constant indices extension).WellFormed type := by
  refine ⟨trivial, ?_⟩
  have hlt := value_lt_capacity extension
  rwa [hextension] at hlt

/-- These bytes are the index bytes, the mode byte `8f` and the bytes of the constant. -/
lemma encode_constant (hindices : ∀ b ∈ indices, Layout.isIndexByte b = true)
    (hextension : extension.length = type.size) :
    (constant indices extension).encode type = indices ++ 0x8f :: extension := by
  have hbytes : Bytes.ofValue type.size (Bytes.value extension) = extension := by
    rw [← hextension]
    exact ofValue_value extension
  have hchain : indexBytes (indices.map .ofNibble) = indices := Layout.indexBytes_ofNibble hindices
  show indexBytes (indices.map .ofNibble) ++
    0x8f :: Bytes.ofValue type.size (Bytes.value extension) = _
  rw [hchain, hbytes]

/-- **The text of a constant shows its bytes**, the most significant first. -/
lemma text_constant (hextension : extension.length = type.size) (stop : Address) :
    (constant indices extension).text type stop =
      "$0x" ++ String.ofList (extension.reverse.flatMap Hex.byteDigits) ++ type.suffix ++
        Reference.indexSuffix indices := by
  have hlt := value_lt_capacity extension
  rw [hextension] at hlt
  have hdigits : Hex.fixed (2 * type.size) (Bytes.value extension) =
      extension.reverse.flatMap Hex.byteDigits := by
    rw [← hextension]
    exact Hex.fixed_value extension
  have hindices : (constant indices extension).indexText =
      Reference.indexSuffix indices := by
    rw [indexText, constant, Reference.indexSuffix, ← List.map_reverse, List.map_map]
    rfl
  rw [text, hindices, baseText]
  show "$" ++ Hex.paddedText (2 * type.size) (Bytes.value extension) ++ type.suffix ++ _ = _
  rw [paddedText_eq hlt, hdigits, ← String.append_assoc]
  rfl

end Specifier

/-! ## Decoding -/

variable {m : Memory} {type : DataType} {c : Cursor} {indices : List UInt8}

/-- An immediate operand takes its index bytes, its mode byte and the bytes of its type. -/
lemma Layout.sizeAt_immediate (hindices : ∀ b ∈ indices, isIndexByte b = true) {p : Nat}
    (hat : m.HoldsAt p (indices ++ [0x8f])) :
    sizeAt m (.general type, p) = indices.length + 1 + type.size := by
  obtain ⟨rest, hrest⟩ := hat
  have hmode : isIndexByte 0x8f = false := by
    decide
  have hindexPart : indexPart (indices ++ [0x8f] ++ rest) = indices := by
    simp [indexPart, List.takeWhile_append_of_pos hindices, hmode]
  have hbaseByte : baseByte? (indices ++ [0x8f] ++ rest) = some 0x8f := by
    simp [baseByte?, List.dropWhile_append_of_pos hindices, hmode]
  have hclass : AddressingMode.classify 0x8f = .base .immediate := by
    decide
  rw [sizeAt, ← hrest, operandSize, if_neg (by simp [OperandType.isBranch]), hindexPart, hbaseByte]
  simp only [hclass]
  rfl

/-- **A constant is decoded wherever its bytes stand.** -/
lemma Operand.decode_constant (hm : m.size < 2 ^ 32)
    (hindices : ∀ b ∈ indices, Layout.isIndexByte b = true) {extension : List UInt8}
    (hextension : extension.length = type.size)
    (hat : m.HoldsAt c.pc.toNat (indices ++ 0x8f :: extension)) :
    ∃ c', decode m (.general type) c =
      .ok ⟨.general type (.constant indices extension), c'.pc⟩ c' := by
  have hwf : (OperandForm.general type (.constant indices extension)).WellFormed :=
    Specifier.wellFormed_constant hextension
  refine operand_of_holdsAt hm hwf ?_
  rw [OperandForm.encode, Specifier.encode_constant hindices hextension]
  exact hat

/-- **Immediate operands show their bytes.** Let index bytes and the mode byte `8f` stand at the
program counter in a memory of fewer than `2 ^ 32` bytes. A general operand of any type is decoded
there exactly if the memory goes on for as many bytes as the type takes. Then these bytes are
consumed, and the text is `$0x`, the two digits of each of them, the last byte first, the remark of
the type, and the index registers, the last one first. -/
theorem immediate_operand_shows_bytes (type : DataType) (m : Memory) (hm : m.size < 2 ^ 32)
    (c : Cursor) (indices : List UInt8) (hindices : ∀ b ∈ indices, 0x40 ≤ b ∧ b ≤ 0x4f)
    (hat : m.HoldsAt c.pc.toNat (indices ++ [0x8f])) :
    let stop := c.pc.toNat + indices.length + 1 + type.size
    let extension := (m.toList.drop (c.pc.toNat + indices.length + 1)).take type.size
    ((∃ op c', Operand.decode m (.general type) c = .ok op c') ↔ stop ≤ m.size) ∧
    ∀ op c', Operand.decode m (.general type) c = .ok op c' →
      c'.pc.toNat = stop ∧ extension.length = type.size ∧
      (extension.reverse.flatMap Hex.byteDigits).length = 2 * type.size ∧
      op.text = "$0x" ++ String.ofList (extension.reverse.flatMap Hex.byteDigits) ++ type.suffix ++
        Reference.indexSuffix indices := by
  intro stop extension
  have hchain : ∀ b ∈ indices, Layout.isIndexByte b = true := fun b hb =>
    (Layout.isIndexByte_iff b).2 (hindices b hb)
  have hsize : c.pc.toNat + Layout.sizeAt m (.general type, c.pc.toNat) = stop := by
    rw [Layout.sizeAt_immediate hchain hat]
    omega
  have hfits : (∃ op c', Operand.decode m (.general type) c = .ok op c') ↔ stop ≤ m.size := by
    rw [exists_operand_iff hm, hsize]
  refine ⟨hfits, fun op c' hdecode => ?_⟩
  have hle : stop ≤ m.size := hfits.1 ⟨op, c', hdecode⟩
  have hextension : extension.length = type.size := by
    rw [List.length_take, List.length_drop, Memory.length_toList]
    omega
  have hbytes : m.HoldsAt c.pc.toNat (indices ++ [0x8f] ++ extension) := by
    rw [Memory.holdsAt_append, List.length_append, List.length_singleton, ← Nat.add_assoc]
    exact ⟨hat, m.holdsAt_take _ _⟩
  rw [List.append_assoc, List.singleton_append] at hbytes
  -- the bytes in memory are those of a constant, so that this constant is what was decoded
  obtain ⟨c'', hconstant⟩ := Operand.decode_constant hm hchain hextension hbytes
  rw [hdecode] at hconstant
  obtain ⟨rfl, rfl⟩ := EStateM.Result.ok.inj hconstant
  refine ⟨?_, hextension, ?_, Specifier.text_constant hextension c'.pc⟩
  · rw [pc_of_operand hm hdecode, hsize]
  · rw [← Hex.fixed_value, Hex.length_fixed, hextension]

/-- A floating-point constant of eight bytes with leading zeros, behind two indices. -/
theorem immediate_operand_shows_bytes_dFloat :
    ∃ op c', Operand.decode (.ofList [0x01, 0x41, 0x4c, 0x8f, 0x00, 0x00, 0x80, 0x3f, 0xa5, 0x00,
        0x00, 0x00]) (.general .dFloat) (.start 1) = .ok op c' ∧ c'.pc.toNat = 12 ∧
      op.text = "$0x000000a53f800000 [d-float][ap][r1]" := by
  obtain ⟨hdecodes, htext⟩ := immediate_operand_shows_bytes .dFloat
    (.ofList [0x01, 0x41, 0x4c, 0x8f, 0x00, 0x00, 0x80, 0x3f, 0xa5, 0x00, 0x00, 0x00]) (by decide)
    (.start 1) [0x41, 0x4c] (by simp) (by decide)
  obtain ⟨op, c', hdecode⟩ := hdecodes.2 (by decide)
  obtain ⟨hpc, -, -, hop⟩ := htext op c' hdecode
  exact ⟨op, c', hdecode, hpc, hop.trans (by decide +kernel)⟩

end VaxListing
