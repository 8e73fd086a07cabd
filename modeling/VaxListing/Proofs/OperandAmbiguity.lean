import VaxListing.Proofs.Layout
import VaxListing.Proofs.OperandReader

set_option relaxedAutoImplicit false
set_option autoImplicit false

/-!
# How far the text of an operand tells its bytes

The text of a general operand, together with the address behind the operand and the number of its
bytes, tells all of them, with one exception: an absolute address has the same text as a long
deferred displacement off the program counter that leads to this address.

## Main definitions

* `VaxListing.Specifier.Alias` — two operands that lead to the same address in these two ways.
* `VaxListing.Operand.IsAlias` — the same for the bytes of the operands.

## Main results

* `VaxListing.Specifier.text_eq_iff` — the operands of the same length with the same text.
* `VaxListing.Specifier.encode_inj` — the bytes of an operand are its own.
* `VaxListing.operand_text_ambiguity` — the bytes that are decoded from two memories with the same
  text.
-/

namespace VaxListing

namespace Specifier

/-! ## Operands with the same text -/

/-- Two operands that lead to the same address: an absolute one, and a long displacement off the
program counter. -/
structure Alias (stop : Address) (s s' : Specifier) : Prop where
  /-- The indices are the same. -/
  indices_eq : s.indices = s'.indices
  /-- One operand is an absolute address. -/
  base_eq : s.base = .absolute
  /-- The other one is a displacement off the program counter. -/
  base_eq' : s'.base = .displacement .long .pc true
  /-- The displacement leads to the address. -/
  address_eq : (stop.toNat + s'.extension) % 2 ^ 32 = s.extension

/-- An operand is made of its parts. -/
lemma eq_of_parts {s s' : Specifier} (hindices : s.indices = s'.indices) (hbase : s.base = s'.base)
    (hextension : s.extension = s'.extension) : s = s' := by
  obtain ⟨indices, base, extension⟩ := s
  obtain ⟨indices', base', extension'⟩ := s'
  cases hindices
  cases hbase
  cases hextension
  rfl

/-- The displacement that was put in the place of an absolute address leads to it. -/
lemma add_toNat_sub_mod {a : Nat} (h : a < 2 ^ 32) (stop : Address) :
    (stop.toNat + (.ofNat a - stop : Address).toNat) % 2 ^ 32 = a := by
  have hstop := stop.toNat_lt
  rw [UInt32.toNat_sub, UInt32.toNat_ofNat']
  omega

/-- The canonical base of an absolute address. -/
lemma canonical_of_absolute {s : Specifier} (h : s.base = .absolute) (stop : Address) :
    s.canonical stop =
      (.displacement .long .pc true, (.ofNat s.extension - stop : Address).toNat) := by
  rw [canonical, h]

/-- Every other base is its own canonical base. -/
lemma canonical_of_ne {s : Specifier} (h : s.base ≠ .absolute) (stop : Address) :
    s.canonical stop = (s.base, s.extension) := by
  rw [canonical]
  split
  case h_1 habsolute => exact absurd habsolute h
  case h_2 => rfl

/-- Another base with the canonical base of an absolute address is an alias of it. -/
lemma alias_of_canonical_eq {type : DataType} {stop : Address} {s s' : Specifier}
    (h : s.WellFormed type) (hindices : s.indices = s'.indices)
    (hcanonical : s.canonical stop = s'.canonical stop) (hbase : s.base = .absolute)
    (hbase' : s'.base ≠ .absolute) : s.Alias stop s' := by
  rw [canonical_of_absolute hbase, canonical_of_ne hbase'] at hcanonical
  obtain ⟨hmode, hextension⟩ := Prod.mk.inj hcanonical
  refine ⟨hindices, hbase, hmode.symm, ?_⟩
  have hlt : s.extension < 2 ^ 32 := by
    have hfits := h.2
    rwa [hbase] at hfits
  rw [← hextension, add_toNat_sub_mod hlt]

/-- Operands with the same indices and the same canonical base are the same or aliases. -/
lemma eq_or_alias_of_canonical_eq {type : DataType} {stop : Address} {s s' : Specifier}
    (h : s.WellFormed type) (h' : s'.WellFormed type) (hindices : s.indices = s'.indices)
    (hcanonical : s.canonical stop = s'.canonical stop) :
    s = s' ∨ s.Alias stop s' ∨ s'.Alias stop s := by
  by_cases hbase : s.base = .absolute
  · by_cases hbase' : s'.base = .absolute
    · left
      rw [canonical_of_absolute hbase, canonical_of_absolute hbase'] at hcanonical
      have hoffset := (Prod.mk.inj hcanonical).2
      have hfits := h.2
      have hfits' := h'.2
      rw [hbase] at hfits
      rw [hbase'] at hfits'
      have hextension : s.extension = s'.extension := by
        rw [← add_toNat_sub_mod (a := s.extension) hfits stop, hoffset,
          add_toNat_sub_mod (a := s'.extension) hfits' stop]
      exact eq_of_parts hindices (hbase.trans hbase'.symm) hextension
    · exact .inr (.inl (alias_of_canonical_eq h hindices hcanonical hbase hbase'))
  · by_cases hbase' : s'.base = .absolute
    · exact .inr (.inr (alias_of_canonical_eq h' hindices.symm hcanonical.symm hbase' hbase))
    · left
      rw [canonical_of_ne hbase, canonical_of_ne hbase'] at hcanonical
      obtain ⟨hmode, hextension⟩ := Prod.mk.inj hcanonical
      exact eq_of_parts hindices hmode hextension

/-- The text of an alias is the same. -/
lemma Alias.text_eq {type : DataType} {stop : Address} {s s' : Specifier} (h : s.Alias stop s') :
    s.text type stop = s'.text type stop := by
  obtain ⟨hindices, hbase, hbase', haddress⟩ := h
  have hstop : (stop + signExtend 4 s'.extension).toNat = s.extension := by
    have hoffset : signExtend 4 s'.extension = .ofNat s'.extension := rfl
    rw [← haddress, UInt32.toNat_add, hoffset, UInt32.toNat_ofNat']
    omega
  have hbaseText : s.baseText type stop = s'.baseText type stop := by
    simp only [baseText, hbase, hbase', DisplacementWidth.size, hstop]
    rfl
  rw [text, text, hbaseText, indexText, indexText, hindices]

/-- **The text of an operand tells its parts**, given its length and the address behind it, up to
aliases.

**Proof sketch.** A text is cut into its body and what stands behind it. The bodies begin with the
same character, so that both operands are constants or none is; then the indices are the same, and
so are the numbers of bytes behind the mode bytes. With this number, the body is read back. -/
lemma text_eq_iff {type : DataType} {stop : Address} {s s' : Specifier} (h : s.WellFormed type)
    (h' : s'.WellFormed type) (hlength : (s.encode type).length = (s'.encode type).length) :
    s.text type stop = s'.text type stop ↔ s = s' ∨ s.Alias stop s' ∨ s'.Alias stop s := by
  constructor
  · intro htext
    have hlist := congrArg String.toList htext
    rw [toList_text, toList_text] at hlist
    obtain ⟨hbody, htail⟩ := append_inj_of_stop hlist (isBody_body type stop s)
      (isBodyChar_head_tail type s) (isBody_body type stop s') (isBodyChar_head_tail type s')
    have hconstant : s.isConstant = s'.isConstant := by
      rw [Bool.eq_iff_iff, head?_body type stop, head?_body type stop, hbody]
    have hindices : s.indices = s'.indices := by
      rw [tail, tail, hconstant] at htail
      exact List.reverse_injective (indices_inj (List.append_cancel_left htail))
    have hsize : s.base.extensionSize type.size = s'.base.extensionSize type.size := by
      simp only [encode, List.length_append, List.length_map, List.length_cons,
        Bytes.length_ofValue, hindices] at hlength
      omega
    have hread := readBody_body h stop
    rw [hbody, hsize, readBody_body h' stop] at hread
    exact eq_or_alias_of_canonical_eq h h' hindices (Option.some.inj hread).symm
  · rintro (rfl | halias | halias)
    · rfl
    · exact halias.text_eq
    · exact halias.text_eq.symm

/-! ## Operands with the same bytes -/

/-- The indices are seen from the index bytes. -/
lemma indexBytes_injective : Function.Injective indexBytes := by
  refine List.map_injective_iff.2 fun r r' h => ?_
  have hmode := congrArg AddressingMode.classify h
  rw [Layout.classify_indexed_byte, Layout.classify_indexed_byte] at hmode
  exact AddressingMode.indexed.inj hmode

/-- **The bytes of an operand are its own.**

**Proof sketch.** The layout of the bytes gives the index bytes and the mode byte. What is left are
the bytes of the number, which is given back by them. -/
lemma encode_inj {type : DataType} {s s' : Specifier} (h : s.WellFormed type)
    (h' : s'.WellFormed type) (hencode : s.encode type = s'.encode type) : s = s' := by
  have hindices : s.indices = s'.indices := by
    apply indexBytes_injective
    rw [← Layout.indexPart_encode h.1 [], hencode, Layout.indexPart_encode h'.1]
  have hbase : s.base = s'.base := by
    have hbyte : some s.base.byte = some s'.base.byte := by
      rw [← Layout.baseByte?_encode h.1 [], hencode, Layout.baseByte?_encode h'.1]
    have hmode := congrArg AddressingMode.classify (Option.some.inj hbyte)
    rw [Layout.classify_base_byte h.1, Layout.classify_base_byte h'.1] at hmode
    exact AddressingMode.base.inj hmode
  refine eq_of_parts hindices hbase ?_
  rw [encode, encode, hindices, hbase] at hencode
  have hbytes := (List.cons.inj (List.append_cancel_left hencode)).2
  have hvalue := congrArg Bytes.value hbytes
  have hfits := h.2
  rw [hbase] at hfits
  rwa [Bytes.value_ofValue, Bytes.value_ofValue, Nat.mod_eq_of_lt hfits,
    Nat.mod_eq_of_lt h'.2] at hvalue

end Specifier

/-- The bytes of two operands that cannot be told apart, with the address behind them: the index
bytes are the same, and behind them stands an absolute address in one operand, and in the other one
a long deferred displacement off the program counter that leads to this address. -/
def Operand.IsAlias (stop : Address) (bs bs' : List UInt8) : Prop :=
  ∃ (indices : List UInt8) (address displacement : Nat),
    (∀ b ∈ indices, 0x40 ≤ b ∧ b ≤ 0x4f) ∧ address < 2 ^ 32 ∧ displacement < 2 ^ 32 ∧
      bs = indices ++ 0x9f :: Bytes.ofValue 4 address ∧
      bs' = indices ++ 0xff :: Bytes.ofValue 4 displacement ∧
      (stop.toNat + displacement) % 2 ^ 32 = address

/-- Operands are aliases exactly if their bytes are. -/
lemma Specifier.isAlias_encode_iff {type : DataType} {stop : Address} {s s' : Specifier}
    (h : s.WellFormed type) (h' : s'.WellFormed type) :
    Operand.IsAlias stop (s.encode type) (s'.encode type) ↔ s.Alias stop s' := by
  constructor
  · rintro ⟨indices, address, displacement, hbytes, hlt, hlt', hencode, hencode', haddress⟩
    have hindices : Specifier.indexBytes (indices.map .ofNibble) = indices :=
      Layout.indexBytes_ofNibble fun b hb => (Layout.isIndexByte_iff b).2 (hbytes b hb)
    rw [← hindices] at hencode hencode'
    obtain rfl : s = ⟨indices.map .ofNibble, .absolute, address⟩ :=
      encode_inj h ⟨trivial, hlt⟩ hencode
    obtain rfl : s' = ⟨indices.map .ofNibble, .displacement .long .pc true, displacement⟩ :=
      encode_inj h' ⟨trivial, hlt'⟩ hencode'
    exact ⟨rfl, rfl, rfl, haddress⟩
  · rintro ⟨hindices, hbase, hbase', haddress⟩
    have hfits := h.2
    have hfits' := h'.2
    rw [hbase] at hfits
    rw [hbase'] at hfits'
    refine ⟨Specifier.indexBytes s.indices, s.extension, s'.extension, fun b hb => ?_, hfits,
      hfits', ?_, ?_, haddress⟩
    · exact (Layout.isIndexByte_iff b).1 (Layout.isIndexByte_of_mem_indexBytes s.indices b hb)
    · rw [encode, hbase]
      rfl
    · rw [encode, hbase', hindices]
      rfl

/-- What is known of a general operand that is decoded: its parts, its text and its bytes. -/
lemma Operand.exists_specifier_of_decode {m : Memory} (hm : m.size < 2 ^ 32) {type : DataType}
    {c c' : Cursor} {op : Operand} (h : decode m (.general type) c = .ok op c') :
    ∃ s : Specifier, s.WellFormed type ∧ op.text = s.text type c'.pc ∧
      (m.toList.drop c.pc.toNat).take (c'.pc.toNat - c.pc.toNat) = s.encode type ∧
      (s.encode type).length = c'.pc.toNat - c.pc.toNat := by
  obtain ⟨⟨⟨htype, hwf⟩, hstop⟩, hat, hpc⟩ := (reads_operand hm (.general type) c).sound h
  obtain ⟨form, stop⟩ := op
  cases form with
  | branch width displacement => cases htype
  | general type' s =>
    cases htype
    obtain rfl : stop = c'.pc := UInt32.toNat_inj.1 (hstop.trans hpc.symm)
    have hlength : (s.encode type).length = c'.pc.toNat - c.pc.toNat :=
      (Nat.sub_eq_of_eq_add' hpc).symm
    refine ⟨s, hwf, rfl, ?_, hlength⟩
    rw [← hlength]
    exact hat.eq_take

/-- **The text of an operand is ambiguous in exactly one way.** Let a general operand of the same
type be decoded at the same address in two memories of fewer than `2 ^ 32` bytes, and end at the
same address in both. The texts of the two operands are the same exactly if their bytes are the
same, or if one of them is an absolute address, the other one is a long deferred displacement off
the program counter that leads to this address, and the index bytes in front are the same. -/
theorem operand_text_ambiguity (type : DataType) (m₁ m₂ : Memory) (hm₁ : m₁.size < 2 ^ 32)
    (hm₂ : m₂.size < 2 ^ 32) (c₁ c₂ c₁' c₂' : Cursor) (op₁ op₂ : Operand)
    (h₁ : Operand.decode m₁ (.general type) c₁ = .ok op₁ c₁')
    (h₂ : Operand.decode m₂ (.general type) c₂ = .ok op₂ c₂')
    (hstart : c₁.pc = c₂.pc) (hstop : c₁'.pc = c₂'.pc) :
    let consumed₁ := (m₁.toList.drop c₁.pc.toNat).take (c₁'.pc.toNat - c₁.pc.toNat)
    let consumed₂ := (m₂.toList.drop c₂.pc.toNat).take (c₂'.pc.toNat - c₂.pc.toNat)
    op₁.text = op₂.text ↔ consumed₁ = consumed₂ ∨
      Operand.IsAlias c₁'.pc consumed₁ consumed₂ ∨
      Operand.IsAlias c₁'.pc consumed₂ consumed₁ := by
  obtain ⟨s₁, hwf₁, htext₁, hbytes₁, hlength₁⟩ := Operand.exists_specifier_of_decode hm₁ h₁
  obtain ⟨s₂, hwf₂, htext₂, hbytes₂, hlength₂⟩ := Operand.exists_specifier_of_decode hm₂ h₂
  dsimp only
  rw [hbytes₁, hbytes₂, htext₁, htext₂, ← hstop, Specifier.isAlias_encode_iff hwf₁ hwf₂,
    Specifier.isAlias_encode_iff hwf₂ hwf₁,
    Specifier.text_eq_iff hwf₁ hwf₂ (by rw [hlength₁, hlength₂, hstart, hstop])]
  have hbytes : s₁ = s₂ ↔ s₁.encode type = s₂.encode type :=
    ⟨fun h => by rw [h], Specifier.encode_inj hwf₁ hwf₂⟩
  rw [hbytes]

/-- The address `10` behind the index `r1`, as it stands in the code and as a displacement off the
address behind the operand: different bytes, and the same text. -/
theorem operand_text_ambiguity_absolute :
    ∃ op₁ op₂ c₁' c₂',
      Operand.decode (.ofList [0x41, 0x9f, 0x10, 0, 0, 0]) (.general .long) (.start 0) =
          .ok op₁ c₁' ∧
        Operand.decode (.ofList [0x41, 0xff, 0x0a, 0, 0, 0]) (.general .long) (.start 0) =
          .ok op₂ c₂' ∧
        Operand.IsAlias c₁'.pc [0x41, 0x9f, 0x10, 0, 0, 0] [0x41, 0xff, 0x0a, 0, 0, 0] ∧
        op₁.text = op₂.text := by
  have h₁ : Operand.decode (.ofList [0x41, 0x9f, 0x10, 0, 0, 0]) (.general .long) (.start 0) =
      .ok ⟨.general .long ⟨[⟨1⟩], .absolute, 0x10⟩, 6⟩
        ⟨6, #[.modeByte 0x41 0, .modeByte 0x9f 1]⟩ := rfl
  have h₂ : Operand.decode (.ofList [0x41, 0xff, 0x0a, 0, 0, 0]) (.general .long) (.start 0) =
      .ok ⟨.general .long ⟨[⟨1⟩], .displacement .long .pc true, 0x0a⟩, 6⟩
        ⟨6, #[.modeByte 0x41 0, .modeByte 0xff 1]⟩ := rfl
  have halias : Operand.IsAlias 6 [0x41, 0x9f, 0x10, 0, 0, 0] [0x41, 0xff, 0x0a, 0, 0, 0] :=
    ⟨[0x41], 0x10, 0x0a, by simp, by decide, by decide, by decide, by decide, by decide⟩
  refine ⟨_, _, _, _, h₁, h₂, halias, ?_⟩
  exact (operand_text_ambiguity .long _ _ (by decide) (by decide) _ _ _ _ _ _ h₁ h₂ rfl rfl).2
    (.inr (.inl halias))

end VaxListing
